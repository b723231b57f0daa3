import DotBuilder.OrdMap.Lemmas
import Mathlib.Data.List.Induction
import Mathlib.Data.List.Nodup

/-!
# Keys in order of first binding

The keys of a map are the keys that were bound, each once, where it was bound first.  So when maps
are written over each other, the keys are those of all of them in turn without repetitions, and each
has the value of the last map that has it.

* `eraseDups_append_singleton`, `nodup_eraseDups` : a list without its repetitions;
* `OrdMap.keys_insertAll`, `OrdMap.get?_insertAll` : one map written over another;
* `OrdMap.keys_foldl_insertAll`, `OrdMap.get?_foldl_insertAll` : a list of maps.
-/

namespace DotBuilder

variable {κ α : Type} [DecidableEq κ]

/-! ## Lists without repetitions -/

theorem eraseDups_append_singleton (xs : List κ) (x : κ) :
    (xs ++ [x]).eraseDups = if x ∈ xs then xs.eraseDups else xs.eraseDups ++ [x] := by
  rw [List.eraseDups_append]
  by_cases hx : x ∈ xs <;> simp [hx, List.removeAll, List.eraseDups_cons]

theorem nodup_eraseDups (xs : List κ) : xs.eraseDups.Nodup := by
  induction xs using List.reverseRecOn with
  | nil => exact List.nodup_nil
  | append_singleton xs x ih =>
    rw [eraseDups_append_singleton]
    split
    · exact ih
    · rename_i hx
      rw [← List.concat_eq_append]
      exact ih.concat fun h => hx (List.mem_eraseDups.1 h)

theorem eraseDups_sublist (xs : List κ) : xs.eraseDups.Sublist xs := by
  induction xs using List.reverseRecOn with
  | nil => exact List.Sublist.refl _
  | append_singleton xs x ih =>
    rw [eraseDups_append_singleton]
    split
    · exact ih.trans (List.sublist_append_left xs [x])
    · exact ih.append (List.Sublist.refl [x])

theorem eraseDups_eq_self {xs : List κ} (h : xs.Nodup) : xs.eraseDups = xs := by
  induction xs using List.reverseRecOn with
  | nil => rfl
  | append_singleton xs x ih =>
    obtain ⟨hxs, -, hdisjoint⟩ := List.nodup_append.1 h
    have hx : x ∉ xs := fun hx => hdisjoint x hx x (List.mem_singleton.2 rfl) rfl
    rw [eraseDups_append_singleton, if_neg hx, ih hxs]

/-- Repetitions can be left out of the front first. -/
theorem eraseDups_eraseDups_append (xs ys : List κ) :
    (xs.eraseDups ++ ys).eraseDups = (xs ++ ys).eraseDups := by
  induction ys using List.reverseRecOn with
  | nil => rw [List.append_nil, List.append_nil, eraseDups_eq_self (nodup_eraseDups xs)]
  | append_singleton ys y ih =>
    rw [← List.append_assoc, ← List.append_assoc, eraseDups_append_singleton,
      eraseDups_append_singleton, ih]
    simp only [List.mem_append, List.mem_eraseDups]

namespace OrdMap

/-! ## One map over another -/

theorem keys_insert_eq_eraseDups (m : OrdMap κ α) (k : κ) (v : α) :
    (m.insert k v).keys = (m.keys ++ [k]).eraseDups := by
  rw [keys_insert, eraseDups_append_singleton, eraseDups_eq_self m.nodup_keys]

theorem keys_insertList (m : OrdMap κ α) (es : List (κ × α)) :
    (m.insertList es).keys = (m.keys ++ es.map Prod.fst).eraseDups := by
  induction es generalizing m with
  | nil =>
    rw [List.map_nil, List.append_nil, eraseDups_eq_self m.nodup_keys]
    rfl
  | cons e rest ih =>
    calc (m.insertList (e :: rest)).keys
        = ((m.insert e.1 e.2).insertList rest).keys := rfl
      _ = ((m.keys ++ [e.1]).eraseDups ++ rest.map Prod.fst).eraseDups := by
        rw [ih, keys_insert_eq_eraseDups]
      _ = (m.keys ++ (e :: rest).map Prod.fst).eraseDups := by
        rw [eraseDups_eraseDups_append, List.append_assoc]
        rfl

theorem keys_insertAll (m n : OrdMap κ α) :
    (m.insertAll n).keys = (m.keys ++ n.keys).eraseDups :=
  m.keys_insertList n.entries

theorem get?_insertList {es : List (κ × α)} (hn : (es.map Prod.fst).Nodup) (m : OrdMap κ α)
    (k : κ) : (m.insertList es).get? k = (findEntry k es).or (m.get? k) := by
  induction es generalizing m with
  | nil => rfl
  | cons e rest ih =>
    obtain ⟨he, hrest⟩ := List.nodup_cons.1 hn
    have hstep : (m.insertList (e :: rest)).get? k =
        (findEntry k rest).or ((m.insert e.1 e.2).get? k) := ih hrest (m.insert e.1 e.2)
    rw [hstep, get?_insert, findEntry]
    by_cases hk : e.1 = k
    · have hnone : findEntry k rest = none := (findEntry_eq_none_iff k rest).2 (hk ▸ he)
      rw [if_pos hk, if_pos hk, hnone]
      rfl
    · rw [if_neg hk, if_neg hk]

/-- A key has the value that it has in the later map, if it is there. -/
theorem get?_insertAll (m n : OrdMap κ α) (k : κ) :
    (m.insertAll n).get? k = (n.get? k).or (m.get? k) :=
  get?_insertList n.nodup m k

/-! ## A list of maps over another -/

theorem keys_foldl_insertAll (m : OrdMap κ α) (ns : List (OrdMap κ α)) :
    (ns.foldl insertAll m).keys = (m.keys ++ ns.flatMap keys).eraseDups := by
  induction ns generalizing m with
  | nil => rw [List.flatMap_nil, List.append_nil, eraseDups_eq_self m.nodup_keys, List.foldl_nil]
  | cons n ns ih =>
    rw [List.foldl_cons, ih, keys_insertAll, eraseDups_eraseDups_append, List.append_assoc,
      List.flatMap_cons]

/-- The last map that has a key decides. -/
theorem get?_foldl_insertAll (m : OrdMap κ α) (ns : List (OrdMap κ α)) (k : κ) :
    (ns.foldl insertAll m).get? k = (m :: ns).reverse.findSome? fun n => n.get? k := by
  induction ns using List.reverseRecOn with
  | nil => simp
  | append_singleton ns n ih =>
    rw [List.foldl_append, List.foldl_cons, List.foldl_nil, get?_insertAll, ih,
      ← List.cons_append, List.reverse_append, List.reverse_singleton, List.singleton_append,
      List.findSome?_cons]
    cases n.get? k <;> rfl

end OrdMap

end DotBuilder
