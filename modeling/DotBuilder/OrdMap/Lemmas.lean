import DotBuilder.OrdMap.Basic

/-!
# Laws of maps in insertion order

What each operation does to the two views of a map: the bindings found by `get?` and the order
given by `keys`.

* `get?_insert`, `keys_insert` : the last value bound to a key is found, and the key keeps its
  place or comes last;
* `entries_insert_of_eq`, `entries_insert_of_notMem`, `entries_insertList_of_notMem` : so no other
  binding is moved;
* `get?_erase`, `keys_erase`, `entries_erase_of_eq`, `entries_erase_of_notMem` : an erased key is
  gone and the others keep their order;
* `mem_keys_iff`, `mem_values_iff`, `mem_entries_iff` : the views agree;
* `eq_or_mem_of_mem_values_insert`, `mem_of_mem_values_erase` : no other value comes in;
* `get?_ofList` : a map made from a list has the last value that the list has for a key;
* `Injective` : no value is bound to two keys, as long as only new values are bound;
* `map`, `get?_map`, `map_insert`, `map_erase` : a function on the values leaves the keys alone;
* `ext_entries` : a map is its list of bindings.
-/

namespace DotBuilder

variable {κ α : Type}

/-! ## Views -/

namespace OrdMap

theorem ext_entries {m n : OrdMap κ α} (h : m.entries = n.entries) : m = n := by
  cases m; cases n; cases h; rfl

theorem nodup_keys (m : OrdMap κ α) : m.keys.Nodup := m.nodup

/-! ## Functions on values -/

section Map

variable {β γ : Type}

/-- The map with every value changed by a function. -/
def map (f : α → β) (m : OrdMap κ α) : OrdMap κ β where
  entries := m.entries.map fun e => (e.1, f e.2)
  nodup := by
    rw [List.map_map]
    exact m.nodup

theorem keys_map (f : α → β) (m : OrdMap κ α) : (m.map f).keys = m.keys :=
  List.map_map ..

theorem values_map (f : α → β) (m : OrdMap κ α) : (m.map f).values = m.values.map f := by
  unfold values map
  rw [List.map_map, List.map_map]
  rfl

theorem map_id' (m : OrdMap κ α) : m.map (fun v => v) = m :=
  ext_entries (List.map_id' _)

theorem map_map (f : α → β) (h : β → γ) (m : OrdMap κ α) :
    (m.map f).map h = m.map fun v => h (f v) :=
  ext_entries (List.map_map ..)

theorem map_congr {f h : α → β} {m : OrdMap κ α} (hfh : ∀ v ∈ m.values, f v = h v) :
    m.map f = m.map h := by
  refine ext_entries (List.map_congr_left fun e he => ?_)
  rw [hfh e.2 (List.mem_map_of_mem (f := Prod.snd) he)]

end Map

end OrdMap

variable [DecidableEq κ]

/-! ## Lists of pairs -/

theorem findEntry_putEntry (k j : κ) (v : α) (es : List (κ × α)) :
    findEntry j (putEntry k v es) = if k = j then some v else findEntry j es := by
  induction es with
  | nil => simp [putEntry, findEntry]
  | cons e rest ih =>
    by_cases hk : e.1 = k
    · by_cases hj : k = j <;> simp [putEntry, findEntry, hk, hj]
    · by_cases hj : e.1 = j
      · have : k ≠ j := fun h => hk (hj.trans h.symm)
        rw [putEntry, if_neg hk, findEntry, if_pos hj, if_neg this, findEntry, if_pos hj]
      · simp [putEntry, findEntry, hk, hj, ih]

theorem findEntry_dropEntry (k j : κ) (es : List (κ × α)) :
    findEntry j (dropEntry k es) = if k = j then none else findEntry j es := by
  induction es with
  | nil => simp [dropEntry, findEntry]
  | cons e rest ih =>
    by_cases hk : e.1 = k
    · by_cases hj : k = j
      · simpa [dropEntry, hk, hj, findEntry] using ih
      · simpa [dropEntry, hk, hj, findEntry] using ih
    · have hd : dropEntry k (e :: rest) = e :: dropEntry k rest := by simp [dropEntry, hk]
      rw [hd]
      by_cases hj : e.1 = j
      · have : k ≠ j := fun h => hk (hj.trans h.symm)
        simp [findEntry, hj, this]
      · simp [findEntry, hj, ih]

theorem findEntry_eq_none_iff (k : κ) (es : List (κ × α)) :
    findEntry k es = none ↔ k ∉ es.map Prod.fst := by
  induction es with
  | nil => simp [findEntry]
  | cons e rest ih =>
    by_cases h : e.1 = k
    · simp [findEntry, h]
    · have h' : ¬ k = e.1 := fun hk => h hk.symm
      simp only [findEntry, if_neg h, ih, List.map_cons, List.mem_cons, h', false_or]

theorem mem_of_findEntry {k : κ} {v : α} {es : List (κ × α)} (h : findEntry k es = some v) :
    (k, v) ∈ es := by
  induction es with
  | nil => simp [findEntry] at h
  | cons e rest ih =>
    by_cases hk : e.1 = k
    · have hv : e.2 = v := by simpa [findEntry, hk] using h
      have : e = (k, v) := Prod.ext hk hv
      simp [this]
    · have : findEntry k rest = some v := by simpa [findEntry, hk] using h
      exact List.mem_cons_of_mem _ (ih this)

theorem findEntry_of_mem {k : κ} {v : α} {es : List (κ × α)} (hn : (es.map Prod.fst).Nodup)
    (h : (k, v) ∈ es) : findEntry k es = some v := by
  induction es with
  | nil => simp at h
  | cons e rest ih =>
    rw [List.map_cons, List.nodup_cons] at hn
    rcases List.mem_cons.1 h with rfl | hr
    · simp [findEntry]
    · have hk : e.1 ≠ k := fun he =>
        hn.1 (he ▸ List.mem_map_of_mem (f := Prod.fst) hr)
      simp [findEntry, hk, ih hn.2 hr]

theorem findEntry_map {β : Type} (f : α → β) (k : κ) (es : List (κ × α)) :
    findEntry k (es.map fun e => (e.1, f e.2)) = (findEntry k es).map f := by
  induction es with
  | nil => rfl
  | cons e rest ih => by_cases h : e.1 = k <;> simp [findEntry, h, ih]

theorem putEntry_map {β : Type} (f : α → β) (k : κ) (v : α) (es : List (κ × α)) :
    putEntry k (f v) (es.map fun e => (e.1, f e.2)) =
      (putEntry k v es).map fun e => (e.1, f e.2) := by
  induction es with
  | nil => rfl
  | cons e rest ih => by_cases h : e.1 = k <;> simp [putEntry, h, ih]

/-- A key that stands in a list keeps its place. -/
theorem putEntry_append_cons {k : κ} {before : List (κ × α)} (hk : k ∉ before.map Prod.fst)
    (u v : α) (after : List (κ × α)) :
    putEntry k v (before ++ (k, u) :: after) = before ++ (k, v) :: after := by
  induction before with
  | nil => rw [List.nil_append, List.nil_append, putEntry, if_pos rfl]
  | cons e before ih =>
    rw [List.map_cons, List.mem_cons, not_or] at hk
    rw [List.cons_append, List.cons_append, putEntry, if_neg fun h => hk.1 h.symm, ih hk.2]

/-- Of two values that a key is bound to in turn the second one stays. -/
theorem putEntry_putEntry (k : κ) (u v : α) (es : List (κ × α)) :
    putEntry k v (putEntry k u es) = putEntry k v es := by
  induction es with
  | nil => simp [putEntry]
  | cons e rest ih => by_cases h : e.1 = k <;> simp [putEntry, h, ih]

/-- Another key comes last. -/
theorem putEntry_of_notMem {k : κ} {es : List (κ × α)} (hk : k ∉ es.map Prod.fst) (v : α) :
    putEntry k v es = es ++ [(k, v)] := by
  induction es with
  | nil => rfl
  | cons e es ih =>
    rw [List.map_cons, List.mem_cons, not_or] at hk
    rw [List.cons_append, putEntry, if_neg fun h => hk.1 h.symm, ih hk.2]

theorem dropEntry_of_notMem {k : κ} {es : List (κ × α)} (hk : k ∉ es.map Prod.fst) :
    dropEntry k es = es := by
  refine List.filter_eq_self.2 fun e he => decide_eq_true ?_
  rintro rfl
  exact hk (List.mem_map_of_mem he)

namespace OrdMap

/-! ## Agreement of the views -/

theorem get?_eq_none_iff (m : OrdMap κ α) (k : κ) : m.get? k = none ↔ k ∉ m.keys :=
  findEntry_eq_none_iff k m.entries

theorem mem_keys_iff (m : OrdMap κ α) (k : κ) : k ∈ m.keys ↔ ∃ v, m.get? k = some v := by
  rw [← Option.isSome_iff_exists, ← Option.ne_none_iff_isSome, ne_eq, get?_eq_none_iff,
    Decidable.not_not]

theorem mem_entries_iff (m : OrdMap κ α) (k : κ) (v : α) :
    (k, v) ∈ m.entries ↔ m.get? k = some v :=
  ⟨findEntry_of_mem m.nodup, mem_of_findEntry⟩

theorem contains_iff (m : OrdMap κ α) (k : κ) : m.contains k = true ↔ k ∈ m.keys := by
  rw [mem_keys_iff, contains, Option.isSome_iff_exists]

theorem mem_values_iff {m : OrdMap κ α} {v : α} : v ∈ m.values ↔ ∃ k, m.get? k = some v := by
  unfold values
  rw [List.mem_map]
  constructor
  · rintro ⟨⟨k, v⟩, h, rfl⟩
    exact ⟨k, (m.mem_entries_iff k v).1 h⟩
  · rintro ⟨k, h⟩
    exact ⟨(k, v), (m.mem_entries_iff k v).2 h, rfl⟩

/-! ## Binding and erasing -/

theorem get?_empty (k : κ) : (empty : OrdMap κ α).get? k = none := rfl

theorem get?_insert (m : OrdMap κ α) (k j : κ) (v : α) :
    (m.insert k v).get? j = if k = j then some v else m.get? j :=
  findEntry_putEntry k j v m.entries

theorem keys_insert (m : OrdMap κ α) (k : κ) (v : α) :
    (m.insert k v).keys = if k ∈ m.keys then m.keys else m.keys ++ [k] :=
  map_fst_putEntry k v m.entries

/-- A key that is bound already is bound anew in its place. -/
theorem entries_insert_of_eq {m : OrdMap κ α} {k : κ} {u : α} {before after : List (κ × α)}
    (h : m.entries = before ++ (k, u) :: after) (v : α) :
    (m.insert k v).entries = before ++ (k, v) :: after := by
  have hn := m.nodup
  rw [h, List.map_append, List.map_cons] at hn
  have hk : k ∉ before.map Prod.fst := fun hk =>
    (List.nodup_append.1 hn).2.2 k hk k (List.mem_cons_self ..) rfl
  show putEntry k v m.entries = _
  rw [h, putEntry_append_cons hk]

/-- A key that is not bound yet comes last. -/
theorem entries_insert_of_notMem {m : OrdMap κ α} {k : κ} (h : k ∉ m.keys) (v : α) :
    (m.insert k v).entries = m.entries ++ [(k, v)] :=
  putEntry_of_notMem h v

theorem insert_insert (m : OrdMap κ α) (k : κ) (u v : α) :
    (m.insert k u).insert k v = m.insert k v :=
  ext_entries (putEntry_putEntry k u v m.entries)

/-- Binding a key to what it is bound to changes nothing. -/
theorem insert_of_get? {m : OrdMap κ α} {k : κ} {v : α} (h : m.get? k = some v) :
    m.insert k v = m := by
  obtain ⟨before, after, hm⟩ := List.append_of_mem ((m.mem_entries_iff k v).2 h)
  exact ext_entries ((entries_insert_of_eq hm v).trans hm.symm)

theorem get?_erase (m : OrdMap κ α) (k j : κ) :
    (m.erase k).get? j = if k = j then none else m.get? j :=
  findEntry_dropEntry k j m.entries

theorem keys_erase (m : OrdMap κ α) (k : κ) :
    (m.erase k).keys = m.keys.filter fun j => decide (j ≠ k) := by
  simp only [keys, erase, dropEntry, List.filter_map]
  rfl

/-- A key that is not bound is erased without a trace. -/
theorem entries_erase_of_notMem {m : OrdMap κ α} {k : κ} (h : k ∉ m.keys) :
    (m.erase k).entries = m.entries :=
  dropEntry_of_notMem h

/-- A key that is bound leaves what stands before and after it. -/
theorem entries_erase_of_eq {m : OrdMap κ α} {k : κ} {u : α} {before after : List (κ × α)}
    (h : m.entries = before ++ (k, u) :: after) : (m.erase k).entries = before ++ after := by
  have hn := m.nodup
  rw [h, List.map_append, List.map_cons, List.nodup_append, List.nodup_cons] at hn
  obtain ⟨-, ⟨hafter, -⟩, hdisjoint⟩ := hn
  have hbefore : k ∉ before.map Prod.fst := fun hk =>
    hdisjoint k hk k (List.mem_cons_self ..) rfl
  show dropEntry k m.entries = _
  rw [h, dropEntry, List.filter_append, List.filter_cons_of_neg (by simp)]
  show dropEntry k before ++ dropEntry k after = _
  rw [dropEntry_of_notMem hbefore, dropEntry_of_notMem hafter]

theorem eq_or_mem_of_mem_values_insert {m : OrdMap κ α} {k : κ} {u v : α}
    (h : u ∈ (m.insert k v).values) : u = v ∨ u ∈ m.values := by
  obtain ⟨j, hj⟩ := mem_values_iff.1 h
  rw [get?_insert] at hj
  by_cases hk : k = j
  · rw [if_pos hk] at hj
    exact .inl (Option.some.inj hj).symm
  · rw [if_neg hk] at hj
    exact .inr (mem_values_iff.2 ⟨j, hj⟩)

theorem mem_of_mem_values_erase {m : OrdMap κ α} {k : κ} {u : α} (h : u ∈ (m.erase k).values) :
    u ∈ m.values := by
  obtain ⟨j, hj⟩ := mem_values_iff.1 h
  rw [get?_erase] at hj
  by_cases hk : k = j
  · rw [if_pos hk] at hj
    cases hj
  · rw [if_neg hk] at hj
    exact mem_values_iff.2 ⟨j, hj⟩

/-- No value is bound to two keys. -/
def Injective (m : OrdMap κ α) : Prop :=
  ∀ j k v, m.get? j = some v → m.get? k = some v → j = k

theorem injective_empty : (empty : OrdMap κ α).Injective := by
  intro j k v hj
  rw [get?_empty] at hj
  cases hj

namespace Injective

variable {m : OrdMap κ α} {key : κ} {u : α}

theorem insert (hm : m.Injective) (hu : u ∉ m.values) : (m.insert key u).Injective := by
  have hnew : ∀ k, m.get? k ≠ some u := fun k hk => hu (mem_values_iff.2 ⟨k, hk⟩)
  intro j k v hj hk
  rw [get?_insert] at hj hk
  by_cases hkj : key = j
  · rw [if_pos hkj] at hj
    obtain rfl : u = v := Option.some.inj hj
    by_cases hkk : key = k
    · exact hkj.symm.trans hkk
    · rw [if_neg hkk] at hk
      exact absurd hk (hnew k)
  · rw [if_neg hkj] at hj
    by_cases hkk : key = k
    · rw [if_pos hkk] at hk
      obtain rfl : u = v := Option.some.inj hk
      exact absurd hj (hnew j)
    · rw [if_neg hkk] at hk
      exact hm j k v hj hk

theorem erase (hm : m.Injective) : (m.erase key).Injective := by
  have hold : ∀ k v, (m.erase key).get? k = some v → m.get? k = some v := by
    intro k v hk
    rw [get?_erase] at hk
    by_cases h : key = k
    · rw [if_pos h] at hk
      cases hk
    · rwa [if_neg h] at hk
  intro j k v hj hk
  exact hm j k v (hold j v hj) (hold k v hk)

end Injective

theorem mem_keys_insertList {m : OrdMap κ α} {es : List (κ × α)} {k : κ} :
    k ∈ (m.insertList es).keys ↔ k ∈ m.keys ∨ k ∈ es.map Prod.fst := by
  induction es generalizing m with
  | nil => simp [insertList]
  | cons e rest ih =>
    have hstep : m.insertList (e :: rest) = (m.insert e.1 e.2).insertList rest := rfl
    have hinsert : k ∈ (m.insert e.1 e.2).keys ↔ k ∈ m.keys ∨ k = e.1 := by
      rw [keys_insert]
      by_cases he : e.1 ∈ m.keys
      · rw [if_pos he]
        constructor
        · exact .inl
        · rintro (h | rfl)
          · exact h
          · exact he
      · rw [if_neg he, List.mem_append, List.mem_singleton]
    rw [hstep, ih, hinsert, List.map_cons, List.mem_cons, or_assoc]

/-- Keys that are not bound yet come last, in the order of the list. -/
theorem entries_insertList_of_notMem {m : OrdMap κ α} {es : List (κ × α)}
    (hn : (es.map Prod.fst).Nodup) (hm : ∀ k ∈ es.map Prod.fst, k ∉ m.keys) :
    (m.insertList es).entries = m.entries ++ es := by
  induction es generalizing m with
  | nil => exact (List.append_nil _).symm
  | cons e rest ih =>
    obtain ⟨he, hrest⟩ := List.nodup_cons.1 hn
    have hfirst : e.1 ∉ m.keys := hm e.1 (List.mem_cons_self ..)
    have hother : ∀ k ∈ rest.map Prod.fst, k ∉ (m.insert e.1 e.2).keys := by
      intro k hk
      rw [keys_insert, if_neg hfirst, List.mem_append, List.mem_singleton]
      rintro (h | rfl)
      · exact hm k (List.mem_cons_of_mem _ hk) h
      · exact he hk
    calc (m.insertList (e :: rest)).entries
        = ((m.insert e.1 e.2).insertList rest).entries := rfl
      _ = (m.insert e.1 e.2).entries ++ rest := ih hrest hother
      _ = m.entries ++ e :: rest := by
        rw [entries_insert_of_notMem hfirst, List.append_assoc, List.singleton_append]

/-- The value of a key in a list of bindings is the last one that it has there. -/
theorem get?_ofList (es : List (κ × α)) (k : κ) :
    (ofList es).get? k = (es.reverse.find? fun e => decide (e.1 = k)).map Prod.snd := by
  induction h : es.reverse generalizing es with
  | nil =>
    obtain rfl : es = [] := List.reverse_eq_nil_iff.1 h
    rfl
  | cons e rest ih =>
    obtain rfl : es = rest.reverse ++ [e] := by
      rw [← List.reverse_reverse es, h, List.reverse_cons]
    have hinsert : ofList (rest.reverse ++ [e]) = (ofList rest.reverse).insert e.1 e.2 := by
      rw [ofList, insertList, List.foldl_append]
      rfl
    rw [hinsert, get?_insert, List.find?_cons]
    by_cases he : e.1 = k
    · rw [if_pos he, decide_eq_true he]
      rfl
    · rw [if_neg he, decide_eq_false he, ih _ (List.reverse_reverse rest)]

/-- The keys of two maps together. -/
theorem mem_keys_insertAll {m n : OrdMap κ α} {k : κ} :
    k ∈ (m.insertAll n).keys ↔ k ∈ m.keys ∨ k ∈ n.keys :=
  mem_keys_insertList

/-! ## Functions on values -/

theorem get?_map {β : Type} (f : α → β) (m : OrdMap κ α) (k : κ) :
    (m.map f).get? k = (m.get? k).map f :=
  findEntry_map f k m.entries

theorem map_insert {β : Type} (f : α → β) (m : OrdMap κ α) (k : κ) (v : α) :
    (m.insert k v).map f = (m.map f).insert k (f v) :=
  ext_entries (putEntry_map f k v m.entries).symm

theorem map_erase {β : Type} (f : α → β) (m : OrdMap κ α) (k : κ) :
    (m.erase k).map f = (m.map f).erase k := by
  refine ext_entries ?_
  show (dropEntry k m.entries).map _ = dropEntry k (m.entries.map _)
  unfold dropEntry
  rw [List.filter_map]
  rfl

end OrdMap

end DotBuilder
