/-!
# Maps in order of first insertion

An `OrdMap κ α` binds keys to values and remembers the order in which the keys were first bound.
Binding a key again changes its value and keeps its place; erasing a key and binding it again
moves it to the end.  The type carries the proof that no key occurs twice.

The operations are defined on lists of pairs (`putEntry`, `findEntry`, `dropEntry`) and lifted.
-/

namespace DotBuilder

variable {κ α β : Type} [DecidableEq κ]

/-! ## Lists of pairs -/

/-- Binds `k` to `v` where `k` stands, or at the end. -/
def putEntry (k : κ) (v : α) : List (κ × α) → List (κ × α)
  | [] => [(k, v)]
  | e :: rest => if e.1 = k then (k, v) :: rest else e :: putEntry k v rest

/-- The value of the first pair with key `k`. -/
def findEntry (k : κ) : List (κ × α) → Option α
  | [] => none
  | e :: rest => if e.1 = k then some e.2 else findEntry k rest

/-- All pairs but those with key `k`. -/
def dropEntry (k : κ) (es : List (κ × α)) : List (κ × α) :=
  es.filter fun e => decide (e.1 ≠ k)

theorem map_fst_putEntry (k : κ) (v : α) (es : List (κ × α)) :
    (putEntry k v es).map Prod.fst =
      if k ∈ es.map Prod.fst then es.map Prod.fst else es.map Prod.fst ++ [k] := by
  induction es with
  | nil => simp [putEntry]
  | cons e rest ih =>
    by_cases h : e.1 = k
    · simp [putEntry, h]
    · have h' : ¬ k = e.1 := fun hk => h hk.symm
      simp only [putEntry, if_neg h, List.map_cons, ih, List.mem_cons, h', false_or]
      split <;> rfl

theorem nodup_putEntry (k : κ) (v : α) {es : List (κ × α)} (h : (es.map Prod.fst).Nodup) :
    ((putEntry k v es).map Prod.fst).Nodup := by
  rw [map_fst_putEntry]
  split
  · exact h
  · rename_i hk
    refine List.nodup_append.2 ⟨h, by simp, ?_⟩
    intro a ha b hb
    have : b = k := by simpa using hb
    exact fun hab => hk (this ▸ hab ▸ ha)

theorem nodup_dropEntry (k : κ) {es : List (κ × α)} (h : (es.map Prod.fst).Nodup) :
    ((dropEntry k es).map Prod.fst).Nodup :=
  h.sublist (List.filter_sublist.map Prod.fst)

/-! ## The map type -/

/-- A map whose bindings are listed in the order in which their keys were first bound. -/
structure OrdMap (κ α : Type) where
  /-- The bindings, oldest key first. -/
  entries : List (κ × α)
  /-- No key is listed twice. -/
  nodup : (entries.map Prod.fst).Nodup

namespace OrdMap

/-- The map without bindings. -/
def empty : OrdMap κ α := ⟨[], List.nodup_nil⟩

/-- Binds `k` to `v`: in place if `k` is bound already, else at the end. -/
def insert (m : OrdMap κ α) (k : κ) (v : α) : OrdMap κ α :=
  ⟨putEntry k v m.entries, nodup_putEntry k v m.nodup⟩

/-- Takes the binding of `k` away, if there is one. -/
def erase (m : OrdMap κ α) (k : κ) : OrdMap κ α :=
  ⟨dropEntry k m.entries, nodup_dropEntry k m.nodup⟩

/-- The value bound to `k`. -/
def get? (m : OrdMap κ α) (k : κ) : Option α := findEntry k m.entries

/-- Whether `k` is bound. -/
def contains (m : OrdMap κ α) (k : κ) : Bool := (m.get? k).isSome

/-- The keys in order of first binding. -/
def keys (m : OrdMap κ α) : List κ := m.entries.map Prod.fst

/-- The values in the order of their keys. -/
def values (m : OrdMap κ α) : List α := m.entries.map Prod.snd

/-- The number of bindings. -/
def size (m : OrdMap κ α) : Nat := m.entries.length

/-- Binds each pair of a list in turn. -/
def insertList (m : OrdMap κ α) (es : List (κ × α)) : OrdMap κ α :=
  es.foldl (fun acc e => acc.insert e.1 e.2) m

/-- Binds every key of `n` as `n` does, in the order of `n`. -/
def insertAll (m n : OrdMap κ α) : OrdMap κ α := m.insertList n.entries

/-- The map of a list of pairs; of two pairs with one key the later value stays. -/
def ofList (es : List (κ × α)) : OrdMap κ α := empty.insertList es

end OrdMap

end DotBuilder
