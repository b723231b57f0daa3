/-!
# Registries

A `Registry κ α` holds one record for every identifier: identifiers that were never written hold
the record of the registry they were made from.  Two registries with the same records are equal,
so writes to different identifiers commute as an equation between registries.
-/

namespace DotBuilder

/-- One record for every identifier. -/
@[ext]
structure Registry (κ α : Type) where
  /-- The record held for an identifier. -/
  get : κ → α

namespace Registry

variable {κ α : Type} [DecidableEq κ]

/-- The registry that holds `a` everywhere. -/
def const (a : α) : Registry κ α := ⟨fun _ => a⟩

/-- Writes the record of one identifier. -/
def set (r : Registry κ α) (k : κ) (a : α) : Registry κ α :=
  ⟨fun j => if j = k then a else r.get j⟩

/-- Replaces the record of one identifier by what `f` makes of it. -/
def modify (r : Registry κ α) (k : κ) (f : α → α) : Registry κ α := r.set k (f (r.get k))

/-! ## Laws -/

theorem get_set (r : Registry κ α) (k j : κ) (a : α) :
    (r.set k a).get j = if j = k then a else r.get j := rfl

theorem get_set_self (r : Registry κ α) (k : κ) (a : α) : (r.set k a).get k = a := by
  simp [get_set]

theorem get_set_of_ne (r : Registry κ α) {k j : κ} (a : α) (h : j ≠ k) :
    (r.set k a).get j = r.get j := by
  simp [get_set, h]

theorem set_get (r : Registry κ α) (k : κ) : r.set k (r.get k) = r := by
  ext j
  by_cases h : j = k <;> simp [get_set, h]

theorem set_set (r : Registry κ α) (k : κ) (a b : α) : (r.set k a).set k b = r.set k b := by
  ext j
  by_cases h : j = k <;> simp [get_set, h]

theorem set_comm (r : Registry κ α) {k j : κ} (a b : α) (h : k ≠ j) :
    (r.set k a).set j b = (r.set j b).set k a := by
  ext i
  by_cases hk : i = k
  · have hj : i ≠ j := fun hj => h (hk ▸ hj)
    simp [get_set, hk, h]
  · simp [get_set, hk]

theorem get_modify (r : Registry κ α) (k j : κ) (f : α → α) :
    (r.modify k f).get j = if j = k then f (r.get k) else r.get j := rfl

theorem modify_modify (r : Registry κ α) (k : κ) (f h : α → α) :
    (r.modify k f).modify k h = r.modify k fun a => h (f a) := by
  rw [modify, get_modify, if_pos rfl, modify, set_set, modify]

end Registry

end DotBuilder
