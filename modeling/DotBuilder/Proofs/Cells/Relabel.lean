import DotBuilder.Proofs.Cells.Owned
import Mathlib.Algebra.Group.Action.Basic
import Mathlib.Algebra.Group.Pi.Basic
import Mathlib.Algebra.Group.End

/-!
# Other identifiers

Graphs and what is made on its own are numbered in the order in which they are made, so that the
same things have other identifiers when they are made in another order.  A `Relabel` gives the
things of each series other numbers; what a graph makes keeps its number within the graph.

* `Relabel` : it acts on identifiers, on cells, and on what cells hold;
* `Matches` : a cell of one workspace holds what a cell of another does, under other identifiers;
* `Matches.writeAll` : cells that match do so after writes that match.
-/

namespace DotBuilder

/-- Other numbers for the things of each series. -/
def Relabel : Type := Series → Equiv.Perm Nat

namespace Relabel

instance : Group Relabel := inferInstanceAs (Group (Series → Equiv.Perm Nat))

theorem mul_apply (σ τ : Relabel) (s : Series) (i : Nat) : (σ * τ) s i = σ s (τ s i) := rfl

end Relabel

variable {σ τ : Relabel}

/-! ## Identifiers -/

instance : MulAction Relabel GraphId where
  smul σ g := ⟨σ .graphs g.serial⟩
  one_smul _ := rfl
  mul_smul _ _ _ := rfl

/-- The origin of a thing that is numbered in a series unless a graph makes it. -/
def Origin.relabel (σ : Relabel) (s : Series) : Origin → Origin
  | graph g serial => graph (σ • g) serial
  | loose serial => loose (σ s serial)

theorem Origin.relabel_one (s : Series) (o : Origin) : o.relabel 1 s = o := by cases o <;> rfl

theorem Origin.relabel_mul (σ τ : Relabel) (s : Series) (o : Origin) :
    o.relabel (σ * τ) s = (o.relabel τ s).relabel σ s := by
  cases o <;> rfl

instance : MulAction Relabel PlainId where
  smul σ p := ⟨p.origin.relabel σ .plain⟩
  one_smul p := congrArg PlainId.mk (p.origin.relabel_one .plain)
  mul_smul σ τ p := congrArg PlainId.mk (p.origin.relabel_mul σ τ .plain)

instance : MulAction Relabel HtmlId where
  smul σ h := ⟨h.origin.relabel σ .html⟩
  one_smul h := congrArg HtmlId.mk (h.origin.relabel_one .html)
  mul_smul σ τ h := congrArg HtmlId.mk (h.origin.relabel_mul σ τ .html)

instance : MulAction Relabel EdgeId where
  smul σ e := ⟨e.origin.relabel σ .edges⟩
  one_smul e := congrArg EdgeId.mk (e.origin.relabel_one .edges)
  mul_smul σ τ e := congrArg EdgeId.mk (e.origin.relabel_mul σ τ .edges)

/-- A node under another identifier. -/
def NodeId.relabel (σ : Relabel) : NodeId → NodeId
  | plain p => plain (σ • p)
  | html h => html (σ • h)

instance : MulAction Relabel NodeId where
  smul := NodeId.relabel
  one_smul n := by
    cases n with
    | plain p => exact congrArg NodeId.plain (one_smul Relabel p)
    | html h => exact congrArg NodeId.html (one_smul Relabel h)
  mul_smul σ τ n := by
    cases n with
    | plain p => exact congrArg NodeId.plain (mul_smul σ τ p)
    | html h => exact congrArg NodeId.html (mul_smul σ τ h)

/-- An attribute set under another identifier. -/
def SetId.relabel (σ : Relabel) : SetId → SetId
  | defaults g scope => defaults (σ • g) scope
  | node n => node (σ • n)
  | edge e => edge (σ • e)
  | loose serial => loose (σ .sets serial)

instance : MulAction Relabel SetId where
  smul := SetId.relabel
  one_smul s := by
    cases s with
    | node n => exact congrArg SetId.node (one_smul Relabel n)
    | edge e => exact congrArg SetId.edge (one_smul Relabel e)
    | _ => rfl
  mul_smul σ τ s := by
    cases s with
    | node n => exact congrArg SetId.node (mul_smul σ τ n)
    | edge e => exact congrArg SetId.edge (mul_smul σ τ e)
    | _ => rfl

/-- A thing under another identifier. -/
def Object.relabel (σ : Relabel) : Object → Object
  | graph g => graph (σ • g)
  | node n => node (σ • n)
  | edge e => edge (σ • e)
  | set s => set (σ • s)

instance : MulAction Relabel Object where
  smul := Object.relabel
  one_smul o := by
    cases o with
    | graph g => rfl
    | node n => exact congrArg Object.node (one_smul Relabel n)
    | edge e => exact congrArg Object.edge (one_smul Relabel e)
    | set s => exact congrArg Object.set (one_smul Relabel s)
  mul_smul σ τ o := by
    cases o with
    | graph g => rfl
    | node n => exact congrArg Object.node (mul_smul σ τ n)
    | edge e => exact congrArg Object.edge (mul_smul σ τ e)
    | set s => exact congrArg Object.set (mul_smul σ τ s)

theorem SetId.maker_smul (σ : Relabel) (s : SetId) : (σ • s).maker = σ • s.maker := by
  cases s <;> rfl

/-! ## Cells -/

/-- A cell of a thing under another identifier. -/
def Cell.relabel (σ : Relabel) : Cell → Cell
  | head g => head (σ • g)
  | parent g => parent (σ • g)
  | clusters g => clusters (σ • g)
  | plainNodes g => plainNodes (σ • g)
  | htmlNodes g => htmlNodes (σ • g)
  | edges g => edges (σ • g)
  | node n => node (σ • n)
  | table h => table (σ • h)
  | ends e => ends (σ • e)
  | port e side => port (σ • e) side
  | rules s => rules (σ • s)
  | entries s => entries (σ • s)

instance : MulAction Relabel Cell where
  smul := Cell.relabel
  one_smul k := by
    cases k with
    | node n => exact congrArg Cell.node (one_smul Relabel n)
    | table h => exact congrArg Cell.table (one_smul Relabel h)
    | ends e => exact congrArg Cell.ends (one_smul Relabel e)
    | port e side => exact congrArg (Cell.port · side) (one_smul Relabel e)
    | rules s => exact congrArg Cell.rules (one_smul Relabel s)
    | entries s => exact congrArg Cell.entries (one_smul Relabel s)
    | _ => rfl
  mul_smul σ τ k := by
    cases k with
    | node n => exact congrArg Cell.node (mul_smul σ τ n)
    | table h => exact congrArg Cell.table (mul_smul σ τ h)
    | ends e => exact congrArg Cell.ends (mul_smul σ τ e)
    | port e side => exact congrArg (Cell.port · side) (mul_smul σ τ e)
    | rules s => exact congrArg Cell.rules (mul_smul σ τ s)
    | entries s => exact congrArg Cell.entries (mul_smul σ τ s)
    | _ => rfl

theorem Cell.owner_smul (σ : Relabel) (k : Cell) : (σ • k).owner = σ • k.owner := by
  cases k with
  | rules s | entries s => exact s.maker_smul σ
  | _ => rfl

/-- What a cell holds, under other identifiers. -/
def Cell.carry (σ : Relabel) : (k : Cell) → k.Content → (σ • k).Content
  | head _, v => v
  | parent _, v => v.map fun p => σ • p
  | clusters _, v => v.map fun c => σ • c
  | plainNodes _, v => (v.1.map fun p => σ • p, v.2)
  | htmlNodes _, v => (v.1.map fun h => σ • h, v.2)
  | edges _, v => (v.1.map fun e => σ • e, v.2)
  | node _, v => ⟨v.name, σ • v.attributes⟩
  | table _, v => v
  | ends _, v => (σ • v.1, σ • v.2.1, σ • v.2.2)
  | port .., v => v
  | rules _, v => v
  | entries _, v => v

/-- A write under other identifiers. -/
def Write.relabel (σ : Relabel) (x : Write) : Write := ⟨σ • x.cell, x.cell.carry σ x.value⟩

/-- The things that a cell refers to if it holds something. -/
def Cell.refers : (k : Cell) → k.Content → List Object
  | parent _, v => v.toList.map .graph
  | clusters _, v => v.values.map .graph
  | plainNodes _, v => v.1.values.map fun p => .node (.plain p)
  | htmlNodes _, v => v.1.values.map fun h => .node (.html h)
  | edges _, v => v.1.map .edge
  | node _, v => [.set v.attributes]
  | ends _, v => [.graph v.1, .node v.2.1, .node v.2.2]
  | _, _ => []

/-- What a cell holds is the same if it refers to nothing that has another identifier. -/
theorem Cell.carry_eq_self (k : Cell) (v : k.Content) (h : ∀ o ∈ k.refers v, σ • o = o) :
    HEq (k.carry σ v) v := by
  cases k with
  | parent g =>
    refine heq_of_eq ?_
    cases v with
    | none => rfl
    | some p => exact congrArg some (Object.graph.inj (h (.graph p) (List.mem_cons_self ..)))
  | clusters g =>
    have hv : ∀ c ∈ v.values, σ • c = c := fun c hc =>
      Object.graph.inj (h (.graph c) (List.mem_map_of_mem hc))
    exact heq_of_eq ((OrdMap.map_congr hv).trans v.map_id')
  | plainNodes g =>
    have hv : ∀ p ∈ v.1.values, σ • p = p := fun p hp =>
      NodeId.plain.inj (Object.node.inj (h (.node (.plain p)) (List.mem_map_of_mem hp)))
    exact heq_of_eq (Prod.ext ((OrdMap.map_congr hv).trans v.1.map_id') rfl)
  | htmlNodes g =>
    have hv : ∀ p ∈ v.1.values, σ • p = p := fun p hp =>
      NodeId.html.inj (Object.node.inj (h (.node (.html p)) (List.mem_map_of_mem hp)))
    exact heq_of_eq (Prod.ext ((OrdMap.map_congr hv).trans v.1.map_id') rfl)
  | edges g =>
    have hv : ∀ e ∈ v.1, σ • e = e := fun e he =>
      Object.edge.inj (h (.edge e) (List.mem_map_of_mem he))
    exact heq_of_eq (Prod.ext ((List.map_congr_left hv).trans (List.map_id' v.1)) rfl)
  | node n =>
    have hv : σ • v.attributes = v.attributes :=
      Object.set.inj (h (.set v.attributes) (List.mem_cons_self ..))
    exact heq_of_eq (congrArg (Node.mk v.name) hv)
  | ends e =>
    have hg : σ • v.1 = v.1 := Object.graph.inj (h (.graph v.1) (by simp [refers]))
    have hs : σ • v.2.1 = v.2.1 := Object.node.inj (h (.node v.2.1) (by simp [refers]))
    have ht : σ • v.2.2 = v.2.2 := Object.node.inj (h (.node v.2.2) (by simp [refers]))
    exact heq_of_eq (Prod.ext hg (Prod.ext hs ht))
  | _ => rfl

theorem Cell.carry_mul (σ τ : Relabel) (k : Cell) (v : k.Content) :
    HEq (k.carry (σ * τ) v) ((τ • k).carry σ (k.carry τ v)) := by
  cases k with
  | parent g => exact heq_of_eq (Option.map_map (fun p : GraphId => σ • p) (fun p => τ • p) v).symm
  | clusters g =>
    exact heq_of_eq ((OrdMap.map_congr fun c _ => mul_smul σ τ c).trans (OrdMap.map_map ..).symm)
  | plainNodes g =>
    refine heq_of_eq (Prod.ext ?_ rfl)
    exact (OrdMap.map_congr fun p _ => mul_smul σ τ p).trans (OrdMap.map_map ..).symm
  | htmlNodes g =>
    refine heq_of_eq (Prod.ext ?_ rfl)
    exact (OrdMap.map_congr fun p _ => mul_smul σ τ p).trans (OrdMap.map_map ..).symm
  | edges g =>
    refine heq_of_eq (Prod.ext ?_ rfl)
    exact (List.map_congr_left fun e _ => mul_smul σ τ e).trans (List.map_map ..).symm
  | node n => exact heq_of_eq (congrArg (Node.mk v.name) (mul_smul σ τ v.attributes))
  | ends e =>
    refine heq_of_eq (Prod.ext rfl (Prod.ext ?_ ?_))
    · exact mul_smul σ τ v.2.1
    · exact mul_smul σ τ v.2.2
  | _ => rfl

theorem Write.ext_heq {x y : Write} (hk : x.cell = y.cell) (hv : HEq x.value y.value) : x = y := by
  cases x
  cases y
  cases hk
  cases hv
  rfl

instance : MulAction Relabel Write where
  smul := Write.relabel
  one_smul x :=
    Write.ext_heq (one_smul Relabel x.cell)
      (x.cell.carry_eq_self x.value fun o _ => one_smul Relabel o)
  mul_smul σ τ x := Write.ext_heq (mul_smul σ τ x.cell) (x.cell.carry_mul σ τ x.value)

theorem Write.cell_smul (σ : Relabel) (x : Write) : (σ • x).cell = σ • x.cell := rfl

/-! ## Cells that match -/

namespace Workspace

variable {w w' v v' u : Workspace} {k : Cell}

/-- A cell of a workspace holds what a cell of another does, under other identifiers. -/
def Matches (σ : Relabel) (k : Cell) (w v : Workspace) : Prop :=
  v.content (σ • k) = k.carry σ (w.content k)

theorem matches_iff : Matches σ k w v ↔
    (⟨σ • k, v.content (σ • k)⟩ : Write) = σ • (⟨k, w.content k⟩ : Write) := by
  constructor
  · intro h
    exact congrArg (Write.mk (σ • k)) h
  · intro h
    injection h

namespace Matches

theorem refl (k : Cell) (w : Workspace) : Matches 1 k w w := by
  rw [matches_iff, one_smul, one_smul]

theorem trans (h : Matches σ k w v) (h' : Matches τ (σ • k) v u) : Matches (τ * σ) k w u := by
  rw [matches_iff] at h h' ⊢
  rw [mul_smul, mul_smul, ← h, ← h']

theorem symm (h : Matches σ k w v) : Matches σ⁻¹ (σ • k) v w := by
  rw [matches_iff] at h ⊢
  rw [h, inv_smul_smul, inv_smul_smul]

theorem of_content_eq (h : v.content k = w.content k) : Matches 1 k w v := by
  rw [matches_iff, one_smul, one_smul, h]

theorem of_contents_eq (h : Matches σ k w v) (hw : w'.content k = w.content k)
    (hv : v'.content (σ • k) = v.content (σ • k)) : Matches σ k w' v' := by
  unfold Matches
  rw [hw, hv, h]

/-- Cells that are written alike match afterwards. -/
theorem writeAll {xs : List Write} (h : (∀ x ∈ xs, x.cell ≠ k) → Matches σ k w v) :
    Matches σ k (w.writeAll xs) (v.writeAll (xs.map fun x => σ • x)) := by
  induction xs generalizing w v with
  | nil => exact h fun x hx => nomatch hx
  | cons x xs ih =>
    rw [List.map_cons, writeAll_cons, writeAll_cons]
    refine ih fun hxs => ?_
    by_cases hk : k = x.cell
    · subst hk
      rw [matches_iff, content_write_self]
      exact congrArg (Write.mk (σ • x.cell)) (content_write_self v (σ • x))
    · have hσ : σ • k ≠ (σ • x).cell := fun he => hk (smul_left_cancel σ he)
      unfold Matches
      rw [content_write_of_ne hk, content_write_of_ne hσ]
      exact h (List.forall_mem_cons.2 ⟨fun he => hk he.symm, hxs⟩)

end Matches

end Workspace

end DotBuilder
