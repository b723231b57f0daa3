/-!
# Ordered forests

A forest is a row of trees, and a tree is a root over a forest.  `Forest` has one constructor for
the empty row and one that puts a tree, given as its root and what is below it, in front of the
rest; so recursion on a forest goes through all of it at once.
-/

namespace DotBuilder

/-- A row of trees. -/
inductive Forest (α : Type) where
  /-- No tree. -/
  | nil
  /-- A tree in front of others. -/
  | cons (root : α) (below rest : Forest α)
  deriving DecidableEq, Repr

/-- A root over a row of trees. -/
structure Tree (α : Type) where
  /-- The root. -/
  root : α
  /-- The trees below it. -/
  below : Forest α
  deriving DecidableEq, Repr

namespace Forest

variable {α β : Type}

/-- The forest of a list of trees. -/
def ofTrees : List (Tree α) → Forest α
  | [] => nil
  | t :: ts => cons t.root t.below (ofTrees ts)

/-- The trees of a forest. -/
def trees : Forest α → List (Tree α)
  | nil => []
  | cons root below rest => ⟨root, below⟩ :: rest.trees

/-- The forest with every root changed by a function. -/
def map (f : α → β) : Forest α → Forest β
  | nil => nil
  | cons root below rest => cons (f root) (below.map f) (rest.map f)

/-- All roots, each before what is below it. -/
def preorder : Forest α → List α
  | nil => []
  | cons root below rest => root :: (below.preorder ++ rest.preorder)

theorem ofTrees_trees (F : Forest α) : ofTrees F.trees = F := by
  induction F with
  | nil => rfl
  | cons root below rest _ ih => simp [ofTrees, trees, ih]

theorem preorder_map (f : α → β) (F : Forest α) : (F.map f).preorder = F.preorder.map f := by
  induction F with
  | nil => rfl
  | cons root below rest ihb ihr => simp [map, preorder, ihb, ihr]

theorem preorder_eq_flatMap_trees (F : Forest α) :
    F.preorder = F.trees.flatMap fun t => t.root :: t.below.preorder := by
  induction F with
  | nil => rfl
  | cons root below rest _ ih => rw [preorder, trees, List.flatMap_cons, ih, List.cons_append]

theorem forall_mem_preorder_cons {p : α → Prop} {root : α} {below rest : Forest α} :
    (∀ a ∈ (cons root below rest).preorder, p a) ↔
      p root ∧ (∀ a ∈ below.preorder, p a) ∧ ∀ a ∈ rest.preorder, p a := by
  rw [preorder, List.forall_mem_cons, List.forall_mem_append]

theorem map_congr {f k : α → β} {F : Forest α} (h : ∀ a ∈ F.preorder, f a = k a) :
    F.map f = F.map k := by
  induction F with
  | nil => rfl
  | cons root below rest ihb ihr =>
    obtain ⟨hroot, hbelow, hrest⟩ := forall_mem_preorder_cons.1 h
    rw [map, map, hroot, ihb hbelow, ihr hrest]

end Forest

namespace Tree

variable {α β : Type}

/-- The tree with every root changed by a function. -/
def map (f : α → β) (t : Tree α) : Tree β := ⟨f t.root, t.below.map f⟩

/-- The root and all roots below it, each before what is below it. -/
def preorder (t : Tree α) : List α := t.root :: t.below.preorder

theorem preorder_map (f : α → β) (t : Tree α) : (t.map f).preorder = t.preorder.map f := by
  simp [map, preorder, Forest.preorder_map]

theorem map_congr {f k : α → β} {t : Tree α} (h : ∀ a ∈ t.preorder, f a = k a) :
    t.map f = t.map k := by
  obtain ⟨hroot, hbelow⟩ := List.forall_mem_cons.1 h
  rw [map, map, hroot, Forest.map_congr hbelow]

end Tree

end DotBuilder
