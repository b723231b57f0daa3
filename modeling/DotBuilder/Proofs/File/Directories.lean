import DotBuilder.File.Tree
import DotBuilder.OrdMap.Lemmas
import Mathlib.Logic.Basic

/-!
# Directories and places

Saving makes the directories that the names of one path lead through, and then follows the names of
another to the place of the file.  Without double dots names lead straight down, so both succeed or
fail by what is at the places further down.  With and without them a file tree stays in order: no
place is a file and a directory, and above each file and each directory there is a directory.

* `Place.below` : where names without double dots lead;
* `makeDirectories_eq_ok_iff`, `locate_eq_ok_iff` : when directories are made and a file is found a
  place, and where;
* `Orderly`, `Orderly.makeDirectories` : the order of a tree, and that making directories keeps it.
-/

namespace DotBuilder

/-! ## Places further down -/

namespace Place

variable {p : Place} {name : FileName} {names more : List FileName}

/-- The place that names without double dots lead to. -/
def below (p : Place) (names : List FileName) : Place := ⟨p.anchor, p.names ++ names⟩

theorem below_nil (p : Place) : p.below [] = p := by
  rw [below, List.append_nil]

theorem below_below (p : Place) (names more : List FileName) :
    (p.below names).below more = p.below (names ++ more) := by
  rw [below, below, below, List.append_assoc]

theorem below_inj : p.below names = p.below more ↔ names = more := by
  rw [below, below, Place.mk.injEq, List.append_right_inj]
  exact and_iff_right rfl

theorem enter_of_ne (h : name ≠ .up) : p.enter name = p.child name := if_neg h

theorem parent_child (p : Place) (name : FileName) : (p.child name).parent = p := by
  obtain ⟨anchor, names⟩ := p
  unfold child parent
  split
  · rename_i h
    exact absurd h (by simp)
  · rename_i h
    exact absurd h (by simp)
  · rw [List.dropLast_concat]

end Place

/-- What holds of all rows of names that a row of names starts with. -/
theorem forall_prefix_cons {name : FileName} {names : List FileName} {P : List FileName → Prop} :
    (∀ pre, pre ≠ [] → pre <+: name :: names → P pre) ↔
      P [name] ∧ ∀ pre, pre ≠ [] → pre <+: names → P (name :: pre) := by
  constructor
  · intro h
    refine ⟨h [name] (by simp) (List.prefix_append ..), fun pre _ hpre => ?_⟩
    exact h (name :: pre) (by simp) (List.cons_prefix_cons.2 ⟨rfl, hpre⟩)
  · rintro ⟨hname, hrest⟩ pre hne hpre
    cases pre with
    | nil => exact absurd rfl hne
    | cons first pre =>
      obtain ⟨rfl, hrestpre⟩ := List.cons_prefix_cons.1 hpre
      cases pre with
      | nil => exact hname
      | cons second pre => exact hrest (second :: pre) (by simp) hrestpre

theorem exists_prefix_cons {name : FileName} {names : List FileName} {P : List FileName → Prop} :
    (∃ pre, pre ≠ [] ∧ pre <+: name :: names ∧ P pre) ↔
      P [name] ∨ ∃ pre, pre ≠ [] ∧ pre <+: names ∧ P (name :: pre) := by
  have h := not_congr (@forall_prefix_cons name names fun x => ¬ P x)
  simpa only [not_and_or, not_forall, not_not, exists_prop] using h

namespace FileTree

variable {t : FileTree} {d : Draft} {here place q : Place} {missing : Bool} {name : FileName}
  {names : List FileName}

/-! ## Making directories -/

/-- The tree in which there is a directory at a place. -/
def ensured (t : FileTree) (q : Place) : FileTree :=
  if t.hasDirectory q then t else t.withDirectory q

theorem files_ensured (t : FileTree) (q : Place) : (t.ensured q).files = t.files := by
  unfold ensured
  split <;> rfl

theorem hasFile_ensured : (t.ensured q).hasFile place = t.hasFile place := by
  rw [hasFile, files_ensured, hasFile]

theorem hasDirectory_ensured_iff :
    (t.ensured q).hasDirectory place = true ↔ t.hasDirectory place = true ∨ place = q := by
  unfold ensured
  by_cases hq : t.hasDirectory q = true
  · rw [if_pos hq]
    refine (or_iff_left_of_imp ?_).symm
    rintro rfl
    exact hq
  · rw [if_neg hq]
    simp [hasDirectory, withDirectory, or_assoc]

/-- What becomes of the first name: it is refused, or there is a directory where it leads. -/
theorem makeDirectories_cons (t : FileTree) (here : Place) (missing : Bool) (name : FileName)
    (rest : List FileName) :
    (∃ e, (nameLimit < name.length ∨ t.hasFile (here.enter name) = true) ∧
      t.makeDirectories here missing (name :: rest) = (t, .error e)) ∨
    ∃ missing', (name.length ≤ nameLimit ∧ t.hasFile (here.enter name) = false) ∧
      t.makeDirectories here missing (name :: rest) =
        (t.ensured (here.enter name)).makeDirectories (here.enter name) missing' rest := by
  rw [makeDirectories]
  by_cases hlong : nameLimit < name.length
  · exact .inl ⟨_, .inl hlong, if_pos hlong⟩
  by_cases hfile : t.hasFile (here.enter name) = true
  · rw [if_neg hlong, if_pos hfile]
    exact .inl ⟨_, .inr hfile, rfl⟩
  have hfree : t.hasFile (here.enter name) = false := Bool.eq_false_iff.2 hfile
  rw [if_neg hlong, if_neg hfile, ensured]
  by_cases hdirectory : t.hasDirectory (here.enter name) = true
  · refine .inr ⟨missing, ⟨Nat.not_lt.1 hlong, hfree⟩, ?_⟩
    rw [if_pos hdirectory, if_pos hdirectory]
  · refine .inr ⟨true, ⟨Nat.not_lt.1 hlong, hfree⟩, ?_⟩
    rw [if_neg hdirectory, if_neg hdirectory]

/-- Making directories changes no file. -/
theorem files_makeDirectories (t : FileTree) (here : Place) (missing : Bool)
    (names : List FileName) : (t.makeDirectories here missing names).1.files = t.files := by
  induction names generalizing t here missing with
  | nil => rfl
  | cons name rest ih =>
    rcases t.makeDirectories_cons here missing name rest with ⟨e, -, h⟩ | ⟨missing', -, h⟩
    · rw [h]
    · rw [h, ih, files_ensured]

/-- **When directories are made.**  Names without double dots are led through if none is too long
and no file is on the way, and they lead straight down. -/
theorem makeDirectories_eq_ok_iff (hnames : .up ∉ names) :
    (t.makeDirectories here missing names).2 = .ok place ↔
      place = here.below names ∧ (∀ name ∈ names, name.length ≤ nameLimit) ∧
        ∀ pre, pre ≠ [] → pre <+: names → t.hasFile (here.below pre) = false := by
  induction names generalizing t here missing with
  | nil =>
    rw [makeDirectories, Except.ok.injEq, Place.below_nil, eq_comm]
    refine (and_iff_left ⟨List.forall_mem_nil _, fun pre hne hpre => ?_⟩).symm
    exact absurd (List.prefix_nil.1 hpre) hne
  | cons name rest ih =>
    obtain ⟨hname, hrest⟩ := List.ne_and_not_mem_of_not_mem_cons hnames
    have henter : here.enter name = here.below [name] := Place.enter_of_ne hname.symm
    rw [forall_prefix_cons, List.forall_mem_cons]
    rcases t.makeDirectories_cons here missing name rest with ⟨e, hrefused, h⟩ | ⟨_, hshort, h⟩
    · rw [h]
      refine iff_of_false (fun h => by cases h) fun hright => ?_
      rcases hrefused with hlong | hfile
      · exact absurd hright.2.1.1 (Nat.not_le.2 hlong)
      · rw [henter, hright.2.2.1] at hfile
        cases hfile
    · rw [henter] at h hshort
      rw [h, ih hrest]
      simp only [hasFile_ensured, Place.below_below, List.singleton_append, hshort, true_and]

/-- Where names without double dots were led through, there are directories, and no others came to
be. -/
theorem hasDirectory_makeDirectories_iff (hnames : .up ∉ names)
    (hok : (t.makeDirectories here missing names).2 = .ok place) :
    (t.makeDirectories here missing names).1.hasDirectory q = true ↔
      t.hasDirectory q = true ∨ ∃ pre, pre ≠ [] ∧ pre <+: names ∧ q = here.below pre := by
  induction names generalizing t here missing with
  | nil =>
    refine (or_iff_left ?_).symm
    rintro ⟨pre, hne, hpre, -⟩
    exact hne (List.prefix_nil.1 hpre)
  | cons name rest ih =>
    obtain ⟨hname, hrest⟩ := List.ne_and_not_mem_of_not_mem_cons hnames
    have henter : here.enter name = here.below [name] := Place.enter_of_ne hname.symm
    rcases t.makeDirectories_cons here missing name rest with ⟨e, -, h⟩ | ⟨missing', -, h⟩
    · rw [h] at hok
      cases hok
    · rw [henter] at h
      rw [h] at hok ⊢
      rw [ih hrest hok, hasDirectory_ensured_iff, or_assoc]
      simp only [exists_prefix_cons, Place.below_below, List.singleton_append]

/-- Behind the names that were led through there are the directories that were there before. -/
theorem hasDirectory_makeDirectories_below {more : List FileName} (hnames : .up ∉ names)
    (hok : (t.makeDirectories here missing names).2 = .ok place) (hmore : more ≠ []) :
    (t.makeDirectories here missing names).1.hasDirectory (here.below (names ++ more)) = true ↔
      t.hasDirectory (here.below (names ++ more)) = true := by
  rw [hasDirectory_makeDirectories_iff hnames hok, or_iff_left]
  rintro ⟨pre, -, hpre, h⟩
  rw [Place.below_inj] at h
  subst h
  have hlength := hpre.length_le
  rw [List.length_append] at hlength
  exact hmore (List.length_eq_zero_iff.1 (by omega))

/-! ## Finding the place of a file -/

/-- What becomes of the first name: it is refused, or it leads to a directory unless it is the last,
which leads to none. -/
theorem locate_cons (t : FileTree) (here : Place) (name : FileName) (rest : List FileName) :
    (∃ e, (nameLimit < name.length ∨
        (t.hasDirectory (here.enter name) = true ↔ rest = [])) ∧
      t.locate here (name :: rest) = .error e) ∨
    (name.length ≤ nameLimit ∧ (t.hasDirectory (here.enter name) = true ↔ rest ≠ [])) ∧
      t.locate here (name :: rest) =
        if rest = [] then .ok (here.enter name) else t.locate (here.enter name) rest := by
  rw [locate]
  by_cases hlong : nameLimit < name.length
  · exact .inl ⟨_, .inl hlong, if_pos hlong⟩
  have hshort : name.length ≤ nameLimit := Nat.not_lt.1 hlong
  rw [if_neg hlong]
  by_cases hd : t.hasDirectory (here.enter name) = true
  · cases rest with
    | nil => exact .inl ⟨.fileIsDirectory, .inr (iff_of_true hd rfl), by simp [hd]⟩
    | cons second rest =>
      exact .inr ⟨⟨hshort, iff_of_true hd (by simp)⟩, by simp [hd]⟩
  · cases rest with
    | nil => exact .inr ⟨⟨hshort, iff_of_false hd (by simp)⟩, by simp [hd]⟩
    | cons second rest =>
      by_cases hf : t.hasFile (here.enter name) = true
      · exact .inl ⟨.notDirectory, .inr (iff_of_false hd (by simp)), by simp [hd, hf]⟩
      · exact .inl ⟨.parentMissing, .inr (iff_of_false hd (by simp)), by simp [hd, hf]⟩

/-- **When a file is found a place.**  Names without double dots lead to the place of a file if none
is too long, all but the last lead to directories, and the last does not; and they lead straight
down. -/
theorem locate_eq_ok_iff (hnames : .up ∉ names) :
    t.locate here names = .ok place ↔
      place = here.below names ∧ names ≠ [] ∧ (∀ name ∈ names, name.length ≤ nameLimit) ∧
        ∀ pre, pre ≠ [] → pre <+: names → (t.hasDirectory (here.below pre) = true ↔ pre ≠ names) := by
  induction names generalizing here with
  | nil => exact iff_of_false (fun h => by cases h) fun h => h.2.1 rfl
  | cons name rest ih =>
    obtain ⟨hname, hrest⟩ := List.ne_and_not_mem_of_not_mem_cons hnames
    have henter : here.enter name = here.below [name] := Place.enter_of_ne hname.symm
    have hlast : [name] ≠ name :: rest ↔ rest ≠ [] := by
      rw [ne_eq, List.cons.injEq, eq_comm (a := [])]
      exact not_congr (and_iff_right rfl)
    rw [forall_prefix_cons, List.forall_mem_cons, hlast]
    rcases t.locate_cons here name rest with ⟨e, hrefused, h⟩ | ⟨hshort, h⟩
    · rw [h]
      refine iff_of_false (fun h => by cases h) fun hright => ?_
      rcases hrefused with hlong | hd
      · exact absurd hright.2.2.1.1 (Nat.not_le.2 hlong)
      · rw [henter, hright.2.2.2.1] at hd
        exact iff_not_self hd.symm
    · rw [henter] at h hshort
      rw [h]
      by_cases hnil : rest = []
      · subst hnil
        rw [if_pos rfl, Except.ok.injEq]
        refine ⟨?_, fun h => h.1.symm⟩
        rintro rfl
        refine ⟨rfl, by simp, ⟨hshort.1, List.forall_mem_nil _⟩, hshort.2, fun pre hne hpre => ?_⟩
        exact absurd (List.prefix_nil.1 hpre) hne
      · rw [if_neg hnil, ih hrest]
        simp only [Place.below_below, List.singleton_append, hshort, true_and, ne_eq, hnil,
          not_false_eq_true, List.cons.injEq, reduceCtorEq]

/-! ## Trees in order -/

/-- No place is a file and a directory, and above files and directories there are directories. -/
structure Orderly (t : FileTree) : Prop where
  disjoint {p : Place} : t.hasFile p = true → t.hasDirectory p = false
  file_parent {p : Place} : t.hasFile p = true → t.hasDirectory p.parent = true
  directory_parent {p : Place} : t.hasDirectory p = true → t.hasDirectory p.parent = true

namespace Orderly

/-- A name leads to a directory or to a place right below. -/
theorem enter_eq (ht : t.Orderly) (hhere : t.hasDirectory here = true) (name : FileName) :
    t.hasDirectory (here.enter name) = true ∨ (here.enter name).parent = here := by
  unfold Place.enter
  by_cases hname : name = .up
  · rw [if_pos hname]
    exact .inl (ht.directory_parent hhere)
  · rw [if_neg hname]
    exact .inr (here.parent_child name)

/-- A directory can be made where its parent is one and no file is. -/
theorem ensured (ht : t.Orderly) (hfree : t.hasFile q = false)
    (hparent : t.hasDirectory q = true ∨ t.hasDirectory q.parent = true) : (t.ensured q).Orderly := by
  refine ⟨fun {p} hp => ?_, fun {p} hp => ?_, fun {p} hp => ?_⟩
  · rw [hasFile_ensured] at hp
    rw [Bool.eq_false_iff, ne_eq, hasDirectory_ensured_iff, ht.disjoint hp]
    rintro (h | rfl)
    · cases h
    · rw [hfree] at hp
      cases hp
  · rw [hasFile_ensured] at hp
    exact hasDirectory_ensured_iff.2 (.inl (ht.file_parent hp))
  · rw [hasDirectory_ensured_iff] at hp ⊢
    rcases hp with hp | rfl
    · exact .inl (ht.directory_parent hp)
    · rcases hparent with hq | hq
      · exact .inl (ht.directory_parent hq)
      · exact .inl hq

/-- **Making directories keeps a tree in order**, and leads to a directory. -/
theorem makeDirectories (ht : t.Orderly) (hhere : t.hasDirectory here = true) (missing : Bool)
    (names : List FileName) :
    (t.makeDirectories here missing names).1.Orderly ∧
      ∀ place, (t.makeDirectories here missing names).2 = .ok place →
        (t.makeDirectories here missing names).1.hasDirectory place = true := by
  induction names generalizing t here missing with
  | nil =>
    refine ⟨ht, fun place h => ?_⟩
    cases h
    exact hhere
  | cons name rest ih =>
    rcases t.makeDirectories_cons here missing name rest with ⟨e, -, h⟩ | ⟨_, ⟨-, hfree⟩, h⟩
    · rw [h]
      exact ⟨ht, fun place h => by cases h⟩
    · have hparent : t.hasDirectory (here.enter name) = true ∨
          t.hasDirectory (here.enter name).parent = true := by
        rcases ht.enter_eq hhere name with hd | hp
        · exact .inl hd
        · rw [hp]
          exact .inr hhere
      rw [h]
      exact ih (ht.ensured hfree hparent) (hasDirectory_ensured_iff.2 (.inr rfl)) _

/-- A file that is found a place is no directory, and its parent is one. -/
theorem locate (ht : t.Orderly) (hhere : t.hasDirectory here = true)
    (hok : t.locate here names = .ok place) :
    t.hasDirectory place = false ∧ t.hasDirectory place.parent = true := by
  induction names generalizing here with
  | nil => cases hok
  | cons name rest ih =>
    rcases t.locate_cons here name rest with ⟨e, -, h⟩ | ⟨⟨-, hd⟩, h⟩
    · rw [h] at hok
      cases hok
    · rw [h] at hok
      by_cases hnil : rest = []
      · rw [if_pos hnil] at hok
        cases hok
        have hno : ¬ t.hasDirectory (here.enter name) = true := fun h => hd.1 h hnil
        refine ⟨Bool.eq_false_iff.2 hno, ?_⟩
        rw [(ht.enter_eq hhere name).resolve_left hno]
        exact hhere
      · rw [if_neg hnil] at hok
        exact ih (hd.2 hnil) hok

end Orderly

end FileTree

end DotBuilder
