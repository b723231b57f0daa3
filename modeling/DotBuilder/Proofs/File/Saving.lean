import DotBuilder.Proofs.File.Directories
import DotBuilder.Proofs.File.Encoding

/-!
# Single saves

A save makes the directories of its document, finds the place of the file, opens the file and writes
the text.  Up to the opening no file changes; from then on the file is in the tree, and what it
holds is the text or, if that has surrogates, nothing.

* `write_cases` : what writing leaves in a file;
* `target?`, `save_cases` : the place of the file that a save opens, and what the save does with and
  without one;
* `target?_eq_some_iff`, `Admits` : inside of the working directory it is that of the path of the
  document, and what has to hold of the tree for it;
* `Orderly.save` : directories and files stay apart, and none is without the directory above it.
-/

namespace DotBuilder

/-! ## Places in the working directory -/

namespace Place

/-- The place that names without double dots lead to from the working directory. -/
def inside (names : List FileName) : Place := ⟨.above 0, names⟩

theorem inside?_eq_some_iff {p : Place} {names : List FileName} :
    p.inside? = some names ↔ p = inside names := by
  obtain ⟨anchor, more⟩ := p
  unfold inside? inside
  by_cases h : anchor = .above 0
  · rw [if_pos h]
    simp [h]
  · rw [if_neg h]
    simp [h]

theorem inside_inj {names more : List FileName} : inside names = inside more ↔ names = more := by
  rw [inside, inside, Place.mk.injEq]
  exact and_iff_right rfl

end Place

namespace Draft

/-- A document that is saved inside of the working directory: its directory and the name of its file
do not start with a slash and have no double dots. -/
structure Inside (d : Draft) : Prop where
  directory_root : d.directoryPath.root = .noSlash
  directory_names : RawText.ofString ".." ∉ d.directoryPath.names
  name_root : d.namePath.root = .noSlash
  name_names : RawText.ofString ".." ∉ d.namePath.names

instance (d : Draft) : Decidable d.Inside :=
  decidable_of_iff (d.directoryPath.root = .noSlash ∧
      RawText.ofString ".." ∉ d.directoryPath.names ∧ d.namePath.root = .noSlash ∧
      RawText.ofString ".." ∉ d.namePath.names)
    ⟨fun h => ⟨h.1, h.2.1, h.2.2.1, h.2.2.2⟩,
      fun h => ⟨h.directory_root, h.directory_names, h.name_root, h.name_names⟩⟩

variable {d : Draft}

theorem Inside.filePath_eq (hd : d.Inside) :
    d.filePath = ⟨.noSlash, d.directoryPath.names ++ d.namePath.names⟩ := by
  have habsolute : ¬ d.namePath.isAbsolute = true := by simp [Path.isAbsolute, hd.name_root]
  rw [filePath, Path.join, if_neg habsolute, hd.directory_root]

theorem Inside.fileNames_filePath (hd : d.Inside) :
    d.filePath.fileNames = d.directoryPath.fileNames ++ d.namePath.fileNames := by
  rw [hd.filePath_eq]
  exact List.map_append

/-- No name of a document's file leads up. -/
theorem Inside.up_notMem (hd : d.Inside) (h : d.filePath.fault? = none) :
    .up ∉ d.directoryPath.fileNames ∧ .up ∉ d.namePath.fileNames := by
  have hnames : RawText.ofString ".." ∉ d.filePath.names := by
    rw [hd.filePath_eq, List.mem_append]
    exact not_or.2 ⟨hd.directory_names, hd.name_names⟩
  have hup : .up ∉ d.filePath.fileNames := Path.up_notMem_fileNames h hnames
  rwa [hd.fileNames_filePath, List.mem_append, not_or] at hup

end Draft

/-! ## Names of files -/

/-- A text without slashes is added to the last piece of another. -/
theorem Path.exists_splitSlash_append (t : RawText) {ending : RawText}
    (h : CodePoint.char '/' ∉ ending) :
    ∃ pieces last, splitSlash (t ++ ending) = pieces ++ [last ++ ending] := by
  have hending : splitSlash ending = [ending] := by
    induction ending with
    | nil => rfl
    | cons c rest ih =>
      obtain ⟨hc, hrest⟩ := List.ne_and_not_mem_of_not_mem_cons h
      rw [splitSlash, if_neg hc.symm, ih hrest]
  induction t with
  | nil => exact ⟨[], [], hending⟩
  | cons c t ih =>
    obtain ⟨pieces, last, hsplit⟩ := ih
    rw [List.cons_append, splitSlash, hsplit]
    by_cases hc : c = .char '/'
    · rw [if_pos hc]
      exact ⟨[] :: pieces, last, rfl⟩
    · rw [if_neg hc]
      cases pieces with
      | nil => exact ⟨[], c :: last, rfl⟩
      | cons piece pieces => exact ⟨(c :: piece) :: pieces, last, rfl⟩

/-- A text with an ending gives a path with a name. -/
theorem Path.names_ofText_append_ne_nil (t : RawText) :
    (ofText (t ++ RawText.ofString ".dot")).names ≠ [] := by
  have hending : CodePoint.char '/' ∉ RawText.ofString ".dot" := by decide
  obtain ⟨pieces, last, hsplit⟩ := exists_splitSlash_append t hending
  have hlength : (last ++ RawText.ofString ".dot").length = last.length + 4 := List.length_append
  have hlast : last ++ RawText.ofString ".dot" ≠ [] ∧
      last ++ RawText.ofString ".dot" ≠ [.char '.'] := by
    constructor <;> intro h <;> rw [h] at hlength <;> simp at hlength
  refine List.ne_nil_of_mem (a := last ++ RawText.ofString ".dot") ?_
  refine List.mem_filter.2 ⟨?_, decide_eq_true hlast⟩
  rw [hsplit]
  exact List.mem_append_right _ (List.mem_singleton_self _)

theorem Draft.fileNames_namePath_ne_nil (d : Draft) : d.namePath.fileNames ≠ [] :=
  mt List.map_eq_nil_iff.1 (Path.names_ofText_append_ne_nil _)

namespace FileTree

variable {t : FileTree} {d : Draft} {here place : Place} {p : Path}

/-! ## Writing -/

/-- What writing does: a text without surrogates is written, and another leaves the file empty. -/
theorem write_cases (t : FileTree) (place : Place) (source : RawText) :
    (source.WellFormed ∧ t.write place source = (t.put place source.string, .ok ())) ∨
    ∃ f, source.fault? CodePoint.char? = some f ∧
      t.write place source = (t.put place "", .error (.notEncodable f)) := by
  unfold write
  cases hfault : source.fault? CodePoint.char? with
  | some f => exact .inr ⟨f, rfl, rfl⟩
  | none =>
    refine .inl ⟨RawText.fault?_char?_eq_none_iff.1 hfault, ?_⟩
    simp only [put, OrdMap.insert_insert]

/-! ## The file that is opened -/

/-- The place of the file that a save opens, if it gets so far. -/
def target? (t : FileTree) (d : Draft) : Option Place :=
  match t.prepare d.directoryPath with
  | (_, .error _) => none
  | (t', .ok here) => (t'.placeOf d here).toOption

theorem files_prepare (t : FileTree) (p : Path) : (t.prepare p).1.files = t.files := by
  unfold prepare
  split
  · rfl
  · exact t.files_makeDirectories ..

/-- **What a save does.**  It opens no file and changes none, or it opens one, and then writes its
text or leaves it empty. -/
theorem save_cases (t : FileTree) (d : Draft) :
    (t.target? d = none ∧ (∃ e, (t.save d).2 = .error (.notOpened e)) ∧
      (t.save d).1.files = t.files) ∨
    (∃ place, t.target? d = some place ∧ d.source.WellFormed ∧ (t.save d).2 = .ok d.filePath ∧
      (t.save d).1.files = t.files.insert place d.source.string) ∨
    ∃ place f, t.target? d = some place ∧ d.source.fault? CodePoint.char? = some f ∧
      (t.save d).2 = .error (.notEncodable f) ∧ (t.save d).1.files = t.files.insert place "" := by
  have hfiles : (t.prepare d.directoryPath).1.files = t.files := t.files_prepare _
  have hput : ∀ place text, ((t.prepare d.directoryPath).1.put place text).files =
      t.files.insert place text := fun place text => by rw [put, hfiles]
  unfold save target?
  rcases hprepare : t.prepare d.directoryPath with ⟨t', e | here⟩ <;> rw [hprepare] at hfiles hput
  · exact .inl ⟨rfl, ⟨e, rfl⟩, hfiles⟩
  · cases hplace : t'.placeOf d here with
    | error e =>
      simp only [hplace]
      exact .inl ⟨rfl, ⟨e, rfl⟩, hfiles⟩
    | ok place =>
      rcases t'.write_cases place d.source with ⟨hsource, hwrite⟩ | ⟨f, hsource, hwrite⟩
      · simp only [hplace, hwrite]
        exact .inr (.inl ⟨place, rfl, hsource, rfl, hput ..⟩)
      · simp only [hplace, hwrite]
        exact .inr (.inr ⟨place, f, rfl, hsource, rfl, hput ..⟩)

/-- What has to hold of a tree for the file of a document to be opened in it: no name and no path is
too long, there is no null character, and all code points have codes; no file is where directories
are to be; the name of the file leads through directories that are there; and no directory is where
the file is to be. -/
structure Admits (t : FileTree) (d : Draft) : Prop where
  directory_fault : d.directoryPath.fault? = none
  file_fault : d.filePath.fault? = none
  short : ∀ name ∈ d.filePath.fileNames, name.length ≤ nameLimit
  free : ∀ pre, pre ≠ [] → pre <+: d.directoryPath.fileNames → t.hasFile (.inside pre) = false
  led : ∀ pre, pre ≠ [] → pre <+: d.namePath.fileNames →
    (t.hasDirectory (.inside (d.directoryPath.fileNames ++ pre)) = true ↔
      pre ≠ d.namePath.fileNames)

theorem prepare_eq_ok_iff :
    (t.prepare p).2 = .ok here ↔
      p.fault? = none ∧ (t.makeDirectories (Place.start p) false p.fileNames).2 = .ok here := by
  unfold prepare
  cases p.fault? <;> simp

theorem placeOf_eq_ok_iff :
    t.placeOf d here = .ok place ↔ d.filePath.fault? = none ∧
      t.locate (if d.namePath.isAbsolute then Place.start d.namePath else here)
        d.namePath.fileNames = .ok place := by
  unfold placeOf
  cases d.filePath.fault? <;> simp

theorem target?_eq_some_iff_exists :
    t.target? d = some place ↔ ∃ here, (t.prepare d.directoryPath).2 = .ok here ∧
      (t.prepare d.directoryPath).1.placeOf d here = .ok place := by
  unfold target?
  rcases t.prepare d.directoryPath with ⟨t', e | here⟩
  · simp
  · cases h : t'.placeOf d here <;> simp [h, Except.toOption]

/-- **Which file is opened**, inside of the working directory. -/
theorem target?_eq_some_iff (hd : d.Inside) :
    t.target? d = some place ↔ place = .inside d.filePath.fileNames ∧ t.Admits d := by
  have hstart : Place.start d.directoryPath = .inside [] := by
    simp [Place.start, Path.isAbsolute, hd.directory_root, Place.inside]
  have hrelative : d.namePath.isAbsolute = false := by simp [Path.isAbsolute, hd.name_root]
  -- the directories that are made are not behind the names that lead to them
  have hthere : .up ∉ d.directoryPath.fileNames →
      ∀ here, (t.makeDirectories (.inside []) false d.directoryPath.fileNames).2 = .ok here →
      ∀ pre, pre ≠ [] →
        ((t.makeDirectories (.inside []) false d.directoryPath.fileNames).1.hasDirectory
          (.inside (d.directoryPath.fileNames ++ pre)) = true ↔
            t.hasDirectory (.inside (d.directoryPath.fileNames ++ pre)) = true) :=
    fun hup here hok pre hne => hasDirectory_makeDirectories_below hup hok hne
  rw [target?_eq_some_iff_exists, hd.fileNames_filePath]
  constructor
  · rintro ⟨here, hprepare, hplace⟩
    obtain ⟨hfault, hmake⟩ := prepare_eq_ok_iff.1 hprepare
    obtain ⟨hpath, hlocate⟩ := placeOf_eq_ok_iff.1 hplace
    obtain ⟨hdirectory, hname⟩ := hd.up_notMem hpath
    rw [prepare, hfault] at hlocate
    rw [hstart] at hmake hlocate
    rw [hrelative, if_neg Bool.false_ne_true, locate_eq_ok_iff hname] at hlocate
    obtain ⟨rfl, hdirectories, hfree⟩ := (makeDirectories_eq_ok_iff hdirectory).1 hmake
    obtain ⟨rfl, -, hshort, hled⟩ := hlocate
    refine ⟨rfl, hfault, hpath, ?_, hfree, fun pre hne hpre => ?_⟩
    · rw [hd.fileNames_filePath, List.forall_mem_append]
      exact ⟨hdirectories, hshort⟩
    · rw [← hthere hdirectory _ hmake pre hne]
      exact hled pre hne hpre
  · rintro ⟨rfl, h⟩
    obtain ⟨hdirectory, hname⟩ := hd.up_notMem h.file_fault
    have hshort := h.short
    rw [hd.fileNames_filePath, List.forall_mem_append] at hshort
    have hmake : (t.makeDirectories (.inside []) false d.directoryPath.fileNames).2 =
        .ok (.inside d.directoryPath.fileNames) :=
      (makeDirectories_eq_ok_iff hdirectory).2 ⟨rfl, hshort.1, h.free⟩
    refine ⟨.inside d.directoryPath.fileNames, ?_, ?_⟩
    · rw [prepare_eq_ok_iff, hstart]
      exact ⟨h.directory_fault, hmake⟩
    · rw [placeOf_eq_ok_iff, prepare, h.directory_fault, hstart, hrelative,
        if_neg Bool.false_ne_true]
      refine ⟨h.file_fault, (locate_eq_ok_iff hname).2 ?_⟩
      refine ⟨rfl, d.fileNames_namePath_ne_nil, hshort.2, fun pre hne hpre => ?_⟩
      exact (hthere hdirectory _ hmake pre hne).trans (h.led pre hne hpre)

/-! ## Files and directories -/

namespace Orderly

/-- A file can be put where no directory is and its parent is one. -/
theorem put (ht : t.Orderly) (hplace : t.hasDirectory place = false)
    (hparent : t.hasDirectory place.parent = true) (text : String) : (t.put place text).Orderly := by
  have hfile : ∀ {q}, (t.put place text).hasFile q = true → q = place ∨ t.hasFile q = true := by
    intro q hq
    rw [hasFile, FileTree.put, OrdMap.contains, OrdMap.get?_insert] at hq
    by_cases h : place = q
    · exact .inl h.symm
    · rw [if_neg h] at hq
      exact .inr hq
  refine ⟨fun hq => ?_, fun hq => ?_, ht.directory_parent⟩
  · rcases hfile hq with rfl | hq
    · exact hplace
    · exact ht.disjoint hq
  · rcases hfile hq with rfl | hq
    · exact hparent
    · exact ht.file_parent hq

/-- **A save keeps a tree in order**, also one that fails. -/
theorem save (ht : t.Orderly) (d : Draft) : (t.save d).1.Orderly := by
  have hprepare : ∀ p, (t.prepare p).1.Orderly ∧
      ∀ here, (t.prepare p).2 = .ok here → (t.prepare p).1.hasDirectory here = true := by
    intro p
    unfold prepare
    cases p.fault? with
    | some e => exact ⟨ht, fun here h => by cases h⟩
    | none => exact ht.makeDirectories rfl false p.fileNames
  obtain ⟨hmade, hhere⟩ := hprepare d.directoryPath
  unfold FileTree.save
  rcases hprepared : t.prepare d.directoryPath with ⟨t', e | here⟩ <;>
    rw [hprepared] at hmade hhere
  · exact hmade
  · cases hplace : t'.placeOf d here with
    | error e => simpa only [hplace] using hmade
    | ok place =>
      obtain ⟨-, hlocate⟩ := placeOf_eq_ok_iff.1 hplace
      have hstart : t'.hasDirectory
          (if d.namePath.isAbsolute then Place.start d.namePath else here) = true := by
        split
        · rfl
        · exact hhere here rfl
      obtain ⟨hfree, hparent⟩ := hmade.locate hstart hlocate
      rcases t'.write_cases place d.source with ⟨-, hwrite⟩ | ⟨f, -, hwrite⟩
      · simpa only [hplace, hwrite] using hmade.put hfree hparent _
      · simpa only [hplace, hwrite] using hmade.put hfree hparent _

end Orderly

theorem orderly_empty : empty.Orderly := by
  refine ⟨fun h => (by cases h), fun h => (by cases h), fun {p} h => ?_⟩
  have hnames : p.names = [] := by simpa [hasDirectory, empty] using h
  obtain ⟨_ | _, names⟩ := p <;> subst hnames <;> rfl

end FileTree

end DotBuilder
