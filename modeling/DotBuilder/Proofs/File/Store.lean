import DotBuilder.Log
import DotBuilder.Proofs.File.Saving
import Mathlib.Data.List.Find
import Mathlib.Data.List.Nodup

/-!
# What a file holds

Documents are saved one after another, some to directories that are made for them, some to such as
only an earlier save made, and some not at all because a file or a directory is in the way.  In the
end there is a file for each path that a save opened a file at, and it holds what the last such save
left there: its text, or nothing if the text has surrogates.  Saves that opened no file left nothing
but directories.

* `after`, `opened`, `files_after` : the tree after a list of saves, and its files;
* `save_eq_ok_iff`, `save_eq_notEncodable_iff` : when a save writes its text, and when it leaves its
  file empty;
* `target?_eq_target?_iff` : which saves write to the same file;
* `files_hold_last_written` : all together;
* `failed_save_empties_file` : the saves that fail count, and not the paths but their bytes.
-/

namespace DotBuilder

/-- The path of the file that a save opens, and the text that it leaves there. -/
def Draft.leaves (d : Draft) : Except SaveError Path → Option (Path × RawText)
  | .ok p => some (p, d.source)
  | .error (.notEncodable _) => some (d.filePath, [])
  | .error (.notOpened _) => none

namespace FileTree

variable {t u : FileTree} {d : Draft} {p : Path} {names : List FileName} {x : String}

/-! ## One save after another -/

/-- The tree after a list of saves, whatever becomes of each. -/
def after (t : FileTree) (ds : List Draft) : FileTree := ds.foldl (fun t d => (t.save d).1) t

theorem after_cons (t : FileTree) (d : Draft) (ds : List Draft) :
    t.after (d :: ds) = (t.save d).1.after ds :=
  List.foldl_cons ..

/-- The paths of the files that the saves of a list open, with the texts left there, oldest
first. -/
def opened (t : FileTree) : List Draft → List (Path × RawText)
  | [] => []
  | d :: ds => (d.leaves (t.save d).2).toList ++ (t.save d).1.opened ds

/-- The text that was left last in the file that names lead to. -/
def lastLeft (opens : List (Path × RawText)) (names : List FileName) : Option RawText :=
  (opens.reverse.find? fun s => decide (s.1.fileNames = names)).map Prod.snd

/-- What a save answers. -/
def answer (t : FileTree) (d : Draft) : Saved := ⟨(t.save d).2, (t.save d).1.listing⟩

/-- What the saves of a list answer. -/
def answers (t : FileTree) : List Draft → List Saved
  | [] => []
  | d :: ds => t.answer d :: (t.save d).1.answers ds

theorem orderly_after (ht : t.Orderly) (ds : List Draft) : (t.after ds).Orderly := by
  induction ds generalizing t with
  | nil => exact ht
  | cons d ds ih =>
    rw [after_cons]
    exact ih (ht.save d)

/-- A save that a session goes on after. -/
def Continues (s : Saved) : Prop := ∀ e, s.result = .error e → e.ending? = none

theorem attempt_eq_ok_iff {r : FileTree × Saved} :
    t.attempt d = .ok r ↔ r = ((t.save d).1, t.answer d) ∧ Continues (t.answer d) := by
  unfold attempt Continues answer
  rcases t.save d with ⟨t', e | p⟩
  · cases hending : e.ending? <;> simp [hending, eq_comm]
  · simp [eq_comm]

/-- **A session goes through the saves one by one**, unless one ends it. -/
theorem saveAll_eq_ok_iff {ds : List Draft} {saves : List Saved} :
    t.saveAll ds = .ok saves ↔ saves = t.answers ds ∧ ∀ s ∈ saves, Continues s := by
  induction ds generalizing t saves with
  | nil =>
    rw [saveAll, Except.ok.injEq, eq_comm, answers]
    refine (and_iff_left_of_imp ?_).symm
    rintro rfl
    exact List.forall_mem_nil _
  | cons d ds ih =>
    have hbind : t.saveAll (d :: ds) = .ok saves ↔ ∃ r, t.attempt d = .ok r ∧
        ∃ rest, r.1.saveAll ds = .ok rest ∧ saves = r.2 :: rest := by
      rw [saveAll]
      cases t.attempt d with
      | error e => simp [bind, Except.bind]
      | ok r =>
        cases hrest : r.1.saveAll ds with
        | error e => simp [bind, Except.bind, hrest]
        | ok rest => simp [bind, Except.bind, pure, Except.pure, hrest, eq_comm (a := saves)]
    rw [hbind]
    constructor
    · rintro ⟨r, hattempt, rest, hrest, rfl⟩
      obtain ⟨rfl, hfirst⟩ := attempt_eq_ok_iff.1 hattempt
      obtain ⟨rfl, hothers⟩ := ih.1 hrest
      exact ⟨rfl, List.forall_mem_cons.2 ⟨hfirst, hothers⟩⟩
    · rintro ⟨rfl, hcontinues⟩
      obtain ⟨hfirst, hothers⟩ := List.forall_mem_cons.1 hcontinues
      exact ⟨_, attempt_eq_ok_iff.2 ⟨rfl, hfirst⟩, _, ih.2 ⟨rfl, hothers⟩, rfl⟩

/-- The log has one line for each save that answers a path. -/
theorem flatMap_ofSaved (saves : List Saved) :
    saves.flatMap LogEntry.ofSaved =
      (saves.filterMap fun s => s.result.toOption).map LogEntry.saved := by
  have hline : ∀ s, LogEntry.ofSaved s = (s.result.toOption.map LogEntry.saved).toList := by
    intro s
    rw [LogEntry.ofSaved]
    cases s.result <;> rfl
  rw [List.map_filterMap, List.filterMap_eq_flatMap_toList, funext hline]

/-! ## The files of a tree -/

theorem mem_listing_iff :
    (names, x) ∈ t.listing ↔ t.files.get? (.inside names) = some x := by
  rw [listing, List.mem_mergeSort, List.mem_filterMap]
  constructor
  · rintro ⟨⟨place, y⟩, hmem, h⟩
    obtain ⟨more, hmore, heq⟩ := Option.map_eq_some_iff.1 h
    cases heq
    obtain rfl := Place.inside?_eq_some_iff.1 hmore
    exact (OrdMap.mem_entries_iff ..).1 hmem
  · intro h
    refine ⟨(.inside names, x), (OrdMap.mem_entries_iff ..).2 h, ?_⟩
    rw [Place.inside?_eq_some_iff.2 rfl]
    rfl

/-- No file is listed twice. -/
theorem nodup_listing (t : FileTree) : (t.listing.map Prod.fst).Nodup := by
  have hnames : (t.files.entries.filterMap fun e => e.1.inside?.map fun names => (names, e.2)).map
      Prod.fst = t.files.keys.filterMap Place.inside? := by
    rw [OrdMap.keys, List.filterMap_map, List.map_filterMap]
    refine congrArg (List.filterMap · t.files.entries) (funext fun e => ?_)
    simp only [Option.map_map, Function.comp_def, Option.map_id']
  have hinjective : ∀ a b : Place, ∀ names, names ∈ a.inside? → names ∈ b.inside? → a = b := by
    intro a b names ha hb
    obtain rfl := Place.inside?_eq_some_iff.1 ha
    obtain rfl := Place.inside?_eq_some_iff.1 hb
    rfl
  refine ((List.mergeSort_perm _ _).map Prod.fst).nodup_iff.2 ?_
  rw [hnames]
  exact t.files.nodup_keys.filterMap hinjective

/-- **What a save does inside of the working directory**, where the path of the document tells the
file. -/
theorem save_inside (hd : d.Inside) (t : FileTree) :
    (¬ t.Admits d ∧ (∃ e, (t.save d).2 = .error (.notOpened e)) ∧ (t.save d).1.files = t.files) ∨
    (t.Admits d ∧ d.source.WellFormed ∧ (t.save d).2 = .ok d.filePath ∧
      (t.save d).1.files = t.files.insert (.inside d.filePath.fileNames) d.source.string) ∨
    ∃ f, t.Admits d ∧ d.source.fault? CodePoint.char? = some f ∧
      (t.save d).2 = .error (.notEncodable f) ∧
      (t.save d).1.files = t.files.insert (.inside d.filePath.fileNames) "" := by
  rcases t.save_cases d with ⟨hnone, he, hfiles⟩ | ⟨place, hplace, hsource, hok, hfiles⟩ |
    ⟨place, f, hplace, hfault, he, hfiles⟩
  · refine .inl ⟨fun h => ?_, he, hfiles⟩
    rw [(target?_eq_some_iff hd).2 ⟨rfl, h⟩] at hnone
    cases hnone
  · obtain ⟨rfl, h⟩ := (target?_eq_some_iff hd).1 hplace
    exact .inr (.inl ⟨h, hsource, hok, hfiles⟩)
  · obtain ⟨rfl, h⟩ := (target?_eq_some_iff hd).1 hplace
    exact .inr (.inr ⟨f, h, hfault, he, hfiles⟩)

/-- A save changes the file that it leaves something in, and no other. -/
theorem files_save (hd : d.Inside) (t : FileTree) :
    (t.save d).1.files = t.files.insertList
      ((d.leaves (t.save d).2).toList.map fun s => (.inside s.1.fileNames, s.2.string)) := by
  rcases save_inside hd t with ⟨-, ⟨e, he⟩, hfiles⟩ | ⟨-, -, hok, hfiles⟩ | ⟨f, -, -, he, hfiles⟩
  · rw [hfiles, he]
    rfl
  · rw [hfiles, hok]
    rfl
  · rw [hfiles, he]
    rfl

/-- **The files are what the saves left**, one after another. -/
theorem files_after {ds : List Draft} (hds : ∀ d ∈ ds, d.Inside) (t : FileTree) :
    (t.after ds).files =
      t.files.insertList ((t.opened ds).map fun s => (.inside s.1.fileNames, s.2.string)) := by
  induction ds generalizing t with
  | nil => rfl
  | cons d ds ih =>
    obtain ⟨hd, hrest⟩ := List.forall_mem_cons.1 hds
    rw [after_cons, ih hrest, files_save hd, opened, List.map_append]
    exact List.foldl_append.symm

/-- What a save leaves in a file has no surrogates. -/
theorem wellFormed_of_mem_opened {ds : List Draft} {s : Path × RawText} (hs : s ∈ t.opened ds) :
    s.2.WellFormed := by
  induction ds generalizing t with
  | nil => cases hs
  | cons d ds ih =>
    rcases List.mem_append.1 hs with hs | hs
    · rcases t.save_cases d with ⟨-, ⟨e, he⟩, -⟩ | ⟨-, -, hsource, hok, -⟩ | ⟨-, f, -, -, he, -⟩
      · rw [he] at hs
        cases hs
      · rw [hok] at hs
        obtain rfl := List.mem_singleton.1 hs
        exact hsource
      · rw [he] at hs
        obtain rfl := List.mem_singleton.1 hs
        exact List.forall_mem_nil _
    · exact ih hs

/-- A file holds what was left last at its path. -/
theorem get?_files_after {ds : List Draft} (hds : ∀ d ∈ ds, d.Inside) (names : List FileName) :
    (empty.after ds).files.get? (.inside names) =
      (lastLeft (empty.opened ds) names).map RawText.string := by
  have hfiles : (empty.after ds).files =
      .ofList ((empty.opened ds).map fun s => (.inside s.1.fileNames, s.2.string)) :=
    files_after hds empty
  rw [hfiles, OrdMap.get?_ofList, ← List.map_reverse, List.find?_map, Option.map_map, lastLeft,
    Option.map_map]
  simp only [Function.comp_def, Place.inside_inj]

/-- **What is listed**: the files that were opened, with the texts left there last. -/
theorem mem_listing_after_iff {ds : List Draft} (hds : ∀ d ∈ ds, d.Inside) :
    (names, x) ∈ (empty.after ds).listing ↔
      lastLeft (empty.opened ds) names = some (RawText.ofString x) := by
  rw [mem_listing_iff, get?_files_after hds, Option.map_eq_some_iff]
  constructor
  · rintro ⟨text, hlast, rfl⟩
    obtain ⟨s, hs, rfl⟩ := Option.map_eq_some_iff.1 hlast
    have hmem : s ∈ empty.opened ds := List.mem_reverse.1 (List.mem_of_find?_eq_some hs)
    rw [hlast, RawText.ofString_string (wellFormed_of_mem_opened hmem)]
  · intro hlast
    exact ⟨_, hlast, RawText.string_ofString x⟩

/-- An empty stem counts as the default one. -/
theorem save_default (h : d.stem.getD [] = []) :
    t.save d = t.save { d with stem := some Draft.defaultStem } := by
  generalize he : { d with stem := some Draft.defaultStem } = e
  have hsource : d.source = e.source := by rw [← he]
  have hdirectory : d.directoryPath = e.directoryPath := by
    rw [← he]
    rfl
  have hname : d.namePath = e.namePath := by
    rw [← he, Draft.namePath, h, Draft.namePath]
    rfl
  have hfile : d.filePath = e.filePath := by
    rw [Draft.filePath, hdirectory, hname, Draft.filePath]
  unfold save placeOf
  rw [hsource, hdirectory, hname, hfile]

/-! ## Results of saves -/

/-- **When a document is saved**, inside of the working directory, and which path is answered. -/
theorem save_eq_ok_iff (hd : d.Inside) :
    (t.save d).2 = .ok p ↔ p = d.filePath ∧ t.Admits d ∧ d.source.WellFormed := by
  rcases save_inside hd t with ⟨hno, ⟨e, he⟩, -⟩ | ⟨hadmits, hsource, hok, -⟩ | ⟨f, -, hfault, he, -⟩
  · rw [he]
    exact iff_of_false (fun h => by cases h) fun h => hno h.2.1
  · rw [hok, Except.ok.injEq, eq_comm]
    exact (and_iff_left ⟨hadmits, hsource⟩).symm
  · rw [he]
    refine iff_of_false (fun h => by cases h) fun h => ?_
    rw [RawText.fault?_char?_eq_none_iff.2 h.2.2] at hfault
    cases hfault

/-- **When a file is left empty**, inside of the working directory, and which fault is answered. -/
theorem save_eq_notEncodable_iff {f : EncodingFault} (hd : d.Inside) :
    (t.save d).2 = .error (.notEncodable f) ↔
      t.Admits d ∧ d.source.fault? CodePoint.char? = some f := by
  rcases save_inside hd t with ⟨hno, ⟨e, he⟩, -⟩ | ⟨-, hsource, hok, -⟩ | ⟨g, hadmits, hfault, he, -⟩
  · rw [he]
    exact iff_of_false (fun h => by cases h) fun h => hno h.1
  · rw [hok, RawText.fault?_char?_eq_none_iff.2 hsource]
    exact iff_of_false (fun h => by cases h) fun h => by cases h.2
  · rw [he, hfault, Except.error.injEq, SaveError.notEncodable.injEq, Option.some.injEq]
    exact (and_iff_right hadmits).symm

/-- A save that opens no file changes none. -/
theorem files_save_of_notOpened {e : OpenError} (h : (t.save d).2 = .error (.notOpened e)) :
    (t.save d).1.files = t.files := by
  rcases t.save_cases d with ⟨-, -, hfiles⟩ | ⟨-, -, -, hok, -⟩ | ⟨-, f, -, -, he, -⟩
  · exact hfiles
  · rw [h] at hok
    cases hok
  · rw [h] at he
    cases he

theorem files_save_of_notEncodable {f : EncodingFault} (hd : d.Inside)
    (h : (t.save d).2 = .error (.notEncodable f)) :
    (t.save d).1.files = t.files.insert (.inside d.filePath.fileNames) "" := by
  rw [files_save hd, h]
  rfl

theorem files_save_of_ok (hd : d.Inside) (h : (t.save d).2 = .ok p) :
    (t.save d).1.files = t.files.insert (.inside p.fileNames) d.source.string := by
  rw [files_save hd, h]
  rfl

/-- **Which saves write to the same file**: those that answer paths with the same bytes. -/
theorem target?_eq_target?_iff {e : Draft} {q : Path} (hd : d.Inside) (he : e.Inside)
    (hp : (t.save d).2 = .ok p) (hq : (u.save e).2 = .ok q) :
    t.target? d = u.target? e ↔ p.fileNames = q.fileNames := by
  obtain ⟨rfl, hd', -⟩ := (save_eq_ok_iff hd).1 hp
  obtain ⟨rfl, he', -⟩ := (save_eq_ok_iff he).1 hq
  rw [(target?_eq_some_iff hd).2 ⟨rfl, hd'⟩, (target?_eq_some_iff he).2 ⟨rfl, he'⟩,
    Option.some.injEq, Place.inside_inj]

/-- Answered paths without surrogates have the same bytes exactly if they are the same. -/
theorem fileNames_eq_fileNames_iff {e : Draft} {q : Path} (hd : d.Inside) (he : e.Inside)
    (hp : (t.save d).2 = .ok p) (hq : (u.save e).2 = .ok q) (hp' : p.WellFormed)
    (hq' : q.WellFormed) : p.fileNames = q.fileNames ↔ p = q := by
  obtain ⟨rfl, -⟩ := (save_eq_ok_iff hd).1 hp
  obtain ⟨rfl, -⟩ := (save_eq_ok_iff he).1 hq
  rw [Path.fileNames_inj hp' hq', hd.filePath_eq, he.filePath_eq, Path.mk.injEq]
  exact (and_iff_right rfl).symm

/-- What is logged for a save that fails. -/
theorem log_answer_of_error {e : SaveError} (h : (t.save d).2 = .error e) :
    LogEntry.ofSaved (t.answer d) = [] := by
  rw [answer, h, LogEntry.ofSaved]

/-- What is logged for a save that succeeds. -/
theorem log_answer_of_ok (h : (t.save d).2 = .ok p) :
    (LogEntry.ofSaved (t.answer d)).map LogEntry.message =
      [RawText.ofString "Dot file saved to " ++ p.text] := by
  rw [answer, h, LogEntry.ofSaved]
  rfl

/-- **A file holds what was written last to it.**  After every list of saves inside of the working
directory, which was empty, there is one file for each path, byte by byte, that a save opened a file
at, and no other file; it holds what was left there last, which is the text of a save that answered
the path, and nothing if the save failed because its text has surrogates.

A save that fails is not logged.  If it opened no file, it leaves the files as they are; if it
opened one, that file is empty then.  A save that succeeds writes the file of the path that it
answers, and one line that names it is logged; which of all this it is depends on what is in the way
and on the text.  Two saves write to the same file exactly if the paths that they answer have the
same bytes, that is, if they are equal, as long as they have no surrogates.  An empty stem counts as
`out`. -/
theorem files_hold_last_written {ds : List Draft} (hds : ∀ d ∈ ds, d.Inside) :
    let t := empty.after ds
    let opens := empty.opened ds
    let answers := empty.answers ds
    ((t.listing.map Prod.fst).Nodup ∧
      (∀ names x, (names, x) ∈ t.listing ↔ lastLeft opens names = some (RawText.ofString x)) ∧
      (∀ place ∈ t.files.keys, ∃ s ∈ opens, place = .inside s.1.fileNames) ∧ t.Orderly) ∧
    ((∀ d e, (t.save d).2 = .error e → LogEntry.ofSaved (t.answer d) = []) ∧
      (∀ d e, (t.save d).2 = .error (.notOpened e) → (t.save d).1.files = t.files) ∧
      ∀ d f, d.Inside → (t.save d).2 = .error (.notEncodable f) →
        (t.save d).1.files = t.files.insert (.inside d.filePath.fileNames) "") ∧
    (∀ d p, d.Inside → (t.save d).2 = .ok p →
      (t.save d).1.files = t.files.insert (.inside p.fileNames) d.source.string ∧
        RawText.ofString d.source.string = d.source ∧
        (LogEntry.ofSaved (t.answer d)).map LogEntry.message =
          [RawText.ofString "Dot file saved to " ++ p.text]) ∧
    (∀ d, d.Inside →
      (∀ p, (t.save d).2 = .ok p ↔ p = d.filePath ∧ t.Admits d ∧ d.source.WellFormed) ∧
      ∀ f, (t.save d).2 = .error (.notEncodable f) ↔
        t.Admits d ∧ d.source.fault? CodePoint.char? = some f) ∧
    (∀ (u : FileTree) (d e : Draft) (p q : Path), d.Inside → e.Inside →
      (t.save d).2 = .ok p → (u.save e).2 = .ok q →
      (t.target? d = u.target? e ↔ p.fileNames = q.fileNames) ∧
        (p.WellFormed → q.WellFormed → (p.fileNames = q.fileNames ↔ p = q))) ∧
    (∀ d, d.stem.getD [] = [] → t.save d = t.save { d with stem := some (RawText.ofString "out") }) ∧
    (∀ saves, empty.saveAll ds = .ok saves ↔ saves = answers ∧ ∀ s ∈ saves, Continues s) ∧
      answers.flatMap LogEntry.ofSaved =
        (answers.filterMap fun s => s.result.toOption).map .saved := by
  intro t opens answers
  refine ⟨⟨t.nodup_listing, fun names x => mem_listing_after_iff hds, fun place hplace => ?_,
      orderly_after orderly_empty ds⟩,
    ⟨fun d e => log_answer_of_error, fun d e => files_save_of_notOpened,
      fun d f => files_save_of_notEncodable⟩,
    fun d p hd hp => ⟨files_save_of_ok hd hp, ?_, log_answer_of_ok hp⟩,
    fun d hd => ⟨fun p => save_eq_ok_iff hd, fun f => save_eq_notEncodable_iff hd⟩,
    fun u d e p q hd he hp hq => ⟨target?_eq_target?_iff hd he hp hq,
      fileNames_eq_fileNames_iff hd he hp hq⟩,
    fun d => save_default, fun saves => saveAll_eq_ok_iff, flatMap_ofSaved answers⟩
  · rw [files_after hds, OrdMap.mem_keys_insertList] at hplace
    rcases hplace with hnone | hplace
    · cases hnone
    · rw [List.map_map] at hplace
      obtain ⟨s, hs, rfl⟩ := List.mem_map.1 hplace
      exact ⟨s, hs, rfl⟩
  · exact RawText.ofString_string ((save_eq_ok_iff hd).1 hp).2.2

/-- The third save needs a directory that only the fourth makes, so the fifth succeeds where it
failed; the sixth wants a directory where there is a file; the seventh writes to the file of the
first; and the text of the last has a surrogate, which empties the file of the second. -/
theorem files_hold_last_written_in_turn :
    let ds : List Draft :=
      [⟨"A", none, none⟩, ⟨"B", some "x", some "d"⟩, ⟨"C", some "e/y", none⟩,
        ⟨"D", some "y", some "./e/"⟩, ⟨"E", some "e/y", none⟩, ⟨"F", some "z", some "out.dot"⟩,
        ⟨"G", some "", none⟩, ⟨[.char 'H', .surrogate 0], some "x", some "d"⟩]
    let t := empty.after ds
    (∀ d ∈ ds, d.Inside) ∧
      (empty.opened ds).map Prod.snd = ["A", "B", "D", "E", "G", ""].map RawText.ofString ∧
      ((Path.ofText "out.dot").fileNames, "G") ∈ t.listing ∧
      ((Path.ofText "e/y.dot").fileNames, "E") ∈ t.listing ∧
      ((Path.ofText "d/x.dot").fileNames, "") ∈ t.listing ∧
      (∀ x, ((Path.ofText "out.dot/z.dot").fileNames, x) ∉ t.listing) ∧
      (t.save ⟨"I", some "q/y", none⟩).1.files = t.files := by
  intro ds t
  have hds : ∀ d ∈ ds, d.Inside := by decide +kernel
  obtain ⟨⟨-, hlisting, -⟩, ⟨-, hunopened, -⟩, -⟩ := files_hold_last_written hds
  refine ⟨hds, by decide +kernel, (hlisting _ _).2 (by decide +kernel),
    (hlisting _ _).2 (by decide +kernel), (hlisting _ _).2 (by decide +kernel), fun x hx => ?_, ?_⟩
  · have hnone : lastLeft (empty.opened ds) (Path.ofText "out.dot/z.dot").fileNames = none := by
      decide +kernel
    have hlast : lastLeft (empty.opened ds) (Path.ofText "out.dot/z.dot").fileNames =
        some (RawText.ofString x) := (hlisting _ x).1 hx
    rw [hnone] at hlast
    cases hlast
  · have hfails : (t.save ⟨"I", some "q/y", none⟩).2 = .error (.notOpened .parentMissing) := by rfl
    exact hunopened ⟨"I", some "q/y", none⟩ .parentMissing hfails

/-- Saves that fail count, and so do bytes: a save whose text is a surrogate empties the file that
the save before it wrote, though no path is answered; and a stem that spells a character by the two
surrogates for its bytes answers a path of its own, but the file is that of the character. -/
theorem failed_save_empties_file :
    (let t := empty.after [⟨"A", some "x", none⟩]
      let d : Draft := ⟨[.surrogate 0], some "x", none⟩
      t.listing = [((Path.ofText "x.dot").fileNames, "A")] ∧ d.Inside ∧
        (t.save d).2 = .error (.notEncodable ⟨0, [.surrogate 0]⟩) ∧
        (t.save d).1.listing = [((Path.ofText "x.dot").fileNames, "")]) ∧
    (let d : Draft := ⟨"A", some "é", none⟩
      let e : Draft := ⟨"B", some [.surrogate 0x4C3, .surrogate 0x4A9], none⟩
      d.Inside ∧ e.Inside ∧ (empty.save d).2 = .ok d.filePath ∧
        ((empty.save d).1.save e).2 = .ok e.filePath ∧ d.filePath ≠ e.filePath ∧
        (empty.after [d, e]).listing = [((Path.ofText "é.dot").fileNames, "B")]) := by
  decide +kernel

end FileTree

end DotBuilder
