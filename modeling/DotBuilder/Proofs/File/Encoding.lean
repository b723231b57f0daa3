import DotBuilder.File.Tree
import Mathlib.Data.List.Basic
import Mathlib.Data.List.TakeWhile
import Mathlib.Tactic.SplitIfs

/-!
# Encoded texts

A text goes into a file as the string that it is, if it has no surrogates; and it goes into the name
of a file as bytes, if it has no surrogates but those that stand for bytes.  Nothing is lost in the
first case.  In the second two names become one exactly where one spells the bytes of a character
one by one, so names without surrogates stay apart, and only the double dot becomes the name that
leads up.

* `fault?_eq_none_iff` : what can be encoded;
* `ofString_string` : a string is the text that it was made of;
* `Path.fileNames_inj`, `Path.up_notMem_fileNames` : paths without surrogates, and without double
  dots, as the file system has them.
-/

namespace DotBuilder

namespace RawText

variable {t u : RawText} {α : Type}

/-! ## Faults -/

/-- **What can be encoded**: a text whose code points have codes. -/
theorem fault?_eq_none_iff {code : CodePoint → Option α} :
    t.fault? code = none ↔ ∀ c ∈ t, code c ≠ none := by
  have hnil : t.fault? code = none ↔ (t.dropWhile fun c => (code c).isSome) = [] := by
    unfold fault?
    split <;> simp_all
  rw [hnil, List.dropWhile_eq_nil_iff]
  simp only [Option.isSome_iff_ne_none]

theorem fault?_char?_eq_none_iff : t.fault? CodePoint.char? = none ↔ t.WellFormed :=
  fault?_eq_none_iff

/-! ## Texts of strings -/

theorem string_ofString (s : String) : (ofString s).string = s := by
  have hchars : (ofString s).filterMap CodePoint.char? = s.toList := by
    rw [ofString, List.filterMap_map]
    exact List.filterMap_some
  rw [string, hchars, String.ofList_toList]

/-- A text without surrogates is that of its string. -/
theorem ofString_string (ht : t.WellFormed) : ofString t.string = t := by
  rw [ofString, string, String.toList_ofList]
  induction t with
  | nil => rfl
  | cons c t ih =>
    obtain ⟨hc, hrest⟩ := List.forall_mem_cons.1 ht
    cases c with
    | char c => exact congrArg (CodePoint.char c :: ·) (ih hrest)
    | surrogate index => exact absurd rfl hc

/-! ## Bytes of names -/

/-- The bytes of strings tell them apart. -/
theorem fileBytes_ofString_injective :
    Function.Injective fun s => (ofString s).fileBytes := by
  intro s u h
  have hbytes : ∀ s, (ofString s).fileBytes = s.toList.flatMap String.utf8EncodeChar := by
    intro s
    rw [fileBytes, ofString, List.flatMap_map]
    rfl
  simp only [hbytes] at h
  have hencoded : s.toList.utf8Encode = u.toList.utf8Encode := congrArg List.toByteArray h
  rw [← String.toByteArray_ofList, ← String.toByteArray_ofList, String.toByteArray_inj] at hencoded
  simpa only [String.ofList_toList] using hencoded

end RawText

/-- A code point whose code starts below 0x80 is the character of that number, and its code is one
byte. -/
theorem CodePoint.eq_char_of_fileCode? {c : CodePoint} {b : UInt8} {rest : List UInt8}
    (h : c.fileCode? = some (b :: rest)) (hb : b.toNat < 0x80) :
    c = .char (Char.ofNat b.toNat) ∧ rest = [] := by
  cases c with
  | char c =>
    simp only [fileCode?, Option.some.injEq, String.utf8EncodeChar] at h
    -- only the form with a single byte starts so low
    split_ifs at h with hone
    · obtain ⟨rfl, rfl⟩ := List.cons.inj h
      refine ⟨congrArg char ?_, rfl⟩
      rw [UInt8.toNat_ofNat', Nat.mod_eq_of_lt (by omega)]
      exact (Char.ofNat_toNat c).symm
    all_goals
      obtain ⟨rfl, -⟩ := List.cons.inj h
      rw [UInt8.toNat_ofNat'] at hb
      omega
  | surrogate index =>
    simp only [fileCode?] at h
    split_ifs at h
    obtain ⟨rfl, -⟩ := List.cons.inj (Option.some.inj h)
    rw [UInt8.toNat_ofNat'] at hb
    omega

theorem CodePoint.fileCode?_ne_nil (c : CodePoint) : c.fileCode? ≠ some [] := by
  cases c with
  | char c =>
    intro h
    have hlength := congrArg List.length (Option.some.inj h)
    rw [String.length_utf8EncodeChar] at hlength
    exact absurd hlength (Nat.ne_of_gt c.utf8Size_pos)
  | surrogate index =>
    unfold fileCode?
    split <;> simp

namespace RawText

variable {t : RawText}

/-- A name that starts below 0x80 starts with a character. -/
theorem eq_cons_of_fileBytes {b : UInt8} {bytes : List UInt8} (ht : ∀ c ∈ t, c.fileCode? ≠ none)
    (h : t.fileBytes = b :: bytes) (hb : b.toNat < 0x80) :
    ∃ rest, t = .char (Char.ofNat b.toNat) :: rest ∧ RawText.fileBytes rest = bytes ∧
      ∀ c ∈ rest, c.fileCode? ≠ none := by
  cases t with
  | nil => cases h
  | cons c rest =>
    obtain ⟨hc, hrest⟩ := List.forall_mem_cons.1 ht
    obtain ⟨code, hcode⟩ := Option.ne_none_iff_exists'.1 hc
    rw [fileBytes, List.flatMap_cons, hcode] at h
    cases code with
    | nil => exact absurd hcode c.fileCode?_ne_nil
    | cons first more =>
      obtain ⟨rfl, hmore⟩ := List.cons.inj h
      obtain ⟨rfl, rfl⟩ := CodePoint.eq_char_of_fileCode? hcode hb
      exact ⟨rest, rfl, hmore, hrest⟩

/-- Only the double dot becomes the name that leads up. -/
theorem eq_of_fileBytes_eq_up (ht : ∀ c ∈ t, c.fileCode? ≠ none) (h : t.fileBytes = .up) :
    t = ofString ".." := by
  obtain ⟨t, rfl, h, ht⟩ := eq_cons_of_fileBytes ht h (by decide)
  obtain ⟨t, rfl, h, ht⟩ := eq_cons_of_fileBytes ht h (by decide)
  cases t with
  | nil => decide
  | cons c t =>
    obtain ⟨code, hcode⟩ := Option.ne_none_iff_exists'.1 (ht c List.mem_cons_self)
    rw [fileBytes, List.flatMap_cons, hcode, List.append_eq_nil_iff] at h
    exact absurd (hcode.trans (congrArg some h.1)) c.fileCode?_ne_nil

end RawText

/-! ## Paths -/

namespace Path

variable {p q : Path}

/-- The code points of a path's names stand in its text. -/
theorem mem_text {name : RawText} {c : CodePoint} (hname : name ∈ p.names) (hc : c ∈ name) :
    c ∈ p.text := by
  have hne : ¬ (p.root = .noSlash ∧ p.names = []) := fun h => List.ne_nil_of_mem hname h.2
  rw [text, if_neg hne]
  refine List.mem_append_right _ (List.mem_flatten.2 ⟨name, ?_, hc⟩)
  generalize p.names = names at hname
  induction names with
  | nil => cases hname
  | cons first rest ih =>
    cases rest with
    | nil => exact hname
    | cons second rest =>
      rw [List.intersperse_cons_cons]
      rcases List.mem_cons.1 hname with rfl | hname
      · exact List.mem_cons_self
      · exact List.mem_cons_of_mem _ (List.mem_cons_of_mem _ (ih hname))

/-- A path without double dots has no name that leads up. -/
theorem up_notMem_fileNames (hp : p.fault? = none) (hnames : RawText.ofString ".." ∉ p.names) :
    .up ∉ p.fileNames := by
  have htext : p.text.fault? CodePoint.fileCode? = none := by
    unfold fault? at hp
    split at hp
    · cases hp
    · assumption
  intro hup
  obtain ⟨name, hname, h⟩ := List.mem_map.1 hup
  refine hnames ?_
  rwa [← RawText.eq_of_fileBytes_eq_up (fun c hc => ?_) h]
  exact RawText.fault?_eq_none_iff.1 htext c (mem_text hname hc)

/-- A path whose names have no surrogates. -/
def WellFormed (p : Path) : Prop := ∀ name ∈ p.names, name.WellFormed

/-- Names without surrogates stay apart in the file system. -/
theorem fileNames_inj (hp : p.WellFormed) (hq : q.WellFormed) :
    p.fileNames = q.fileNames ↔ p.names = q.names := by
  have hstrings : ∀ {p : Path}, p.WellFormed → ∃ ss : List String, p.names = ss.map RawText.ofString := by
    intro p hp
    refine ⟨p.names.map RawText.string, ?_⟩
    rw [List.map_map, List.map_congr_left fun name hname => ?_, List.map_id]
    exact RawText.ofString_string (hp name hname)
  refine ⟨fun h => ?_, fun h => congrArg (List.map RawText.fileBytes) h⟩
  obtain ⟨ss, hss⟩ := hstrings hp
  obtain ⟨us, hus⟩ := hstrings hq
  rw [fileNames, fileNames, hss, hus, List.map_map, List.map_map] at h
  rw [hss, hus, RawText.fileBytes_ofString_injective.list_map h]

end Path

end DotBuilder
