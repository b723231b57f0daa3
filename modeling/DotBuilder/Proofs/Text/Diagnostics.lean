import DotBuilder.Proofs.Ports.Calls
import DotBuilder.Proofs.Text.Delimited
import DotBuilder.Proofs.Text.Literals

/-!
# Diagnostics tell the texts that they quote

A graph is shown by its kind and its name, and a text that is no compass point is refused with a
message that shows it.  Both are quoted there, so whatever characters they have, one can read off a
diagnostic what it is about.

* `Text.rejectsControls_isPrintable` : the table of printable characters has no controls, so all
  that is known of quoted texts is known of those in diagnostics;
* `Workspace.describe_eq_iff`, `Error.message_unknownCompass_eq_iff` : which diagnostics are the
  same;
* `diagnostics_tell_text` : they are the same only for the same, and quote what they are about.
-/

namespace DotBuilder

/-! ## Quoting in diagnostics -/

theorem Text.rejectsControls_isPrintable : RejectsControls isPrintable := by
  intro c hc
  have houtside : ∀ r ∈ printableRanges, 0x20 ≤ r.1 ∧ r.2 < 0x7f ∨ 0x9f < r.1 := by decide +kernel
  rw [← Bool.not_eq_true]
  intro hprintable
  obtain ⟨r, hr, hbetween⟩ := List.any_eq_true.1 hprintable
  simp only [Bool.and_eq_true, decide_eq_true_eq] at hbetween
  have hout := houtside r hr
  unfold IsControl at hc
  omega

theorem standsFor_quoteText (s : String) : Text.StandsFor (quoteText s) s :=
  Text.standsFor_quote Text.rejectsControls_isPrintable s

theorem quoteText_inj {s t : String} : quoteText s = quoteText t ↔ s = t :=
  Text.quote_inj Text.rejectsControls_isPrintable

/-! ## Graphs -/

theorem Kind.label_inj {k l : Kind} : k.label = l.label ↔ k = l := by
  cases k <;> cases l <;> decide

theorem Kind.notMem_label (k : Kind) : '(' ∉ k.label.toList := by
  cases k <;> decide

/-- Graphs are shown alike only if they are of one kind and have one name. -/
theorem Workspace.describe_eq_iff {w w' : Workspace} {g g' : GraphId} :
    w.describe g = w'.describe g' ↔
      (w.graph g).kind = (w'.graph g').kind ∧ (w.graph g).name = (w'.graph g').name := by
  constructor
  · intro h
    have hkind : (w.graph g).kind = (w'.graph g').kind := by
      have hchars := congrArg String.toList h
      simp only [describe, String.toList_append, List.append_assoc] at hchars
      have hlabel := (Text.append_cons_inj (Kind.notMem_label _) (Kind.notMem_label _) hchars).1
      exact Kind.label_inj.1 (String.toList_inj.1 hlabel)
    rw [describe, describe, hkind, String.append_left_inj, String.append_right_inj] at h
    exact ⟨hkind, quoteText_inj.1 h⟩
  · rintro ⟨hkind, hname⟩
    rw [describe, describe, hkind, hname]

/-! ## Compass texts -/

theorem Error.message_unknownCompass_eq_iff {s t : String} :
    (unknownCompass s).message = (unknownCompass t).message ↔ s = t := by
  constructor
  · intro h
    exact quoteText_inj.1 ((String.append_right_inj _).1 h)
  · rintro rfl
    rfl

/-! ## Both -/

/-- **Diagnostics tell the texts that they quote.**  Graphs of whatever workspaces are shown alike
iff they are of one kind and have one name.  A text that means nothing as a compass text is refused,
and two of them with one message iff they are the same text.  Between the words that are always
there stands a literal of the name or the text: it is read as such, up to its end, and shows no
controls.  It is so with all quoted texts, whatever is taken for printable, as long as controls are
not. -/
theorem diagnostics_tell_text :
    (∀ (w : Workspace) (g : GraphId),
      (∃ quoted, Text.StandsFor quoted (w.graph g).name ∧
        w.describe g = (w.graph g).kind.label ++ "(id=" ++ quoted ++ ")") ∧
      ∀ (w' : Workspace) (g' : GraphId), w.describe g = w'.describe g' ↔
        (w.graph g).kind = (w'.graph g').kind ∧ (w.graph g).name = (w'.graph g').name) ∧
    (∀ s : String, (∀ c, ¬ Compass.Gives (some s) c) →
      Compass.ofText (some s) = .error (.unknownCompass s) ∧
        (∃ quoted, Text.StandsFor quoted s ∧
          (Error.unknownCompass s).message = "Unknown compass point: " ++ quoted) ∧
        ∀ t, (Error.unknownCompass s).message = (Error.unknownCompass t).message ↔ s = t) ∧
    ∀ printable, Text.RejectsControls printable → ∀ s : String,
      Text.StandsFor (Text.quote printable s) s ∧
        ∀ t, Text.quote printable s = Text.quote printable t ↔ s = t := by
  refine ⟨fun w g => ⟨?_, fun w' g' => Workspace.describe_eq_iff⟩, fun s hs => ⟨?_, ?_, ?_⟩, ?_⟩
  · exact ⟨quoteText (w.graph g).name, standsFor_quoteText _, rfl⟩
  · exact Compass.ofText_eq_error_iff.2 ⟨hs, s, rfl, rfl⟩
  · exact ⟨quoteText s, standsFor_quoteText s, rfl⟩
  · exact fun t => Error.message_unknownCompass_eq_iff
  · exact fun printable hp s => ⟨Text.standsFor_quote hp s, fun t => Text.quote_inj hp⟩

/-- A graph whose name has the usual mark is quoted with the other one.  A compass text that ends
with a line break is not shown like one that ends with a backslash and a letter.  Where only plain
characters are printable, an accented letter is escaped, and what looks like a further digit of its
number is none. -/
theorem diagnostics_tell_text_escapes :
    let w := (Workspace.empty.run [.newGraph .directed "it's" false]).1
    let plain (c : Char) : Bool := decide (0x20 ≤ c.toNat ∧ c.toNat < 0x7f)
    w.describe ⟨0⟩ = "Digraph(id=\"it's\")" ∧
      (∃ quoted, Text.StandsFor quoted "it's" ∧
        w.describe ⟨0⟩ = Kind.directed.label ++ "(id=" ++ quoted ++ ")") ∧
      (∀ c, ¬ Compass.Gives (some "n\n") c) ∧
      (Error.unknownCompass "n\n").message = "Unknown compass point: 'n\\n'" ∧
      (Error.unknownCompass "n\n").message ≠ (Error.unknownCompass "n\\n").message ∧
      Text.RejectsControls plain ∧ Text.quote plain "éa" = "'\\xe9a'" ∧
      Text.StandsFor "'\\xe9a'" "éa" := by
  intro w plain
  obtain ⟨hgraph, hcompass, hquote⟩ := diagnostics_tell_text
  have hbreak : Compass.ofText (some "n\n") = .error (.unknownCompass "n\n") := by decide +kernel
  have hnone := (Compass.ofText_eq_error_iff.1 hbreak).1
  have hplain : Text.RejectsControls plain := by
    intro c hc
    unfold Text.IsControl at hc
    have hout : ¬ (0x20 ≤ c.toNat ∧ c.toNat < 0x7f) := by omega
    exact decide_eq_false hout
  have htext : Text.quote plain "éa" = "'\\xe9a'" := by decide +kernel
  refine ⟨by decide +kernel, (hgraph w ⟨0⟩).1, hnone, by decide +kernel, ?_, hplain, htext,
    htext ▸ (hquote plain hplain "éa").1⟩
  intro h
  have hsame : "n\n" = "n\\n" := ((hcompass "n\n" hnone).2.2 _).1 h
  exact absurd hsame (by decide)

end DotBuilder
