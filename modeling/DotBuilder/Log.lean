import DotBuilder.File.Session
import DotBuilder.Report

/-!
# The log

What an operation notes down for the record: each name that it stored though the context does not
take it, and each file that it wrote.
-/

namespace DotBuilder

/-- A note. -/
inductive LogEntry where
  /-- An attribute set stored a name that its context does not take. -/
  | warned (w : Warning)
  /-- A document was saved to the file of a path. -/
  | saved (p : Path)
  deriving DecidableEq, Repr

namespace LogEntry

/-- The wording of a note. -/
def message : LogEntry → RawText
  | warned w => w.message
  | saved p => RawText.ofString "Dot file saved to " ++ p.text

/-- The notes on how a save ended: one if the file was written. -/
def ofSaved (s : Saved) : List LogEntry :=
  match s.result with
  | .ok p => [saved p]
  | .error _ => []

/-- The notes on what an assignment found. -/
def ofFindings (r : Findings) : List LogEntry := r.warnings.map warned

end LogEntry

end DotBuilder
