import DotBuilder.Error
import DotBuilder.File.Tree

/-!
# Saving one document after another

A save answers how it ended and which files are there then.  A document whose path has a null
character, or whose path or text cannot be encoded, ends the session: there is no answer for the
documents before it either.
-/

namespace DotBuilder

/-- How a save ended, and the files that are in the working directory then. -/
structure Saved where
  /-- The path of the file, or why there is none. -/
  result : Except SaveError Path
  /-- The files with their contents. -/
  files : List (List FileName × String)

/-- The error that a session ends with, if it does not go on after a save that failed like this. -/
def SaveError.ending? : SaveError → Option Error
  | notOpened .nullInPath => some .nullInPath
  | notOpened (.notEncodable f) => some (.notEncodable f)
  | notOpened _ => none
  | notEncodable f => some (.notEncodable f)

namespace FileTree

/-- Saves a document. -/
def attempt (t : FileTree) (d : Draft) : Except Error (FileTree × Saved) :=
  let (t', result) := t.save d
  let saved : Saved := ⟨result, t'.listing⟩
  match result with
  | .ok _ => .ok (t', saved)
  | .error e => e.ending?.elim (.ok (t', saved)) .error

/-- Saves documents one after another. -/
def saveAll (t : FileTree) : List Draft → Except Error (List Saved)
  | [] => .ok []
  | d :: ds => do
    let (t', s) ← t.attempt d
    let rest ← t'.saveAll ds
    pure (s :: rest)

end FileTree

end DotBuilder
