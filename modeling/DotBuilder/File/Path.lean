import DotBuilder.Text.RawText

/-!
# Paths

A path is a list of names, read off a text by splitting it at slashes.  Empty names and single dots
name nothing and are dropped.  A double dot is kept: where it leads is known only when the path is
followed.  A text that starts with a slash gives a path from the top of the file system, any other a
path from the working directory.

Slashes at the start count as one, but for exactly two: these stay two in the text of the path, and
make it one character longer, though they too stand for the top.

The names of a path are texts, those of a place are what the file system makes of them.  Two paths
may lead to one place, if one spells with surrogates what the other spells with characters.
-/

namespace DotBuilder

/-- What a path starts with. -/
inductive Root where
  /-- No slash: the path starts at the working directory. -/
  | noSlash
  /-- One slash: the path starts at the top. -/
  | slash
  /-- Two slashes: the path starts at the top. -/
  | doubleSlash
  deriving DecidableEq, Repr

namespace Root

/-- The text of a root. -/
def text : Root → String
  | noSlash => ""
  | slash => "/"
  | doubleSlash => "//"

/-- The root of a path whose text starts with a number of slashes. -/
def ofSlashes : Nat → Root
  | 0 => noSlash
  | 2 => doubleSlash
  | _ => slash

end Root

/-- A path. -/
structure Path where
  /-- What the path starts with. -/
  root : Root
  /-- The names to follow. -/
  names : List RawText
  deriving DecidableEq, Repr

namespace Path

/-- The pieces of a text between slashes. -/
def splitSlash : RawText → List RawText
  | [] => [[]]
  | c :: cs =>
    if c = .char '/' then [] :: splitSlash cs
    else
      match splitSlash cs with
      | [] => [[c]]
      | p :: ps => (c :: p) :: ps

/-- The path of a text. -/
def ofText (t : RawText) : Path where
  root := .ofSlashes (t.takeWhile fun c => decide (c = .char '/')).length
  names := (splitSlash t).filter fun p => decide (p ≠ [] ∧ p ≠ [.char '.'])

/-- The text of a path; that of the working directory is a dot. -/
def text (p : Path) : RawText :=
  if p.root = .noSlash ∧ p.names = [] then [.char '.']
  else RawText.ofString p.root.text ++ [.char '/'].intercalate p.names

/-- The names of a path as the file system has them. -/
def fileNames (p : Path) : List FileName := p.names.map RawText.fileBytes

/-- Whether a path starts at the top and not at the working directory. -/
def isAbsolute (p : Path) : Bool := decide (p.root ≠ .noSlash)

/-- The path that goes on with a second one, unless that starts anew. -/
def join (p q : Path) : Path := if q.isAbsolute then q else ⟨p.root, p.names ++ q.names⟩

end Path

/-! ## Places -/

/-- The directory that a place is given from. -/
inductive Anchor where
  /-- The top of the file system. -/
  | top
  /-- The working directory, or a number of levels above it. -/
  | above (levels : Nat)
  deriving DecidableEq, Repr

/-- Where a file or directory is: from an anchor down.  No name is a double dot. -/
structure Place where
  /-- Where to start. -/
  anchor : Anchor
  /-- The directories to go down through, and the last name. -/
  names : List FileName
  deriving DecidableEq, Repr

/-- The name that leads to the directory above. -/
def FileName.up : FileName := [0x2E, 0x2E]

namespace Place

/-- The place that a path starts at. -/
def start (p : Path) : Place := ⟨if p.isAbsolute then .top else .above 0, []⟩

/-- The directory of a place; that of the top is the top itself. -/
def parent (p : Place) : Place :=
  match p.anchor, p.names with
  | .top, [] => p
  | .above levels, [] => ⟨.above (levels + 1), []⟩
  | anchor, names => ⟨anchor, names.dropLast⟩

/-- The place of a name in the directory of a place. -/
def child (p : Place) (name : FileName) : Place := ⟨p.anchor, p.names ++ [name]⟩

/-- Where a name leads from the directory of a place. -/
def enter (p : Place) (name : FileName) : Place := if name = .up then p.parent else p.child name

/-- The names that lead from the working directory to a place inside of it. -/
def inside? (p : Place) : Option (List FileName) :=
  if p.anchor = .above 0 then some p.names else none

end Place

end DotBuilder
