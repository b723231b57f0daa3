import DotBuilder.File.Path
import DotBuilder.OrdMap.Basic

/-!
# Saving documents to files

A file tree holds the directories and files that were made in and around a working directory;
outside of it nothing but the directories above it is taken to be there.  `FileTree.save` writes a
document to a file: it makes the directory with all directories on the way to it, opens the file and
writes the text.  The name of the file may itself lead through directories; these are not made.

Opening a file makes it, or takes away what it held, before it is known whether the text can be
written.  A text with surrogates cannot, and the file is left empty then.  A save that fails before
it opens its file leaves all files as they are, but the directories that it made remain.
-/

namespace DotBuilder

/-- Why the file of a path was not opened, or its directory not made. -/
inductive OpenError where
  /-- The directory to make is a file. -/
  | directoryIsFile
  /-- The path leads through a file. -/
  | notDirectory
  /-- The directory of the file is missing. -/
  | parentMissing
  /-- The file to write is a directory. -/
  | fileIsDirectory
  /-- A name or the whole path is too long. -/
  | tooLong
  /-- The path has a null character. -/
  | nullInPath
  /-- The path has surrogates that names of files have no form for. -/
  | notEncodable (f : EncodingFault)
  deriving DecidableEq, Repr

/-- Why a document was not saved. -/
inductive SaveError where
  /-- Its file was not opened. -/
  | notOpened (e : OpenError)
  /-- Its file was opened, but its text has surrogates. -/
  | notEncodable (f : EncodingFault)
  deriving DecidableEq, Repr

/-- A document to save: its text, and the stem and the directory of its file where given. -/
structure Draft where
  /-- The text. -/
  source : RawText
  /-- The name of the file without its ending. -/
  stem : Option RawText
  /-- The directory of the file. -/
  directory : Option RawText
  deriving DecidableEq, Repr

namespace Draft

/-- The stem that counts when none, or an empty one, is given. -/
def defaultStem : RawText := "out"

/-- The path of the directory; without one it is the working directory. -/
def directoryPath (d : Draft) : Path := Path.ofText (d.directory.getD [])

/-- The path of the file from its directory. -/
def namePath (d : Draft) : Path :=
  let given := d.stem.getD []
  Path.ofText ((if given = [] then defaultStem else given) ++ RawText.ofString ".dot")

/-- The path of the file. -/
def filePath (d : Draft) : Path := d.directoryPath.join d.namePath

end Draft

/-! ## Limits -/

/-- The greatest number of bytes of a name. -/
def nameLimit : Nat := 255

/-- The greatest number of bytes of a path's text. -/
def pathLimit : Nat := 4095

/-- What is wrong with a path before it is followed. -/
def Path.fault? (p : Path) : Option OpenError :=
  match p.text.fault? CodePoint.fileCode? with
  | some f => some (.notEncodable f)
  | none =>
    if .char (Char.ofNat 0) ∈ p.text then some .nullInPath
    else if pathLimit < p.text.fileBytes.length then some .tooLong
    else none

/-! ## The tree -/

/-- The directories and files in and around a working directory. -/
structure FileTree where
  /-- The directories that were made. -/
  directories : List Place
  /-- The files with their contents. -/
  files : OrdMap Place String

namespace FileTree

/-- The tree with an empty working directory. -/
def empty : FileTree := ⟨[], .empty⟩

/-- Whether there is a file at a place. -/
def hasFile (t : FileTree) (p : Place) : Bool := t.files.contains p

/-- Whether there is a directory at a place. -/
def hasDirectory (t : FileTree) (p : Place) : Bool :=
  decide (p.names = []) || decide (p ∈ t.directories)

/-- The tree with a further directory. -/
def withDirectory (t : FileTree) (p : Place) : FileTree :=
  { t with directories := t.directories ++ [p] }

/-- The tree in which a file holds a text. -/
def put (t : FileTree) (p : Place) (text : String) : FileTree :=
  { t with files := t.files.insert p text }

/-- Makes the directories that names lead through from a directory, and answers where they lead.

A file on the way is not a directory to go through, as long as all directories before it were there.
Behind the first one that was missing, each directory is one to be made, and then the file stands in
the place of such.  The same holds of the last name. -/
def makeDirectories (t : FileTree) (here : Place) (missing : Bool) :
    List FileName → FileTree × Except OpenError Place
  | [] => (t, .ok here)
  | name :: rest =>
    let next := here.enter name
    if nameLimit < name.length then (t, .error .tooLong)
    else if t.hasFile next then
      (t, .error (if missing || rest.isEmpty then .directoryIsFile else .notDirectory))
    else if t.hasDirectory next then t.makeDirectories next missing rest
    else (t.withDirectory next).makeDirectories next true rest

/-- The place of the file that names lead to from a directory. -/
def locate (t : FileTree) (here : Place) : List FileName → Except OpenError Place
  | [] => .error .fileIsDirectory
  | name :: rest =>
    let next := here.enter name
    if nameLimit < name.length then .error .tooLong
    else if rest.isEmpty then
      if t.hasDirectory next then .error .fileIsDirectory else .ok next
    else if t.hasDirectory next then t.locate next rest
    else if t.hasFile next then .error .notDirectory
    else .error .parentMissing

/-- Makes the directory of a path, and answers its place. -/
def prepare (t : FileTree) (p : Path) : FileTree × Except OpenError Place :=
  match p.fault? with
  | some e => (t, .error e)
  | none => t.makeDirectories (Place.start p) false p.fileNames

/-- The place of a document's file, whose directory is at `here`. -/
def placeOf (t : FileTree) (d : Draft) (here : Place) : Except OpenError Place :=
  match d.filePath.fault? with
  | some e => .error e
  | none =>
    t.locate (if d.namePath.isAbsolute then Place.start d.namePath else here)
      d.namePath.fileNames

/-- Writes a text to the file at a place.  The file is opened first, and is empty then. -/
def write (t : FileTree) (place : Place) (source : RawText) : FileTree × Except SaveError Unit :=
  let opened := t.put place ""
  match source.fault? CodePoint.char? with
  | some f => (opened, .error (.notEncodable f))
  | none => (opened.put place source.string, .ok ())

/-- Writes a document to its file, and answers the path of the file. -/
def save (t : FileTree) (d : Draft) : FileTree × Except SaveError Path :=
  match t.prepare d.directoryPath with
  | (t', .error e) => (t', .error (.notOpened e))
  | (t', .ok here) =>
    match t'.placeOf d here with
    | .error e => (t', .error (.notOpened e))
    | .ok place =>
      let (t'', written) := t'.write place d.source
      (t'', written.map fun _ => d.filePath)

/-- The names that lead to a file, joined by slashes. -/
def joined (names : List FileName) : List UInt8 := [0x2F].intercalate names

/-- The files in the working directory with their contents, in the order of their paths, byte by
byte.  A slash counts as a byte too, so a file `a.dot` comes before the files of a directory `a`. -/
def listing (t : FileTree) : List (List FileName × String) :=
  (t.files.entries.filterMap fun e => e.1.inside?.map fun names => (names, e.2)).mergeSort
    fun a b => decide (joined a.1 ≤ joined b.1)

end FileTree

end DotBuilder
