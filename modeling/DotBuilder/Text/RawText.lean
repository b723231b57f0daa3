import DotBuilder.Text.Quoted

/-!
# Texts with surrogates

A `String` is a row of characters.  A text from outside may have surrogates as well: code points
that stand for no character by themselves.  A `RawText` is a row of code points of either kind.

What is made of such a text depends on where it goes.  A file holds UTF-8, which has a form for
characters only, so nothing but a `String` can be written to it.  In the name of a file some of the
surrogates stand for the bytes from 0x80 up, one for each; so a name may be spelled in two ways, by a
character or by surrogates for the bytes of that character.  The other surrogates have no form there
either.

An encoding is given by the code that it has for each code point, if any: `CodePoint.char?` and
`CodePoint.fileCode?`.  `RawText.fault?` tells which code points of a text an encoding has no code
for.
-/

namespace DotBuilder

/-! ## Code points -/

/-- A code point. -/
inductive CodePoint where
  /-- A character. -/
  | char (c : Char)
  /-- One of the 2048 surrogates, counted from 0xD800. -/
  | surrogate (index : Fin 2048)
  deriving DecidableEq, Repr

namespace CodePoint

/-- The number of a code point. -/
def number : CodePoint → Nat
  | char c => c.toNat
  | surrogate index => 0xD800 + index.val

/-- The character that a code point is, if it is one. -/
def char? : CodePoint → Option Char
  | char c => some c
  | surrogate _ => none

/-- The bytes of a code point in the name of a file: those of UTF-8 for a character, and for a
surrogate from 0xDC80 to 0xDCFF the byte that ends like it. -/
def fileCode? : CodePoint → Option (List UInt8)
  | char c => some (String.utf8EncodeChar c)
  | surrogate index =>
    if 0x480 ≤ index.val ∧ index.val < 0x500 then some [UInt8.ofNat (index.val - 0x400)] else none

end CodePoint

/-! ## Texts -/

/-- A text that may have surrogates. -/
abbrev RawText := List CodePoint

/-- The name of a file or directory as the file system has it. -/
abbrev FileName := List UInt8

/-- Code points that an encoding has no code for. -/
structure EncodingFault where
  /-- The number of code points before the first without a code. -/
  start : Nat
  /-- That code point, and the surrogates right after it. -/
  run : RawText
  deriving DecidableEq, Repr

/-- The wording of a fault. -/
def EncodingFault.message (f : EncodingFault) : String :=
  let refusal :=
    match f.run with
    | [c] =>
      "character '\\u" ++ String.ofList (Text.hexDigits 4 c.number) ++ "' in position " ++
        toString f.start
    | run =>
      "characters in position " ++ toString f.start ++ "-" ++ toString (f.start + run.length - 1)
  "'utf-8' codec can't encode " ++ refusal ++ ": surrogates not allowed"

namespace RawText

/-- The text of a string. -/
def ofString (s : String) : RawText := s.toList.map .char

instance : Coe String RawText := ⟨ofString⟩

/-- The characters of a text; surrogates are left out. -/
def string (t : RawText) : String := String.ofList (t.filterMap CodePoint.char?)

/-- The bytes of a text in the name of a file; code points without a code are left out. -/
def fileBytes (t : RawText) : FileName := t.flatMap fun c => c.fileCode?.getD []

/-- A text without surrogates. -/
def WellFormed (t : RawText) : Prop := ∀ c ∈ t, c.char? ≠ none

/-- The first code points of a text that an encoding has no code for. -/
def fault? {α : Type} (code : CodePoint → Option α) (t : RawText) : Option EncodingFault :=
  match t.dropWhile fun c => (code c).isSome with
  | [] => none
  | c :: rest =>
    some ⟨(t.takeWhile fun c => (code c).isSome).length,
      c :: rest.takeWhile fun c => c.char?.isNone⟩

end RawText

end DotBuilder
