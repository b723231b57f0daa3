/-!
# Quoted texts

The form in which diagnostics show a text so that it can be read back: between quotation marks, with
escapes for the mark itself, the backslash, line breaks, tabs and every character that is not
printable.  The mark is `'`, unless the text has one and has no `"`.

Which characters are printable is a parameter here; see `DotBuilder.Text.isPrintable`.
-/

namespace DotBuilder.Text

/-- The single quotation mark. -/
def singleMark : Char := Char.ofNat 39

/-- The double quotation mark. -/
def doubleMark : Char := Char.ofNat 34

/-- The mark that a text is quoted with. -/
def markFor (s : List Char) : Char :=
  if singleMark ∈ s ∧ doubleMark ∉ s then doubleMark else singleMark

/-- The last `width` hexadecimal digits of a number, in lower case. -/
def hexDigits : Nat → Nat → List Char
  | 0, _ => []
  | width + 1, n => hexDigits width (n / 16) ++ [Nat.digitChar (n % 16)]

/-- The escape that names a character by its code point, with two, four or eight digits: the
shortest form that the number fits. -/
def codeEscape (c : Char) : List Char :=
  let n := c.toNat
  if n < 0x100 then '\\' :: 'x' :: hexDigits 2 n
  else if n < 0x10000 then '\\' :: 'u' :: hexDigits 4 n
  else '\\' :: 'U' :: hexDigits 8 n

/-- A character as it stands inside a quoted text. -/
def escapeChar (printable : Char → Bool) (mark c : Char) : List Char :=
  if c = mark ∨ c = '\\' then ['\\', c]
  else if c = '\n' then ['\\', 'n']
  else if c = '\r' then ['\\', 'r']
  else if c = '\t' then ['\\', 't']
  else if printable c then [c]
  else codeEscape c

/-- The characters of a text in quotation marks. -/
def quoteChars (printable : Char → Bool) (s : List Char) : List Char :=
  markFor s :: (s.flatMap (escapeChar printable (markFor s)) ++ [markFor s])

/-- A text in quotation marks. -/
def quote (printable : Char → Bool) (s : String) : String :=
  String.ofList (quoteChars printable s.toList)

end DotBuilder.Text
