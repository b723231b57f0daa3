import DotBuilder.Number.Layout

/-!
# Values

The values that attributes, cells and tables hold, and their two texts: `attributeText` is what an
attribute list shows, `plainText` what a table shows.  They differ on truth values alone.
-/

namespace DotBuilder

/-- A value of an attribute or the content of a cell. -/
inductive Value where
  /-- No value: the attribute is unset. -/
  | null
  /-- A truth value. -/
  | bool (b : Bool)
  /-- A text. -/
  | text (s : String)
  /-- An integer of any size. -/
  | int (n : Int)
  /-- A double precision number. -/
  | float (x : Binary64)
  deriving DecidableEq, Repr

namespace Value

/-- Doubles are written positionally from `0.0001` up to below `10 ^ 16`, and with a power of ten of
two digits or more outside of that. -/
def floatLayout : Layout := ⟨-4, 16, 2⟩

/-- The text of a value in a table. -/
def plainText : Value → String
  | null => "None"
  | bool true => "True"
  | bool false => "False"
  | text s => s
  | int n => intText n
  | float x => x.text floatLayout

/-- The text of a value in an attribute list. -/
def attributeText : Value → String
  | bool true => "true"
  | bool false => "false"
  | v => v.plainText

/-- Whether there is no value. -/
def isNull : Value → Bool
  | null => true
  | _ => false

end Value

end DotBuilder
