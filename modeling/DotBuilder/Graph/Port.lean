import DotBuilder.Error
import DotBuilder.Text.Verbatim

/-!
# Ports and compass points

An edge meets a node at a port: a place in the node that has a name, a side of it given by a compass
point, both or neither.  `Port.text` is what an edge statement says of it behind the node's name.
-/

namespace DotBuilder

/-- A side of a node. -/
inductive Compass where
  | n
  | ne
  | e
  | se
  | s
  | sw
  | w
  | nw
  deriving DecidableEq, Repr

namespace Compass

/-- The compass points, clockwise from the north. -/
def all : List Compass := [.n, .ne, .e, .se, .s, .sw, .w, .nw]

/-- The name of a compass point. -/
def name : Compass → String
  | n => "n"
  | ne => "ne"
  | e => "e"
  | se => "se"
  | s => "s"
  | sw => "sw"
  | w => "w"
  | nw => "nw"

/-- The compass point of a name, which has to match exactly. -/
def ofName? (text : String) : Option Compass := all.find? fun c => decide (c.name = text)

/-- The compass point of a name. -/
def ofName (text : String) : Except Error Compass :=
  match ofName? text with
  | some c => .ok c
  | none => .error (.notCompassPoint text)

/-- The compass point that a port is given by a text: none for no text or an empty one. -/
def ofText : Option String → Except Error (Option Compass)
  | none => .ok none
  | some text =>
    if text = "" then .ok none
    else
      match ofName? text with
      | some c => .ok (some c)
      | none => .error (.unknownCompass text)

theorem mem_all (c : Compass) : c ∈ all := by cases c <;> decide

end Compass

/-- Where an edge meets a node. -/
structure Port where
  /-- The name of the place; an empty one counts as none. -/
  name : Option String
  /-- The side. -/
  compass : Option Compass
  deriving DecidableEq, Repr

namespace Port

/-- No place and no side. -/
def anywhere : Port := ⟨none, none⟩

/-- The place, behind a colon. -/
def nameText (p : Port) : String :=
  match p.name with
  | none => ""
  | some s => if s = "" then "" else ":" ++ s

/-- The side, behind a colon. -/
def compassText (p : Port) : String :=
  match p.compass with
  | none => ""
  | some c => ":" ++ c.name

/-- What an edge statement says of the port. -/
def text (p : Port) : String := p.nameText ++ p.compassText

/-- The end of an edge at a node of the given name. -/
def endText (p : Port) (node : String) : String := Text.inQuotes node ++ p.text

end Port

end DotBuilder
