import DotBuilder.Attribute.Check
import DotBuilder.Text.Verbatim

/-!
# Attribute sets

An attribute set holds the attributes of one node, edge or graph, or the defaults for such, in the
order in which their names were first written.

* `AttrSet.check` looks at a map of attributes before `AttrSet.store` stores it.  Names that the
  set's context does not take are reported as warnings and stored all the same; a strict set refuses
  the whole map instead.
* `AttrSet.text` is the attribute list of a DOT statement.  Unset attributes are left out, and a set
  without others shows nothing at all.
-/

namespace DotBuilder

/-- The attributes of one thing. -/
structure AttrSet where
  /-- What the attributes are for. -/
  context : Context
  /-- Whether the label is an HTML-like text, which is written without quotes. -/
  html : Bool
  /-- Whether names that the context does not take are refused. -/
  strict : Bool
  /-- The attributes. -/
  entries : Attrs

namespace AttrSet

/-- A set without attributes. -/
def blank (context : Context) (html strict : Bool) : AttrSet := ⟨context, html, strict, .empty⟩

/-- Reports the names of a map that the context does not take.  A strict set refuses the map at the
first such name. -/
def check (s : AttrSet) (given : Attrs) : Except Error Findings :=
  match s.strict, unaccepted s.context given with
  | true, name :: _ => .error (.invalidAttribute name s.context)
  | _, _ => .ok (attrsFindings s.context given)

/-- Stores a map of attributes, unchecked. -/
def store (s : AttrSet) (given : Attrs) : AttrSet :=
  { s with entries := s.entries.insertAll given }

/-! ## The attribute list -/

/-- The attributes that a list shows: the set's own, overwritten and followed by those of `extra`,
without the unset ones. -/
def shown (s : AttrSet) (extra : Attrs) : List (String × Value) :=
  (s.entries.insertAll extra).entries.filter fun e => !e.2.isNull

/-- The value of an attribute as a list shows it. -/
def valueText (html : Bool) (name : String) (v : Value) : String :=
  if html ∧ name = "label" then v.attributeText
  else if isQuoted name then Text.inQuotes v.attributeText
  else v.attributeText

/-- A name and its value. -/
def pairText (html : Bool) (e : String × Value) : String := e.1 ++ "=" ++ valueText html e.1 e.2

/-- The attribute list of a statement, with the attributes of `extra` for this once: a blank, and
the pairs in brackets; nothing if there are none. -/
def textWith (s : AttrSet) (extra : Attrs) : String :=
  match s.shown extra with
  | [] => ""
  | e :: es => " [" ++ String.intercalate ", " ((e :: es).map (pairText s.html)) ++ "]"

/-- The attribute list of a statement. -/
def text (s : AttrSet) : String := s.textWith .empty

end AttrSet

end DotBuilder
