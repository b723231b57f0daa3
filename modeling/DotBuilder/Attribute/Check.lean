import DotBuilder.Attribute.Catalog
import DotBuilder.Error
import DotBuilder.OrdMap.Basic
import DotBuilder.Report
import DotBuilder.Value

/-!
# Checking attribute names

A context takes a name if the vocabulary has it for that context, where sets of graph attributes
take cluster attributes too.  The check of a name warns if it is not taken, and the check of a map
warns of each such name in the order of the map.

Contexts and value types are also given by name from outside; `Attribute.selectNamed` lists the
vocabulary for such names and refuses those that it does not know.
-/

namespace DotBuilder

/-- Attribute names with their values, in order of first writing. -/
abbrev Attrs := OrdMap String Value

/-- Whether a set of context `c` takes the name `name`: the name is in the vocabulary, for one of
the contexts whose attributes such a set takes. -/
def accepts (c : Context) (name : String) : Bool :=
  match Attribute.find? name with
  | none => false
  | some a => c.takes.any a.allows

/-- What is found on a name in a context. -/
def nameFindings (c : Context) (name : String) : Findings :=
  if accepts c name then .empty else .ofWarnings [.invalidAttribute name c]

/-- What is found on the names of a map in a context. -/
def attrsFindings (c : Context) (given : Attrs) : Findings :=
  .concat (given.keys.map (nameFindings c))

/-- The names of a map that a context does not take, in the order of the map. -/
def unaccepted (c : Context) (given : Attrs) : List String :=
  given.keys.filter fun name => !accepts c name

/-- A check of names never finds a fault. -/
theorem errors_attrsFindings (c : Context) (given : Attrs) :
    (attrsFindings c given).errors = [] := by
  rw [attrsFindings, Report.errors_concat, List.flatMap_map, List.flatMap_eq_nil_iff]
  intro name _
  rw [nameFindings]
  split <;> rfl

/-- A check of names warns once of each name that is not taken. -/
theorem warnings_attrsFindings (c : Context) (given : Attrs) :
    (attrsFindings c given).warnings =
      (unaccepted c given).map fun name => .invalidAttribute name c := by
  rw [attrsFindings, Report.warnings_concat, List.flatMap_map, unaccepted]
  induction given.keys with
  | nil => rfl
  | cons name rest ih =>
    rw [List.flatMap_cons, ih, nameFindings]
    cases h : accepts c name <;> simp [h, Report.ofWarnings, Report.empty]

/-! ## Names from outside -/

/-- The context of a name. -/
def Context.ofName (text : String) : Except Error Context :=
  match ofName? text with
  | some c => .ok c
  | none => .error (.notContext text)

/-- The value type of a name. -/
def ValueType.ofName (text : String) : Except Error ValueType :=
  match ofName? text with
  | some t => .ok t
  | none => .error (.notValueType text)

/-- The attributes for the context and of the value type of the given names, in catalog order; a
name that is not given does not filter.  The context's name is looked at first. -/
def Attribute.selectNamed (context type : Option String) : Except Error (List Attribute) := do
  let c ← context.mapM Context.ofName
  let t ← type.mapM ValueType.ofName
  pure (select c t)

/-- What is found on a name in the context of the given name. -/
def nameFindingsNamed (context name : String) : Except Error Findings :=
  (Context.ofName context).map fun c => nameFindings c name

end DotBuilder
