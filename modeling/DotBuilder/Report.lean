import DotBuilder.Attribute.Context

/-!
# Reports

A check answers with a `Report`: the faults and the warnings that it found, each in the order in
which they were found.  Reports are joined end to end.  The checks of this library find the
`Fault`s and `Warning`s below; their wording is in `Fault.message` and `Warning.message`.
-/

namespace DotBuilder

/-- What a check found. -/
@[ext]
structure Report (ε ω : Type) where
  /-- The faults, in the order found. -/
  errors : List ε
  /-- The warnings, in the order found. -/
  warnings : List ω
  deriving DecidableEq, Repr

namespace Report

variable {ε ω : Type}

/-- The report of a check that found nothing. -/
def empty : Report ε ω := ⟨[], []⟩

/-- The report of warnings alone. -/
def ofWarnings (ws : List ω) : Report ε ω := ⟨[], ws⟩

/-- The report of faults alone. -/
def ofErrors (es : List ε) : Report ε ω := ⟨es, []⟩

/-- What a first and then a second check found. -/
def append (r s : Report ε ω) : Report ε ω :=
  ⟨r.errors ++ s.errors, r.warnings ++ s.warnings⟩

instance : Append (Report ε ω) := ⟨append⟩

/-- Whether there is no fault; warnings do not count. -/
def ok (r : Report ε ω) : Bool := r.errors.isEmpty

/-- The reports of a list of checks, joined. -/
def concat : List (Report ε ω) → Report ε ω
  | [] => empty
  | r :: rest => r ++ concat rest

theorem errors_append (r s : Report ε ω) : (r ++ s).errors = r.errors ++ s.errors := rfl

theorem warnings_append (r s : Report ε ω) : (r ++ s).warnings = r.warnings ++ s.warnings := rfl

theorem append_assoc (r s u : Report ε ω) : r ++ s ++ u = r ++ (s ++ u) :=
  Report.ext (List.append_assoc ..) (List.append_assoc ..)

theorem concat_append (rs ss : List (Report ε ω)) :
    concat (rs ++ ss) = concat rs ++ concat ss := by
  induction rs with
  | nil => rfl
  | cons r rest ih => rw [List.cons_append, concat, ih, concat, append_assoc]

theorem concat_flatMap {α : Type} (f : α → List (Report ε ω)) (xs : List α) :
    concat (xs.flatMap f) = concat (xs.map fun x => concat (f x)) := by
  induction xs with
  | nil => rfl
  | cons x rest ih => rw [List.flatMap_cons, concat_append, ih, List.map_cons, concat]

theorem errors_concat (rs : List (Report ε ω)) : (concat rs).errors = rs.flatMap errors := by
  induction rs with
  | nil => rfl
  | cons r rest ih => rw [concat, errors_append, ih, List.flatMap_cons]

theorem warnings_concat (rs : List (Report ε ω)) :
    (concat rs).warnings = rs.flatMap warnings := by
  induction rs with
  | nil => rfl
  | cons r rest ih => rw [concat, warnings_append, ih, List.flatMap_cons]

end Report

/-! ## Findings -/

/-- A fault in the structure of a graph. -/
inductive Fault where
  /-- A graph lists a plain node and an HTML node under one name. -/
  | duplicateNode (graph node : String)
  deriving DecidableEq, Repr

/-- Something that is likely a slip. -/
inductive Warning where
  /-- A name that the context does not take. -/
  | invalidAttribute (name : String) (context : Context)
  /-- An edge end that no graph of the tree lists. -/
  | missingNode (name : String)
  deriving DecidableEq, Repr

/-- The wording of a fault. -/
def Fault.message : Fault → String
  | duplicateNode graph node => "duplicate node id in graph '" ++ graph ++ "': " ++ node

/-- The wording of a warning. -/
def Warning.message : Warning → String
  | invalidAttribute name context => "Invalid attribute '" ++ name ++ "' for " ++ context.name
  | missingNode name => "edge references missing node: " ++ name

/-- What the checks of attribute sets and graphs find. -/
abbrev Findings := Report Fault Warning

end DotBuilder
