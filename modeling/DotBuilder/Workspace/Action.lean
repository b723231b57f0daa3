import DotBuilder.Log
import DotBuilder.Workspace.Basic

/-!
# Actions

An `Action` is done step by step on a workspace, with a log beside it.  It can be refused on the
way, and nothing is taken back then: what it changed and noted down before stays.  So a refused
action leaves things as they were only if it looks at everything first and changes things after,
and that is how the actions of this library are written.
-/

namespace DotBuilder

/-- What an action works on. -/
structure Action.State where
  /-- The workspace. -/
  workspace : Workspace
  /-- What was noted down so far. -/
  log : List LogEntry

/-- Something done step by step, which can be refused on the way. -/
abbrev Action : Type → Type := EStateM Error Action.State

namespace Action

variable {α : Type}

/-! ## Single steps -/

/-- Looks something up. -/
def read (f : Workspace → α) : Action α := fun s => .ok (f s.workspace) s

/-- Looks something up that may be a reason to refuse the action. -/
def require (f : Workspace → Except Error α) : Action α := fun s =>
  match f s.workspace with
  | .ok a => .ok a s
  | .error e => .error e s

/-- Changes the workspace. -/
def change (f : Workspace → Workspace) : Action Unit := fun s =>
  .ok () { s with workspace := f s.workspace }

/-- Makes or finds a thing. -/
def make (f : Workspace → Workspace × α) : Action α := fun s =>
  .ok (f s.workspace).2 { s with workspace := (f s.workspace).1 }

/-- Notes something down. -/
def note (entries : List LogEntry) : Action Unit := fun s =>
  .ok () { s with log := s.log ++ entries }

/-! ## Attribute sets -/

/-- Checks attributes for a set and notes down what is found on them. -/
def examine (r : AttrSet) (given : Attrs) : Action Findings := do
  let found ← require fun _ => r.check given
  note (LogEntry.ofFindings found)
  pure found

/-- Stores attributes in a set that no thing has yet. -/
def fill (r : AttrSet) (given : Attrs) : Action AttrSet := do
  let _ ← examine r given
  pure (r.store given)

/-- Stores attributes in a set of the workspace. -/
def assign (s : SetId) (given : Attrs) : Action Findings := do
  let r ← read fun w => w.attrSet s
  let found ← examine r given
  change fun w => w.modifySet s fun r => r.store given
  pure found

end Action

end DotBuilder
