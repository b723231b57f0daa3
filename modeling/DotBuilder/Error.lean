import DotBuilder.Attribute.Context
import DotBuilder.Graph.Kind
import DotBuilder.Text.Printable
import DotBuilder.Text.RawText

/-!
# Errors

The reasons for which an operation is refused, and their wording.  A refused operation changes
nothing in a workspace.
-/

namespace DotBuilder

/-- Why an operation was refused. -/
inductive Error where
  /-- A cluster has to be of its parent's kind. -/
  | kindMismatch (child : String) (actual : Kind) (parent : String) (expected : Kind)
  /-- A graph can have one parent only. -/
  | alreadyAttached (child parent : String)
  /-- A graph cannot contain itself. -/
  | selfContaining (child : String)
  /-- A strict set does not take the name. -/
  | invalidAttribute (name : String) (context : Context)
  /-- The text names no compass point that a port could have. -/
  | unknownCompass (text : String)
  /-- The text is not the name of a compass point. -/
  | notCompassPoint (text : String)
  /-- The text is not the name of a context. -/
  | notContext (text : String)
  /-- The text is not the name of a value type. -/
  | notValueType (text : String)
  /-- There is no edge at the index. -/
  | noSuchEdge
  /-- The attributes to set are missing altogether. -/
  | noAttributes
  /-- The path of a file has a null character. -/
  | nullInPath
  /-- The path or the text of a file has code points that cannot be encoded. -/
  | notEncodable (f : EncodingFault)
  /-- The thing was never made. -/
  | notMade
  /-- The clusters of the graph are nested in each other without end. -/
  | endlessNesting
  deriving DecidableEq, Repr

/-- The error that another one comes from: looking a compass point up fails before the port that it
was for is refused. -/
def Error.cause? : Error → Option Error
  | unknownCompass text => some (.notCompassPoint text)
  | _ => none

/-- A text quoted as diagnostics quote it. -/
def quoteText (s : String) : String := Text.quote Text.isPrintable s

/-- The wording of an error. -/
def Error.message : Error → String
  | kindMismatch child actual parent expected =>
    "Cannot add " ++ actual.keyword ++ " '" ++ child ++ "' as a subgraph of " ++
      expected.keyword ++ " '" ++ parent ++ "'"
  | alreadyAttached child parent =>
    "Graph '" ++ child ++ "' is already a subgraph of '" ++ parent ++ "'"
  | selfContaining child => "Graph '" ++ child ++ "' cannot be a subgraph of itself"
  | invalidAttribute name context => "Invalid attribute '" ++ name ++ "' for " ++ context.name
  | unknownCompass text => "Unknown compass point: " ++ quoteText text
  | notCompassPoint text => quoteText text ++ " is not a valid CompassPoint"
  | notContext text => quoteText text ++ " is not a valid UsageContext"
  | notValueType text => quoteText text ++ " is not a valid ValueType"
  | noSuchEdge => "tuple index out of range"
  | noAttributes => "'NoneType' object is not iterable"
  | nullInPath => "embedded null byte"
  | notEncodable f => f.message
  | notMade => "There is no such thing"
  | endlessNesting => "The clusters are nested in each other without end"

end DotBuilder
