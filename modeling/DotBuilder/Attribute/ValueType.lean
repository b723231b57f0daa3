/-!
# Value types

Every attribute of the vocabulary has a value type.  The type decides one thing here: whether the
values of the attribute are written between double quotes.
-/

namespace DotBuilder

/-- The type of an attribute's values. -/
inductive ValueType where
  | addDouble
  | arrowType
  | aspectType
  | bool
  | clusterMode
  | color
  | colorList
  | dirType
  | double
  | escString
  | int
  | layerList
  | layerRange
  | lblString
  | outputMode
  | packMode
  | pagedir
  | point
  | pointf
  | pointfList
  | portPos
  | quadType
  | rankType
  | rankdir
  | rect
  | shape
  | smoothType
  | splineType
  | startType
  | string
  | style
  | viewPort
  deriving DecidableEq, Repr

namespace ValueType

/-- All value types, in the order of their names. -/
def all : List ValueType :=
  [.addDouble, .arrowType, .aspectType, .bool, .clusterMode, .color, .colorList, .dirType,
   .double, .escString, .int, .layerList, .layerRange, .lblString, .outputMode, .packMode,
   .pagedir, .point, .pointf, .pointfList, .portPos, .quadType, .rankType, .rankdir, .rect,
   .shape, .smoothType, .splineType, .startType, .string, .style, .viewPort]

/-- The name of a value type. -/
def name : ValueType → String
  | .addDouble => "addDouble"
  | .arrowType => "arrowType"
  | .aspectType => "aspectType"
  | .bool => "bool"
  | .clusterMode => "clusterMode"
  | .color => "color"
  | .colorList => "colorList"
  | .dirType => "dirType"
  | .double => "double"
  | .escString => "escString"
  | .int => "int"
  | .layerList => "layerList"
  | .layerRange => "layerRange"
  | .lblString => "lblString"
  | .outputMode => "outputMode"
  | .packMode => "packMode"
  | .pagedir => "pagedir"
  | .point => "point"
  | .pointf => "pointf"
  | .pointfList => "pointfList"
  | .portPos => "portPos"
  | .quadType => "quadType"
  | .rankType => "rankType"
  | .rankdir => "rankdir"
  | .rect => "rect"
  | .shape => "shape"
  | .smoothType => "smoothType"
  | .splineType => "splineType"
  | .startType => "startType"
  | .string => "string"
  | .style => "style"
  | .viewPort => "viewPort"

/-- The value type of a name, which has to match exactly. -/
def ofName? (s : String) : Option ValueType := all.find? fun t => decide (t.name = s)

/-- Whether values of this type are written between double quotes: free text, colours, points and
the other types whose values can hold blanks or punctuation. -/
def quoted : ValueType → Bool
  | .color | .colorList | .escString | .lblString | .point | .pointf | .pointfList | .portPos
  | .rect | .splineType | .string | .style | .viewPort => true
  | _ => false

end ValueType

end DotBuilder
