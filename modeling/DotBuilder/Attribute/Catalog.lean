import DotBuilder.Attribute.Context
import DotBuilder.Attribute.ValueType

/-!
# The attribute vocabulary

The catalog lists the attributes of the DOT language with the contexts they are for and their
value types.  Attributes that only subgraphs have are filed under the cluster context.

* `Attribute.find?` looks a name up, exactly;
* `Attribute.select` lists the part of the catalog for a context, a value type or both;
* `isQuoted` says whether the values of a name are written between double quotes.
-/

namespace DotBuilder

/-- An attribute of the vocabulary. -/
structure Attribute where
  /-- The attribute's name. -/
  name : String
  /-- The contexts that the attribute is for. -/
  contexts : List Context
  /-- The type of its values. -/
  type : ValueType
  deriving DecidableEq, Repr

namespace Attribute

/-- Whether values of the attribute are written between double quotes. -/
def quoted (a : Attribute) : Bool := a.type.quoted

/-- Whether the attribute is for a context. -/
def allows (a : Attribute) (c : Context) : Bool := decide (c ∈ a.contexts)

/-- The vocabulary. -/
def catalog : List Attribute :=
  [⟨"_background", [.graph], .string⟩,
   ⟨"area", [.node, .cluster], .double⟩,
   ⟨"arrowhead", [.edge], .arrowType⟩,
   ⟨"arrowsize", [.edge], .double⟩,
   ⟨"arrowtail", [.edge], .arrowType⟩,
   ⟨"aspect", [.graph], .aspectType⟩,
   ⟨"bb", [.graph, .cluster], .rect⟩,
   ⟨"beautify", [.graph], .bool⟩,
   ⟨"bgcolor", [.graph, .cluster], .colorList⟩,
   ⟨"center", [.graph], .bool⟩,
   ⟨"charset", [.graph], .string⟩,
   ⟨"class", [.edge, .node, .graph, .cluster], .string⟩,
   ⟨"cluster", [.cluster], .bool⟩,
   ⟨"clusterrank", [.graph], .clusterMode⟩,
   ⟨"color", [.edge, .node, .cluster], .colorList⟩,
   ⟨"colorscheme", [.edge, .node, .graph, .cluster], .string⟩,
   ⟨"comment", [.edge, .node, .graph], .string⟩,
   ⟨"compound", [.graph], .bool⟩,
   ⟨"concentrate", [.graph], .bool⟩,
   ⟨"constraint", [.edge], .bool⟩,
   ⟨"Damping", [.graph], .double⟩,
   ⟨"decorate", [.edge], .bool⟩,
   ⟨"defaultdist", [.graph], .double⟩,
   ⟨"dim", [.graph], .int⟩,
   ⟨"dimen", [.graph], .int⟩,
   ⟨"dir", [.edge], .dirType⟩,
   ⟨"diredgeconstraints", [.graph], .string⟩,
   ⟨"distortion", [.node], .double⟩,
   ⟨"dpi", [.graph], .double⟩,
   ⟨"edgehref", [.edge], .escString⟩,
   ⟨"edgetarget", [.edge], .escString⟩,
   ⟨"edgetooltip", [.edge], .escString⟩,
   ⟨"edgeURL", [.edge], .escString⟩,
   ⟨"epsilon", [.graph], .double⟩,
   ⟨"esep", [.graph], .addDouble⟩,
   ⟨"fillcolor", [.node, .edge, .cluster], .colorList⟩,
   ⟨"fixedsize", [.node], .bool⟩,
   ⟨"fontcolor", [.edge, .node, .graph, .cluster], .color⟩,
   ⟨"fontname", [.edge, .node, .graph, .cluster], .string⟩,
   ⟨"fontnames", [.graph], .string⟩,
   ⟨"fontpath", [.graph], .string⟩,
   ⟨"fontsize", [.edge, .node, .graph, .cluster], .double⟩,
   ⟨"forcelabels", [.graph], .bool⟩,
   ⟨"gradientangle", [.node, .graph, .cluster], .int⟩,
   ⟨"group", [.node], .string⟩,
   ⟨"head_lp", [.edge], .point⟩,
   ⟨"headclip", [.edge], .bool⟩,
   ⟨"headhref", [.edge], .escString⟩,
   ⟨"headlabel", [.edge], .lblString⟩,
   ⟨"headport", [.edge], .portPos⟩,
   ⟨"headtarget", [.edge], .escString⟩,
   ⟨"headtooltip", [.edge], .escString⟩,
   ⟨"headURL", [.edge], .escString⟩,
   ⟨"height", [.node], .double⟩,
   ⟨"href", [.edge, .node, .graph, .cluster], .escString⟩,
   ⟨"id", [.edge, .node, .graph, .cluster], .escString⟩,
   ⟨"image", [.node], .string⟩,
   ⟨"imagepath", [.graph], .string⟩,
   ⟨"imagepos", [.node], .string⟩,
   ⟨"imagescale", [.node], .string⟩,
   ⟨"inputscale", [.graph], .double⟩,
   ⟨"K", [.graph, .cluster], .double⟩,
   ⟨"label", [.edge, .node, .graph, .cluster], .lblString⟩,
   ⟨"label_scheme", [.graph], .int⟩,
   ⟨"labelangle", [.edge], .double⟩,
   ⟨"labeldistance", [.edge], .double⟩,
   ⟨"labelfloat", [.edge], .bool⟩,
   ⟨"labelfontcolor", [.edge], .color⟩,
   ⟨"labelfontname", [.edge], .string⟩,
   ⟨"labelfontsize", [.edge], .double⟩,
   ⟨"labelhref", [.edge], .escString⟩,
   ⟨"labeljust", [.graph, .cluster], .string⟩,
   ⟨"labelloc", [.node, .graph, .cluster], .string⟩,
   ⟨"labeltarget", [.edge], .escString⟩,
   ⟨"labeltooltip", [.edge], .escString⟩,
   ⟨"labelURL", [.edge], .escString⟩,
   ⟨"landscape", [.graph], .bool⟩,
   ⟨"layer", [.edge, .node, .cluster], .layerRange⟩,
   ⟨"layerlistsep", [.graph], .string⟩,
   ⟨"layers", [.graph], .layerList⟩,
   ⟨"layerselect", [.graph], .layerRange⟩,
   ⟨"layersep", [.graph], .string⟩,
   ⟨"layout", [.graph], .string⟩,
   ⟨"len", [.edge], .double⟩,
   ⟨"levels", [.graph], .int⟩,
   ⟨"levelsgap", [.graph], .double⟩,
   ⟨"lhead", [.edge], .string⟩,
   ⟨"lheight", [.graph, .cluster], .double⟩,
   ⟨"linelength", [.graph], .int⟩,
   ⟨"lp", [.edge, .graph, .cluster], .point⟩,
   ⟨"ltail", [.edge], .string⟩,
   ⟨"lwidth", [.graph, .cluster], .double⟩,
   ⟨"margin", [.node, .graph, .cluster], .pointf⟩,
   ⟨"maxiter", [.graph], .int⟩,
   ⟨"mclimit", [.graph], .double⟩,
   ⟨"mindist", [.graph], .double⟩,
   ⟨"minlen", [.edge], .int⟩,
   ⟨"mode", [.graph], .string⟩,
   ⟨"model", [.graph], .string⟩,
   ⟨"mosek", [.graph], .bool⟩,
   ⟨"newrank", [.graph], .bool⟩,
   ⟨"nodesep", [.graph], .double⟩,
   ⟨"nojustify", [.edge, .node, .graph, .cluster], .bool⟩,
   ⟨"normalize", [.graph], .bool⟩,
   ⟨"notranslate", [.graph], .bool⟩,
   ⟨"nslimit", [.graph], .double⟩,
   ⟨"nslimit1", [.graph], .double⟩,
   ⟨"oneblock", [.graph], .bool⟩,
   ⟨"ordering", [.graph, .node], .string⟩,
   ⟨"orientation", [.graph, .node], .string⟩,
   ⟨"outputorder", [.graph], .outputMode⟩,
   ⟨"overlap", [.graph], .string⟩,
   ⟨"overlap_scaling", [.graph], .double⟩,
   ⟨"overlap_shrink", [.graph], .bool⟩,
   ⟨"pack", [.graph], .int⟩,
   ⟨"packmode", [.graph], .packMode⟩,
   ⟨"pad", [.graph], .pointf⟩,
   ⟨"page", [.graph], .pointf⟩,
   ⟨"pagedir", [.graph], .pagedir⟩,
   ⟨"pencolor", [.cluster], .color⟩,
   ⟨"penwidth", [.edge, .node, .cluster], .double⟩,
   ⟨"peripheries", [.node, .cluster], .int⟩,
   ⟨"pin", [.node], .bool⟩,
   ⟨"pos", [.edge, .node], .point⟩,
   ⟨"quadtree", [.graph], .quadType⟩,
   ⟨"quantum", [.graph], .double⟩,
   ⟨"rank", [.cluster], .rankType⟩,
   ⟨"rankdir", [.graph], .rankdir⟩,
   ⟨"ranksep", [.graph], .double⟩,
   ⟨"ratio", [.graph], .string⟩,
   ⟨"rects", [.node], .rect⟩,
   ⟨"regular", [.node], .bool⟩,
   ⟨"remincross", [.graph], .bool⟩,
   ⟨"repulsiveforce", [.graph], .double⟩,
   ⟨"resolution", [.graph], .double⟩,
   ⟨"root", [.graph, .node], .string⟩,
   ⟨"rotate", [.graph], .int⟩,
   ⟨"rotation", [.graph], .double⟩,
   ⟨"samehead", [.edge], .string⟩,
   ⟨"sametail", [.edge], .string⟩,
   ⟨"samplepoints", [.node], .int⟩,
   ⟨"scale", [.graph], .double⟩,
   ⟨"searchsize", [.graph], .int⟩,
   ⟨"sep", [.graph], .addDouble⟩,
   ⟨"shape", [.node], .shape⟩,
   ⟨"shapefile", [.node], .string⟩,
   ⟨"showboxes", [.edge, .node, .graph], .int⟩,
   ⟨"sides", [.node], .int⟩,
   ⟨"size", [.graph], .pointf⟩,
   ⟨"skew", [.node], .double⟩,
   ⟨"smoothing", [.graph], .smoothType⟩,
   ⟨"sortv", [.graph, .cluster, .node], .int⟩,
   ⟨"splines", [.graph], .string⟩,
   ⟨"start", [.graph], .startType⟩,
   ⟨"style", [.edge, .node, .graph, .cluster], .style⟩,
   ⟨"stylesheet", [.graph], .string⟩,
   ⟨"tail_lp", [.edge], .pointf⟩,
   ⟨"tailclip", [.edge], .bool⟩,
   ⟨"tailhref", [.edge], .escString⟩,
   ⟨"taillabel", [.edge], .lblString⟩,
   ⟨"tailport", [.edge], .portPos⟩,
   ⟨"tailtarget", [.edge], .escString⟩,
   ⟨"tailtooltip", [.edge], .escString⟩,
   ⟨"tailURL", [.edge], .escString⟩,
   ⟨"target", [.edge, .node, .graph, .cluster], .escString⟩,
   ⟨"TBbalance", [.graph], .string⟩,
   ⟨"tooltip", [.node, .edge, .cluster], .escString⟩,
   ⟨"truecolor", [.graph], .bool⟩,
   ⟨"URL", [.edge, .node, .graph, .cluster], .escString⟩,
   ⟨"vertices", [.node], .pointfList⟩,
   ⟨"viewport", [.graph], .viewPort⟩,
   ⟨"voro_margin", [.graph], .double⟩,
   ⟨"weight", [.edge], .double⟩,
   ⟨"width", [.node], .double⟩,
   ⟨"xdotversion", [.graph], .string⟩,
   ⟨"xlabel", [.edge, .node], .lblString⟩,
   ⟨"xlp", [.edge, .node], .point⟩,
   ⟨"z", [.node], .double⟩]

/-- The attribute of a name. -/
def find? (name : String) : Option Attribute := catalog.find? fun a => decide (a.name = name)

/-- The attributes for a context and of a value type, in catalog order; `none` does not filter. -/
def select (context : Option Context) (type : Option ValueType) : List Attribute :=
  catalog.filter fun a =>
    context.all (fun c => a.allows c) && type.all (fun t => decide (a.type = t))

end Attribute

/-- Whether the values of `name` are written between double quotes; those of an unknown name are. -/
def isQuoted (name : String) : Bool :=
  match Attribute.find? name with
  | none => true
  | some a => a.quoted

end DotBuilder
