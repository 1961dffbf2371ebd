import ToolSpec.DeclaredType.Resolution
import ToolSpec.Options

/-!
# Parameters and their properties

A declared parameter is resolved against the docstring of its function, and the result compiles to
one property of the schema and a verdict. A parameter is required unless its type admits null or
it has a default; a `required` keyword overrides both.
-/

set_option autoImplicit false

namespace ToolSpec

structure Parameter where
  name : String
  type : DeclaredType
  /-- A null default is still a default. -/
  default : Option Json

structure ParameterSpec where
  name : String
  type : DeclaredType
  default : Option Json
  description : String
  enum : Option (List Json)

structure Property where
  name : String
  schema : Json
  required : Bool

namespace Parameter

/-- The first explicit description, else the first plain text, else the first one among the
keywords, else that of the docstring. -/
def description? (items : List MetadataItem) (name : String) (docs : Docstring) : Option String :=
  (items.findSome? MetadataItem.docTag?).or <|
    (items.findSome? MetadataItem.plainText?).or <|
      (items.findSome? fun i => i.keywords?.bind Keywords.description).or (docs.param? name)

def describe (items : List MetadataItem) (name : String) (docs : Docstring) : String :=
  (description? items name docs).getD ""

def keywords (items : List MetadataItem) : Keywords :=
  Keywords.mergeAll (items.filterMap MetadataItem.keywords?)

/-- The first class of names, else the merged keyword without null, else what the type lists. -/
def allowed (a : DeclaredType) : Option (List Json) :=
  ((a.metadata.findSome? MetadataItem.enumClass?).map (·.map Json.str)).or <|
    ((keywords a.metadata).enum.map fun vs => (vs.filter (!·.isNull)).map Scalar.toJson).or <|
      (a.resolve.fragment.lookup "enum").bind Json.items?

def placeholder (name : String) : String := "The " ++ name ++ " parameter"

def spec (p : Parameter) (docs : Docstring) (placeholders : Bool) : ParameterSpec :=
  let found := describe p.type.metadata p.name docs
  { name := p.name
    type := p.type
    default := p.default
    description := if found = "" ∧ placeholders then placeholder p.name else found
    enum := allowed p.type }

end Parameter

namespace ParameterSpec

def keywords (p : ParameterSpec) : Keywords := Parameter.keywords p.type.metadata

def isRequired (p : ParameterSpec) : Bool :=
  p.keywords.required.getD (!p.type.resolve.nullable && !p.default.isSome)

/-- The keywords that go onto the fragment of the type, in the order of their insertion. -/
def overlay (p : ParameterSpec) : Fields Json :=
  p.keywords.type.toList.map (fun t => ("type", .str t.text)) ++
    p.enum.toList.map (fun vs => ("enum", .arr vs)) ++
    p.keywords.constraints ++
    (if p.description = "" then [] else [("description", .str p.description)]) ++
    p.default.toList.map (fun v => ("default", v)) ++
    (p.type.metadata.filterMap MetadataItem.extra?).flatten

def compile (p : ParameterSpec) : Property where
  name := p.name
  schema := .obj (Fields.insertAll p.overlay p.type.resolve.fragment)
  required := p.isRequired

end ParameterSpec

end ToolSpec
