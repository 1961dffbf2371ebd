import ToolSpec.Declaration.Basic

/-!
# Sample types

Types that bring their own schemas. A type that refers to itself keeps a pointer to a definition
that a tool schema cannot hold, and is reported.
-/

set_option autoImplicit false

namespace ToolSpec.Sample

def described (text : String) (type : String) : Json :=
  .obj [("description", .str text), ("type", .str type)]

def object (type : Json) (properties : Fields Json) (required : List String) : Json :=
  .obj [("type", type), ("properties", .obj properties), ("required", .strs required)]

def nullable (type : String) : Json := .strs [type, "null"]

def degrees : Json := .obj [("type", .str "number"), ("format", .str "double")]

def location (type : Json) : Json :=
  object type [("lat", degrees), ("lon", degrees)] ["lat", "lon"]

def trip : Json :=
  object (.str "object")
    [("from", location (.str "object")), ("to", location (nullable "object"))] ["from"]

def timeRange : Json :=
  .obj <| ("description", .str "A closed time range.")::Json.fieldsOrEmpty
    (object (.str "object")
      [("start", described "Start, as an RFC 3339 timestamp." "string"),
        ("end", described "End, as an RFC 3339 timestamp." "string")] ["start", "end"])

def node : Json :=
  let pointer := Json.obj [("$ref", .str "#/$defs/Node")]
  let next := Json.obj [("anyOf", .arr [pointer, .ofType "null"])]
  .obj [("type", .str "object"), ("properties", .obj [("next",
    .obj [("type", nullable "object"), ("properties", .obj [("next", next)])])])]

def strings : Json := .obj [("type", .str "array"), ("items", .ofType "string")]

def schemaOf? : String → Option DerivedSchema
  | "String" => some ⟨.ofType "string", []⟩
  | "bool" => some ⟨.ofType "boolean", []⟩
  | "Vec<String>" => some ⟨strings, []⟩
  | "Location" => some ⟨location (.str "object"), []⟩
  | "Option<Location>" => some ⟨location (nullable "object"), []⟩
  | "Trip" => some ⟨trip, []⟩
  | "TimeRange" => some ⟨timeRange, []⟩
  | "Node" => some ⟨node, [.recursiveType "Node" 1]⟩
  | _ => none

/-- A type without a schema is unconstrained, and nothing but a literal has a value. -/
def catalogue : Catalogue := ⟨fun t => (schemaOf? t.spelling).getD ⟨.obj [], []⟩, .empty⟩

end ToolSpec.Sample
