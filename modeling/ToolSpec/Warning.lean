import ToolSpec.Json.Text

/-!
# Warnings

What a caller is told about a schema that was changed or that cannot work. Each kind has a fixed
message and named fields. A place in a schema is the list of keys and indices that lead to it.
-/

set_option autoImplicit false

namespace ToolSpec

abbrev Place := List String

namespace Place

/-- The segments behind `#`, as they are. -/
def text (p : Place) : String := "#" ++ String.join (p.map ("/" ++ ·))

end Place

inductive Warning
  | duplicateParameter (name : String)
  | keywordDropped (place : Place) (keyword : String)
  | formatDropped (place : Place) (format : Json)
  | minItemsDropped (place : Place) (minItems : Json)
  | remoteRefDropped (place : Place) (target : Json)
  | allOfRefsDropped (place : Place) (dropped : Nat)
  | recursiveType (schema : String) (definitions : Nat)

namespace Warning

def message : Warning → String
  | .duplicateParameter _ => "Duplicate parameter name, later declaration wins"
  | .keywordDropped _ _ => "Strict schema cannot carry keyword, dropping it"
  | .formatDropped _ _ => "Strict schema cannot carry format, dropping it"
  | .minItemsDropped _ _ => "Strict schema allows minItems of 0 or 1 only, dropping it"
  | .remoteRefDropped _ _ => "Strict schema cannot follow remote $ref, dropping it"
  | .allOfRefsDropped _ _ => "Strict schema cannot merge $ref inside allOf, dropping them"
  | .recursiveType _ _ =>
    "Recursive type keeps $ref pointers that cannot resolve inside a tool schema"

/-- Dropped values are given as JSON text. -/
def fields : Warning → Fields Json
  | .duplicateParameter name => [("parameter", .str name)]
  | .keywordDropped place keyword => [("at", .str place.text), ("keyword", .str keyword)]
  | .formatDropped place format => [("at", .str place.text), ("format", .str format.text)]
  | .minItemsDropped place n => [("at", .str place.text), ("min_items", .str n.text)]
  | .remoteRefDropped place target => [("at", .str place.text), ("target", .str target.text)]
  | .allOfRefsDropped place n => [("at", .str place.text), ("dropped", .int n)]
  | .recursiveType schema n => [("schema", .str schema), ("definitions", .int n)]

def toJson (w : Warning) : Json :=
  .obj [("message", .str w.message), ("fields", .obj w.fields)]

end Warning

end ToolSpec
