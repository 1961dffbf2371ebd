import ToolSpec.DeclaredType.Basic
import ToolSpec.Codec.Keywords

/-!
# Declared types as JSON

A declared type is an object with a kind and, under `of`, its content; a metadata item holds its
content under `value`. A kind without content admits a null one.
-/

set_option autoImplicit false

namespace ToolSpec
open Codec

namespace MetadataItem

def tagged (kind : String) (content : Fields Json) : Json := .obj (("kind", .str kind)::content)

def toJson : MetadataItem → Json
  | .plainText text => tagged "plain_text" [("value", .str text)]
  | .docTag text => tagged "doc_tag" [("value", .str text)]
  | .enumClass members => tagged "enum_class" [("value", .strs members)]
  | .field keywords => tagged "field" [("value", keywords.toJson)]
  | .extra fields => tagged "extra" [("value", .obj fields)]
  | .other => tagged "other" []

def read? (kind : String) (fs : Fields Json) : Option MetadataItem :=
  match kind with
  | "plain_text" => (needed "value" Json.str? fs).map .plainText
  | "doc_tag" => (needed "value" Json.str? fs).map .docTag
  | "enum_class" => (needed "value" strings fs).map .enumClass
  | "field" => (needed "value" Keywords.ofJson? fs).map .field
  | "extra" => (needed "value" Json.fields? fs).map .extra
  | "other" => if (fs.lookup "value").all Json.isNull then some .other else none
  | _ => none

def ofJson? : Json → Option MetadataItem
  | .obj fs => (needed "kind" Json.str? fs).bind (read? · fs)
  | _ => none

end MetadataItem

namespace DeclaredType

def tagged (kind : String) (content : Json) : Json :=
  .obj [("kind", .str kind), ("of", content)]

mutual

def toJson : DeclaredType → Json
  | .primitive kind => tagged "primitive" (.str kind.typeName)
  | .array element => tagged "array" (toJson element)
  | .objectMap value => tagged "object_map" (toJson value)
  | .tuple elements => tagged "tuple" (.arr (toJsonEach elements))
  | .union members => tagged "union" (.arr (toJsonEach members))
  | .literal values => tagged "literal" (.arr (values.map Scalar.toJson))
  | .enumRef members => tagged "enum_ref" (.strs members)
  | .annotated inner items =>
    tagged "annotated" <|
      .obj [("inner", toJson inner), ("metadata", .arr (items.map MetadataItem.toJson))]
  | .schema value => tagged "schema" value
  | .unknown => .obj [("kind", .str "unknown")]

def toJsonEach : List DeclaredType → List Json
  | [] => []
  | a::rest => toJson a::toJsonEach rest

end

mutual

def ofJson? : Json → Option DeclaredType
  | .obj fs =>
    match needed "kind" Json.str? fs with
    | some "primitive" => (needed "of" Primitive.ofJson? fs).map .primitive
    | some "array" => (ofField? "of" fs).map .array
    | some "object_map" => (ofField? "of" fs).map .objectMap
    | some "tuple" => (ofListField? fs).map .tuple
    | some "union" => (ofListField? fs).map .union
    | some "literal" => (needed "of" (list Scalar.ofJson?) fs).map .literal
    | some "enum_ref" => (needed "of" strings fs).map .enumRef
    | some "annotated" => ofLayer? fs
    | some "schema" => (fs.lookup "of").map .schema
    | some "unknown" => if (fs.lookup "of").all Json.isNull then some .unknown else none
    | _ => none
  | _ => none

def ofField? (key : String) : List (String × Json) → Option DeclaredType
  | [] => none
  | (k, v)::rest => if key = k then ofJson? v else ofField? key rest

def ofListField? : List (String × Json) → Option (List DeclaredType)
  | [] => none
  | (k, v)::rest =>
    if "of" = k then
      match v with
      | .arr items => ofEach? items
      | _ => none
    else ofListField? rest

def ofLayer? : List (String × Json) → Option DeclaredType
  | [] => none
  | (k, v)::rest =>
    if "of" = k then
      match v with
      | .obj fs => do
        let inner ← ofField? "inner" fs
        let items ← needed "metadata" (list MetadataItem.ofJson?) fs
        pure (.annotated inner items)
      | _ => none
    else ofLayer? rest

def ofEach? : List Json → Option (List DeclaredType)
  | [] => some []
  | v::rest => do
    let a ← ofJson? v
    pure (a::(← ofEach? rest))

end

theorem to_json_each_eq_map (as : List DeclaredType) : toJsonEach as = as.map toJson := by
  induction as with
  | nil => rfl
  | cons a rest ih => simp [toJsonEach, ih]

theorem of_each_eq_mapm (vs : List Json) : ofEach? vs = vs.mapM ofJson? := by
  induction vs with
  | nil => rfl
  | cons v rest ih => simp [ofEach?, ih]

theorem of_field_eq_needed (key : String) (fs : Fields Json) :
    ofField? key fs = needed key ofJson? fs := by
  induction fs with
  | nil => rfl
  | cons e rest ih =>
    obtain ⟨k, v⟩ := e
    by_cases h : key = k
    · simp [ofField?, needed, h]
    · simpa [ofField?, needed, Fields.lookup_cons_ite, h] using ih

end DeclaredType

end ToolSpec
