import ToolSpec.Schema.Nullable
import ToolSpec.Warning

/-!
# The strict form of a schema

Strict tool calling rejects several keywords. The strict form removes them at every schema
position and closes every object schema. What is removed is reported with its place, an object
before its children, except that references are looked at last.
-/

set_option autoImplicit false

namespace ToolSpec.Strict

def droppedKeywords : List String :=
  ["minimum", "maximum", "exclusiveMinimum", "exclusiveMaximum", "multipleOf", "minLength",
    "maxLength", "maxItems", "uniqueItems", "minProperties", "maxProperties", "$schema", "title"]

def keptFormats : List String :=
  ["date", "time", "date-time", "duration", "email", "hostname", "ipv4", "ipv6", "uri", "uuid"]

/-- Keys whose value holds schemas by name. -/
def mapKeys : List String := ["properties", "$defs", "definitions"]

/-- Keys whose value is a schema or a list of schemas. -/
def schemaKeys : List String := ["items", "allOf", "anyOf", "oneOf"]

def isKeptFormat : Json → Bool
  | .str name => name ∈ keptFormats
  | _ => false

def isKeptMinItems : Json → Bool
  | .num (.int n) => n = 0 || n = 1
  | _ => false

def isRemote : Json → Bool
  | .str target => target.startsWith "http://" || target.startsWith "https://"
  | _ => false

def isReference (v : Json) : Bool := (v.get? "$ref").isSome

def dropped? (key : String) (keep : Json → Bool) (fs : Fields Json) : Option Json :=
  (fs.lookup key).filter (!keep ·)

def eraseUnless (key : String) (keep : Json → Bool) (fs : Fields Json) : Fields Json :=
  if (dropped? key keep fs).isSome then Fields.erase key fs else fs

def eraseKeywords (fs : Fields Json) : Fields Json :=
  droppedKeywords.foldl (fun acc key => Fields.erase key acc) fs

def isObjectSchema (fs : Fields Json) : Bool :=
  (fs.lookup "type").bind Json.str? = some "object" || Fields.has "properties" fs

def close (fs : Fields Json) : Fields Json :=
  if isObjectSchema fs then Fields.insert "additionalProperties" (.bool false) fs else fs

/-- References cannot be merged into the other parts of a conjunction. One that holds nothing
else is removed. -/
def eraseAllOfRefs (fs : Fields Json) : Fields Json :=
  match fs.lookup "allOf" with
  | some (.arr parts) =>
    match parts.filter (!isReference ·) with
    | [] => if parts = [] then fs else Fields.erase "allOf" fs
    | kept => Fields.insert "allOf" (.arr kept) fs
  | _ => fs

/-- The strict form of one object whose children are strict already. -/
def tidy (fs : Fields Json) : Fields Json :=
  eraseAllOfRefs <| eraseUnless "$ref" (!isRemote ·) <| close <|
    eraseUnless "minItems" isKeptMinItems <| eraseUnless "format" isKeptFormat <| eraseKeywords fs

mutual

def form : Json → Json
  | .arr items => .arr (formItems items)
  | .obj fields => .obj (tidy (formFields fields))
  | v => v

def formItems : List Json → List Json
  | [] => []
  | v::rest => form v::formItems rest

def formFields : List (String × Json) → List (String × Json)
  | [] => []
  | (k, v)::rest =>
    (k, if k ∈ mapKeys then formNamed v else if k ∈ schemaKeys then form v else v)::formFields rest

def formNamed : Json → Json
  | .obj fields => .obj (formValues fields)
  | v => v

def formValues : List (String × Json) → List (String × Json)
  | [] => []
  | (k, v)::rest => (k, form v)::formValues rest

end

theorem form_items_eq_map (items : List Json) : formItems items = items.map form := by
  induction items with
  | nil => rfl
  | cons v rest ih => simp [formItems, ih]

theorem form_values_eq_map (fs : Fields Json) :
    formValues fs = fs.map fun (k, v) => (k, form v) := by
  induction fs with
  | nil => rfl
  | cons e rest ih => simp [formValues, ih]

def ownWarnings (place : Place) (fs : Fields Json) : List Warning :=
  (droppedKeywords.filter (Fields.has · fs)).map (.keywordDropped place) ++
    (dropped? "format" isKeptFormat fs).toList.map (.formatDropped place) ++
    (dropped? "minItems" isKeptMinItems fs).toList.map (.minItemsDropped place)

def refWarnings (place : Place) (fs : Fields Json) : List Warning :=
  (dropped? "$ref" (!isRemote ·) fs).toList.map (.remoteRefDropped place) ++
    match fs.lookup "allOf" with
    | some (.arr parts) =>
      let n := (parts.filter isReference).length
      if n = 0 then [] else [.allOfRefsDropped place n]
    | _ => []

mutual

def warnings (place : Place) : Json → List Warning
  | .arr items => itemWarnings place 0 items
  | .obj fields =>
    ownWarnings place fields ++
      namedWarnings place "properties" fields ++ namedWarnings place "$defs" fields ++
      namedWarnings place "definitions" fields ++
      keyWarnings place "items" fields ++ keyWarnings place "allOf" fields ++
      keyWarnings place "anyOf" fields ++ keyWarnings place "oneOf" fields ++
      refWarnings place (formFields fields)
  | _ => []

def itemWarnings (place : Place) (index : Nat) : List Json → List Warning
  | [] => []
  | v::rest => warnings (place ++ [toString index]) v ++ itemWarnings place (index+1) rest

def keyWarnings (place : Place) (key : String) : List (String × Json) → List Warning
  | [] => []
  | (k, v)::rest =>
    if k = key then warnings (place ++ [key]) v else keyWarnings place key rest

def namedWarnings (place : Place) (key : String) : List (String × Json) → List Warning
  | [] => []
  | (k, v)::rest =>
    if k = key then holderWarnings (place ++ [key]) v else namedWarnings place key rest

def holderWarnings (place : Place) : Json → List Warning
  | .obj fields => valueWarnings place fields
  | _ => []

def valueWarnings (place : Place) : List (String × Json) → List Warning
  | [] => []
  | (k, v)::rest => warnings (place ++ [k]) v ++ valueWarnings place rest

end

end ToolSpec.Strict
