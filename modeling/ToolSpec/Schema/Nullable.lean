import ToolSpec.Json.Basic

/-!
# Requiring every property

A strict tool schema requires all its properties, so an optional one is widened to admit null
instead. Keywords that only describe a property stay where they are.
-/

set_option autoImplicit false

namespace ToolSpec.Nullable

def nullSchema : Json := .ofType "null"

def descriptiveKeywords : List String := ["description", "default", "examples"]

def isDescriptive (key : String) : Bool := key ∈ descriptiveKeywords

def allowNull (fs : Fields Json) : Fields Json :=
  match fs.lookup "enum" with
  | some (.arr vs) =>
    if vs.any Json.isNull then fs else Fields.insert "enum" (.arr (vs ++ [.null])) fs
  | _ => fs

/-- The constraints become one branch of a union whose other branch is null. Without constraints
null is admitted anyway. -/
def orNull (fs : Fields Json) : Fields Json :=
  if fs.all fun (k, _) => isDescriptive k then fs
  else
    ("anyOf", .arr [.obj (fs.filter fun (k, _) => !isDescriptive k), nullSchema])::
      fs.filter fun (k, _) => isDescriptive k

def widenTypes (types : List Json) : List Json :=
  if types.any (·.str? = some "null") then types else types ++ [.str "null"]

def widenBranches (branches : List Json) : List Json :=
  if branches.any (·.same nullSchema) then branches else branches ++ [nullSchema]

def widenFields (fs : Fields Json) : Fields Json :=
  match fs.lookup "type" with
  | some (.str t) =>
    allowNull (if t = "null" then fs else Fields.insert "type" (.strs [t, "null"]) fs)
  | some (.arr types) => allowNull (Fields.insert "type" (.arr (widenTypes types)) fs)
  | some _ => allowNull fs
  | none =>
    match fs.lookup "anyOf" with
    | some (.arr branches) => allowNull (Fields.insert "anyOf" (.arr (widenBranches branches)) fs)
    | _ => orNull fs

def widen : Json → Json
  | .obj fs => .obj (widenFields fs)
  | v => v

def requiredNames (fs : Fields Json) : List String :=
  match fs.lookup "required" with
  | some (.arr names) => names.filterMap Json.str?
  | _ => []

def widenMissing (required : List String) (properties : Fields Json) : Fields Json :=
  properties.map fun (k, v) => (k, if k ∈ required then v else widen v)

/-- Every property of the schema itself becomes required; the ones that were not are widened. -/
def requireAll : Json → Json
  | .obj fs =>
    match fs.lookup "properties" with
    | some (.obj properties) =>
      .obj <| Fields.insert "required" (.strs (Fields.keys properties)) <|
        Fields.insert "properties" (.obj (widenMissing (requiredNames fs) properties)) fs
    | _ => .obj fs
  | v => v

end ToolSpec.Nullable
