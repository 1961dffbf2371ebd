import ToolSpec.DeclaredType.Basic

/-!
# Resolving a type to a schema

Every declared type has a schema fragment and a verdict whether it admits null at the top. Null
members of a union and null entries of a literal leave the fragment and set the verdict. Equal
alternatives are listed once. A type with no counterpart in JSON Schema is unconstrained.
-/

set_option autoImplicit false

namespace ToolSpec

def distinctFrom {α : Type} (eq : α → α → Bool) (seen : List α) : List α → List α
  | [] => []
  | v::rest =>
    if seen.any (eq · v) then distinctFrom eq seen rest
    else v::distinctFrom eq (seen ++ [v]) rest

def distinct {α : Type} (eq : α → α → Bool) (vs : List α) : List α := distinctFrom eq [] vs

structure Resolution where
  fragment : Fields Json
  nullable : Bool

namespace Resolution

def schema (r : Resolution) : Json := .obj r.fragment

def plain (fragment : Fields Json) : Resolution := ⟨fragment, false⟩

/-- The schema of some alternatives: none admits null alone, one stands for itself. -/
def unionFragment : List Json → Fields Json
  | [] => [("type", .str "null")]
  | [v] => v.fieldsOrEmpty
  | vs => [("anyOf", .arr vs)]

def union (hasNull : Bool) (members : List Resolution) : Resolution where
  fragment := unionFragment (distinct Json.same (members.map schema))
  nullable := hasNull || members.any nullable

/-- The types of listed values; a float among them makes every integer a number. -/
def literalTypes (values : List Scalar) : List String :=
  let widened := if values.any Scalar.isFloat then fun t => if t = "integer" then "number" else t
    else id
  distinct (· = ·) ((values.filterMap Scalar.typeName?).map widened)

def literalType : List String → Json
  | [t] => .str t
  | ts => .strs ts

def literal (values : List Scalar) : Resolution :=
  let present := values.filter (!·.isNull)
  if present = [] then ⟨[("type", .str "null")], true⟩
  else
    ⟨[("type", literalType (literalTypes present)), ("enum", .arr (present.map Scalar.toJson))],
      values.any Scalar.isNull⟩

end Resolution

namespace DeclaredType
open Resolution

mutual

def resolve : DeclaredType → Resolution
  | .primitive kind => plain [("type", .str kind.typeName)]
  | .array element => plain [("type", .str "array"), ("items", (resolve element).schema)]
  | .objectMap _ => plain [("type", .str "object")]
  | .tuple elements => plain [("type", .str "array"), ("items", .arr (resolveEach elements))]
  | .union members => Resolution.union (members.any isNull) (resolveMembers members)
  | .literal values => Resolution.literal values
  | .enumRef members => plain [("type", .str "string"), ("enum", .strs members)]
  | .annotated inner _ => resolve inner
  | .schema value => plain value.fieldsOrEmpty
  | .unknown => plain []

def resolveEach : List DeclaredType → List Json
  | [] => []
  | a::rest => (resolve a).schema::resolveEach rest

def resolveMembers : List DeclaredType → List Resolution
  | [] => []
  | a::rest => if a.isNull then resolveMembers rest else resolve a::resolveMembers rest

end

theorem resolve_each_eq_map (as : List DeclaredType) :
    resolveEach as = as.map fun a => a.resolve.schema := by
  induction as with
  | nil => rfl
  | cons a rest ih => simp [resolveEach, ih]

theorem resolve_members_eq_map (as : List DeclaredType) :
    resolveMembers as = (as.filter (!·.isNull)).map resolve := by
  induction as with
  | nil => rfl
  | cons a rest ih => cases h : a.isNull <;> simp [resolveMembers, h, ih]

theorem resolve_annotated (a : DeclaredType) (items : List MetadataItem) :
    (DeclaredType.annotated a items).resolve = a.resolve := by rw [resolve]

end DeclaredType

end ToolSpec
