import ToolSpec.DeclaredType.Scalar

/-!
# Keywords of one parameter

Schema keywords and overrides that a declaration attaches to a parameter. What is not set
contributes nothing, and when two records are merged the later one wins where it is set.
-/

set_option autoImplicit false

namespace ToolSpec

inductive TypeName
  | object
  | array
  | string
  | number
  | integer
  | boolean
  deriving DecidableEq, Repr

namespace TypeName

def text : TypeName → String
  | .object => "object"
  | .array => "array"
  | .string => "string"
  | .number => "number"
  | .integer => "integer"
  | .boolean => "boolean"

def ofText? : String → Option TypeName
  | "object" => some .object
  | "array" => some .array
  | "string" => some .string
  | "number" => some .number
  | "integer" => some .integer
  | "boolean" => some .boolean
  | _ => none

theorem of_text_text (t : TypeName) : ofText? t.text = some t := by cases t <;> rfl

end TypeName

structure Keywords where
  type : Option TypeName
  description : Option String
  enum : Option (List Scalar)
  required : Option Bool
  minimum : Option Bound
  maximum : Option Bound
  exclusiveMinimum : Option Bound
  exclusiveMaximum : Option Bound
  minLength : Option UInt64
  maxLength : Option UInt64
  pattern : Option String
  deriving DecidableEq

namespace Keywords

def empty : Keywords := ⟨none, none, none, none, none, none, none, none, none, none, none⟩

def merge (base later : Keywords) : Keywords where
  type := later.type.or base.type
  description := later.description.or base.description
  enum := later.enum.or base.enum
  required := later.required.or base.required
  minimum := later.minimum.or base.minimum
  maximum := later.maximum.or base.maximum
  exclusiveMinimum := later.exclusiveMinimum.or base.exclusiveMinimum
  exclusiveMaximum := later.exclusiveMaximum.or base.exclusiveMaximum
  minLength := later.minLength.or base.minLength
  maxLength := later.maxLength.or base.maxLength
  pattern := later.pattern.or base.pattern

def mergeAll : List Keywords → Keywords := List.foldl merge empty

def constraints (k : Keywords) : Fields Json :=
  let bound (key : String) (b : Option Bound) : Fields Json :=
    (b.bind Bound.keyword?).toList.map (key, ·)
  bound "minimum" k.minimum ++ bound "maximum" k.maximum ++
    bound "exclusiveMinimum" k.exclusiveMinimum ++ bound "exclusiveMaximum" k.exclusiveMaximum ++
    k.minLength.toList.map (fun n => ("minLength", .int n.toNat)) ++
    k.maxLength.toList.map (fun n => ("maxLength", .int n.toNat)) ++
    k.pattern.toList.map (fun p => ("pattern", .str p))

theorem merge_empty (k : Keywords) : k.merge empty = k := by cases k; simp [merge, empty]

theorem empty_merge (k : Keywords) : empty.merge k = k := by cases k; simp [merge, empty]

theorem merge_assoc (a b c : Keywords) : (a.merge b).merge c = a.merge (b.merge c) := by
  simp [merge, Option.or_assoc]

theorem merge_last {α : Type} (keyword : Keywords → Option α)
    (hmerge : ∀ base later : Keywords,
      keyword (base.merge later) = (keyword later).or (keyword base))
    (k : Keywords) (ks : List Keywords) :
    keyword (ks.foldl merge k) = (ks.filterMap keyword).getLast?.or (keyword k) := by
  induction ks generalizing k with
  | nil => rfl
  | cons later ks ih =>
    rw [List.foldl_cons, ih, hmerge, ← Option.or_assoc, List.filterMap_cons]
    cases keyword later with
    | none => simp
    | some v => simp [List.getLast?_cons]

end Keywords

end ToolSpec
