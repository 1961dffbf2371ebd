import ToolSpec.DeclaredType.Keywords

/-!
# Reading records, scalars and keywords

A reader answers nothing if a value has the wrong form. A record ignores unknown keys. A key may
be required, optional (absent or null for no value), or have a standard value if it is absent.
-/

set_option autoImplicit false

namespace ToolSpec

namespace Codec

variable {α : Type}

def needed (key : String) (read : Json → Option α) (fs : Fields Json) : Option α :=
  (fs.lookup key).bind read

def optional (key : String) (read : Json → Option α) (fs : Fields Json) : Option (Option α) :=
  match fs.lookup key with
  | none | some .null => some none
  | some v => (read v).map some

def withDefault (key : String) (standard : α) (read : Json → Option α) (fs : Fields Json) :
    Option α :=
  match fs.lookup key with
  | none => some standard
  | some v => read v

def list (read : Json → Option α) : Json → Option (List α)
  | .arr items => items.mapM read
  | _ => none

def strings : Json → Option (List String) := list Json.str?

def entry (key : String) (write : α → Json) (value : Option α) : Fields Json :=
  value.toList.map fun v => (key, write v)

def named (values : List α) (name : α → String) : Json → Option α
  | .str s => values.find? (name · = s)
  | _ => none

end Codec

open Codec

namespace Number

def int64? : Number → Option Int64
  | .int n => if Int64.minValue.toInt ≤ n ∧ n ≤ Int64.maxValue.toInt then some (.ofInt n) else none
  | .float _ => none

def toDouble : Number → Double
  | .int n => .ofInt n
  | .float x => .finite x

end Number

def Json.uint64? : Json → Option UInt64
  | .num (.int n) => if 0 ≤ n ∧ n < UInt64.size then some (.ofNat n.toNat) else none
  | _ => none

namespace Primitive

def all : List Primitive := [.string, .integer, .number, .boolean, .null]

def ofJson? : Json → Option Primitive := named all typeName

end Primitive

namespace Scalar

/-- An integer beyond 64 signed bits becomes a float. -/
def ofNumber (n : Number) : Scalar :=
  match n.int64? with
  | some i => .integer i
  | none => .number n.toDouble

def ofJson? : Json → Option Scalar
  | .null => some .null
  | .bool b => some (.bool b)
  | .num n => some (ofNumber n)
  | .str s => some (.string s)
  | .arr _ | .obj _ => none

end Scalar

namespace Bound

def ofNumber (n : Number) : Bound :=
  match n.int64? with
  | some i => .int i
  | none => .float n.toDouble

def ofJson? : Json → Option Bound
  | .num n => some (ofNumber n)
  | _ => none

end Bound

namespace TypeName

def ofJson? (v : Json) : Option TypeName := v.str?.bind ofText?

end TypeName

namespace Keywords

def toJson (k : Keywords) : Json :=
  .obj <| entry "type" (fun t => .str t.text) k.type ++
    entry "description" .str k.description ++
    entry "enum" (fun vs => .arr (vs.map Scalar.toJson)) k.enum ++
    entry "required" .bool k.required ++
    entry "minimum" Bound.toJson k.minimum ++
    entry "maximum" Bound.toJson k.maximum ++
    entry "exclusive_minimum" Bound.toJson k.exclusiveMinimum ++
    entry "exclusive_maximum" Bound.toJson k.exclusiveMaximum ++
    entry "min_length" (fun n => .int n.toNat) k.minLength ++
    entry "max_length" (fun n => .int n.toNat) k.maxLength ++
    entry "pattern" .str k.pattern

def ofJson? : Json → Option Keywords
  | .obj fs => do
    let type ← optional "type" TypeName.ofJson? fs
    let description ← optional "description" Json.str? fs
    let enum ← optional "enum" (list Scalar.ofJson?) fs
    let required ← optional "required" Json.bool? fs
    let minimum ← optional "minimum" Bound.ofJson? fs
    let maximum ← optional "maximum" Bound.ofJson? fs
    let exclusiveMinimum ← optional "exclusive_minimum" Bound.ofJson? fs
    let exclusiveMaximum ← optional "exclusive_maximum" Bound.ofJson? fs
    let minLength ← optional "min_length" Json.uint64? fs
    let maxLength ← optional "max_length" Json.uint64? fs
    let pattern ← optional "pattern" Json.str? fs
    pure ⟨type, description, enum, required, minimum, maximum, exclusiveMinimum, exclusiveMaximum,
      minLength, maxLength, pattern⟩
  | _ => none

end Keywords

end ToolSpec
