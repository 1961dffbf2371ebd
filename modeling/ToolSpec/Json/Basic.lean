import ToolSpec.Json.Binary64
import ToolSpec.Json.Fields

/-!
# JSON values

Integers and floating-point numbers are different kinds of number, and the fields of an object
are ordered. `same` is the equality under which alternatives of a union are compared: it ignores
the order of fields, tells `1` from `1.0`, and takes the two zeros as equal.
-/

set_option autoImplicit false

namespace ToolSpec

/-- Written integers have 64 bits, signed or not; every other number is a float. -/
inductive Number
  | int (n : Int)
  | float (x : Binary64)
  deriving DecidableEq

namespace Number

def same : Number → Number → Bool
  | .int a, .int b => a = b
  | .float x, .float y => x.same y
  | _, _ => false

end Number

inductive Json
  | null
  | bool (b : Bool)
  | num (n : Number)
  | str (s : String)
  | arr (items : List Json)
  | obj (fields : List (String × Json))

instance : Inhabited Json := ⟨.null⟩

namespace Json

def int (n : Int) : Json := .num (.int n)

def float (x : Binary64) : Json := .num (.float x)

def strs (names : List String) : Json := .arr (names.map .str)

/-- A number that has no finite form becomes null. -/
def ofDouble : Double → Json
  | .finite x => float x
  | _ => .null

def ofOption : Option Json → Json := (·.getD .null)

def isNull : Json → Bool
  | .null => true
  | _ => false

def str? : Json → Option String
  | .str s => some s
  | _ => none

def bool? : Json → Option Bool
  | .bool b => some b
  | _ => none

def items? : Json → Option (List Json)
  | .arr items => some items
  | _ => none

def fields? : Json → Option (Fields Json)
  | .obj fields => some fields
  | _ => none

def fieldsOrEmpty (v : Json) : Fields Json := v.fields?.getD []

def isObject (v : Json) : Bool := v.fields?.isSome

def get? (v : Json) (key : String) : Option Json := v.fields?.bind (·.lookup key)

mutual

def same : Json → Json → Bool
  | .null, .null => true
  | .bool a, .bool b => a = b
  | .num a, .num b => a.same b
  | .str a, .str b => a = b
  | .arr as, .arr bs => sameItems as bs
  | .obj as, .obj bs => as.length = bs.length && sameFields as bs
  | _, _ => false

def sameItems : List Json → List Json → Bool
  | [], [] => true
  | a::as, b::bs => same a b && sameItems as bs
  | _, _ => false

def sameFields : List (String × Json) → List (String × Json) → Bool
  | [], _ => true
  | (k, a)::as, bs =>
    (match bs.lookup k with
      | some b => same a b
      | none => false) && sameFields as bs

end

def ofType (name : String) : Json := .obj [("type", .str name)]

end Json

end ToolSpec
