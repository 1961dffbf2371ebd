import ToolSpec.Json.Basic

/-!
# Scalars and bounds

The values a literal type may list, and the numeric bounds of a parameter. An integer has 64 bits
and stays an integer in the output. A float that is not finite has no JSON form.
-/

set_option autoImplicit false

namespace ToolSpec

inductive Primitive
  | string
  | integer
  | number
  | boolean
  | null
  deriving DecidableEq, Repr

def Primitive.typeName : Primitive → String
  | .string => "string"
  | .integer => "integer"
  | .number => "number"
  | .boolean => "boolean"
  | .null => "null"

inductive Scalar
  | null
  | bool (b : Bool)
  | integer (n : Int64)
  | number (x : Double)
  | string (s : String)
  deriving DecidableEq

namespace Scalar

def typeName? : Scalar → Option String
  | .null => none
  | .bool _ => some "boolean"
  | .integer _ => some "integer"
  | .number _ => some "number"
  | .string _ => some "string"

def isNull : Scalar → Bool
  | .null => true
  | _ => false

def isFloat : Scalar → Bool
  | .number _ => true
  | _ => false

def toJson : Scalar → Json
  | .null => .null
  | .bool b => .bool b
  | .integer n => .int n.toInt
  | .number x => .ofDouble x
  | .string s => .str s

end Scalar

inductive Bound
  | int (n : Int64)
  | float (x : Double)
  deriving DecidableEq

namespace Bound

/-- The keyword value of a bound. A bound that is not finite constrains nothing. -/
def keyword? : Bound → Option Json
  | .int n => some (.int n.toInt)
  | .float x => x.finite?.map .float

def toJson (b : Bound) : Json := .ofOption b.keyword?

end Bound

end ToolSpec
