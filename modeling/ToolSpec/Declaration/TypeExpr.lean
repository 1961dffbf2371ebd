import ToolSpec.DeclaredType.Basic

/-!
# Written types

The type of a declared parameter as it is written. A path counts by its last segment, which names
a type constructor; references, parentheses and pointer types stand for what they hold. A type that
the table does not know is unconstrained.
-/

set_option autoImplicit false

namespace ToolSpec

mutual

inductive TypeExpr
  | path (segments : List String) (args : List GenericArg)
  | reference (target : TypeExpr)
  | paren (inner : TypeExpr)
  /-- A type between delimiters that are not written. -/
  | group (inner : TypeExpr)
  | slice (element : TypeExpr)
  | array (element : TypeExpr)
  | tuple (elements : List TypeExpr)
  | other

/-- Only a type counts as an argument. Lifetimes, constants and bindings are passed over. -/
inductive GenericArg
  | type (t : TypeExpr)
  | other

end

inductive TypeConstructor
  | text
  | integer
  | number
  | boolean
  | option
  | pointer
  | sequence
  | map
  | unmapped
  deriving DecidableEq, Repr

namespace TypeConstructor

def textNames : List String := ["String", "str", "char", "PathBuf", "Path", "OsString", "OsStr"]

def integerNames : List String :=
  ["i8", "i16", "i32", "i64", "i128", "isize", "u8", "u16", "u32", "u64", "u128", "usize"]

def pointerNames : List String := ["Cow", "Box", "Arc", "Rc"]

def sequenceNames : List String := ["Vec", "VecDeque", "HashSet", "BTreeSet", "IndexSet"]

def mapNames : List String := ["HashMap", "BTreeMap", "IndexMap"]

def ofName (name : String) : TypeConstructor :=
  if name ∈ textNames then .text
  else if name ∈ integerNames then .integer
  else if name = "f32" ∨ name = "f64" then .number
  else if name = "bool" then .boolean
  else if name = "Option" then .option
  else if name ∈ pointerNames then .pointer
  else if name ∈ sequenceNames then .sequence
  else if name ∈ mapNames then .map
  else .unmapped

/-- The declared type of a constructor applied to resolved arguments. An option needs exactly one, a
pointer holds the last, a sequence the first, and a map the second. -/
def apply : TypeConstructor → List DeclaredType → DeclaredType
  | .text, _ => .primitive .string
  | .integer, _ => .primitive .integer
  | .number, _ => .primitive .number
  | .boolean, _ => .primitive .boolean
  | .option, [inner] => .optional inner
  | .option, _ => .unknown
  | .pointer, args => args.getLast?.getD .unknown
  | .sequence, args => .array (args.head?.getD .unknown)
  | .map, args => .objectMap ((args.drop 1).head?.getD .unknown)
  | .unmapped, _ => .unknown

end TypeConstructor

namespace TypeExpr

def angled : List String → String
  | [] => ""
  | args => "<" ++ String.intercalate ", " args ++ ">"

def lastName (segments : List String) : String := segments.getLastD ""

def named (name : String) : TypeExpr := .path [name] []

mutual

def declared : TypeExpr → DeclaredType
  | .path segments args => (TypeConstructor.ofName (lastName segments)).apply (declaredArgs args)
  | .reference target => declared target
  | .paren inner => declared inner
  | .group inner => declared inner
  | .slice element => .array (declared element)
  | .array element => .array (declared element)
  | .tuple [] => .null
  | .tuple elements => .tuple (declaredAll elements)
  | .other => .unknown

def declaredAll : List TypeExpr → List DeclaredType
  | [] => []
  | t::rest => declared t::declaredAll rest

def declaredArgs : List GenericArg → List DeclaredType
  | [] => []
  | .type t::rest => declared t::declaredArgs rest
  | .other::rest => declaredArgs rest

end

def typeArgs (args : List GenericArg) : List TypeExpr :=
  args.filterMap fun
    | .type t => some t
    | .other => none

def optionArgument? : TypeExpr → Option TypeExpr
  | .path segments args =>
    match typeArgs args with
    | [inner] => if lastName segments = "Option" then some inner else none
    | _ => none
  | _ => none

mutual

/-- The short spelling of a type: last segments, and references by their target. -/
def spelling : TypeExpr → String
  | .path segments args => lastName segments ++ angled (spellingArgs args)
  | .reference target => spelling target
  | .paren inner => spelling inner
  | .group inner => spelling inner
  | .slice element => "[" ++ spelling element ++ "]"
  | .array element => "[" ++ spelling element ++ "]"
  | .tuple elements => "(" ++ String.intercalate ", " (spellingAll elements) ++ ")"
  | .other => "_"

def spellingAll : List TypeExpr → List String
  | [] => []
  | t::rest => spelling t::spellingAll rest

def spellingArgs : List GenericArg → List String
  | [] => []
  | .type t::rest => spelling t::spellingArgs rest
  | .other::rest => spellingArgs rest

end

end TypeExpr

end ToolSpec
