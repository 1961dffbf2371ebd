import ToolSpec.Declaration.Literal
import ToolSpec.Declaration.Pattern

/-!
# Attributes

The attributes of a declaration that say something about a parameter: documentation, a default,
the admitted names, keywords, and the request to use the schema of the type. One of them that
cannot be read is malformed; any other attribute is kept by its path.
-/

set_option autoImplicit false

namespace ToolSpec

inductive Member
  | word (id : Identifier)
  | quoted (text : String)

def Member.name : Member → String
  | .word id => id.name
  | .quoted text => text

/-- A keyword argument; its key is a path as it is written. -/
structure FieldArg where
  key : String
  value : Literal

inductive Attribute
  | doc (text : String)
  | default (value : Literal)
  | members (names : List Member)
  | field (args : List FieldArg)
  | schema
  | malformed (path : String)
  | other (path : String)

inductive DeclarationError
  | receiver
  | pattern
  | malformedAttribute
  | keywordPath
  | unknownKeyword
  | unknownType
  | typeNotText
  deriving DecidableEq, Repr

namespace DeclarationError

def message : DeclarationError → String
  | .receiver => "#[function_schema] cannot be applied to methods with a `self` receiver"
  | .pattern => "#[function_schema] parameters must be plain identifiers"
  | .malformedAttribute => "malformed attribute"
  | .keywordPath => "expected a field keyword"
  | .unknownKeyword =>
    "unknown #[field] keyword; expected one of minimum, maximum, exclusive_minimum, " ++
      "exclusive_maximum, min_length, max_length, pattern, description, required or json_type"
  | .unknownType => "unknown JSON type; expected object, array, string, number, integer or boolean"
  | .typeNotText => "`json_type` expects a string literal"

end DeclarationError

namespace FieldArg

/-- The type that an argument names. Only a literal text names one. -/
def typeName : Literal → Except DeclarationError TypeName
  | .value (.str s) =>
    match TypeName.ofText? s with
    | some t => .ok t
    | none => .error .unknownType
  | _ => .error .typeNotText

/-- Keywords with one argument set. A value of the wrong kind, which no declaration that compiles
has, sets nothing. -/
def apply (x : Values) (k : Keywords) (arg : FieldArg) : Except DeclarationError Keywords :=
  let v := arg.value
  match arg.key with
  | "minimum" | "ge" => .ok { k with minimum := (v.bound? x).or k.minimum }
  | "maximum" | "le" => .ok { k with maximum := (v.bound? x).or k.maximum }
  | "exclusive_minimum" | "gt" =>
    .ok { k with exclusiveMinimum := (v.bound? x).or k.exclusiveMinimum }
  | "exclusive_maximum" | "lt" =>
    .ok { k with exclusiveMaximum := (v.bound? x).or k.exclusiveMaximum }
  | "min_length" => .ok { k with minLength := (v.length? x).or k.minLength }
  | "max_length" => .ok { k with maxLength := (v.length? x).or k.maxLength }
  | "pattern" => .ok { k with pattern := (v.string? x).or k.pattern }
  | "description" => .ok { k with description := (v.string? x).or k.description }
  | "required" => .ok { k with required := (v.bool? x).or k.required }
  | "json_type" | "type" => (typeName v).map fun t => { k with type := some t }
  | _ => .error .unknownKeyword

def applyAll (x : Values) : Keywords → List FieldArg → Except DeclarationError Keywords
  | k, [] => .ok k
  | k, arg::rest =>
    match apply x k arg with
    | .ok k => applyAll x k rest
    | .error e => .error e

/-- A path of several segments is no keyword. -/
def isPath (arg : FieldArg) : Bool := arg.key.toList.contains ':'

end FieldArg

namespace Attribute

def ownPaths : List String := ["doc", "default", "members", "field", "schema"]

def path : Attribute → String
  | .doc _ => "doc"
  | .default _ => "default"
  | .members _ => "members"
  | .field _ => "field"
  | .schema => "schema"
  | .malformed path => path
  | .other path => path

def doc? : Attribute → Option String
  | .doc text => some text
  | _ => none

def member? : List Token → Option Member
  | [.word id] => some (.word id)
  | [.text s] => some (.quoted s)
  | _ => none

/-- Arguments with a key and a value. A path for a key is a fault of its own, before anything that
follows it. -/
def fieldArgs? : List (List Token) → Option (List FieldArg)
  | [] => some []
  | arg::rest =>
    match Token.splitPath arg with
    | ([.word id], .mark '='::value) =>
      if Token.isExpression value then
        (fieldArgs? rest).map (⟨id.spelling, .ofTokens value⟩::·)
      else none
    | ([], _) | ([.word _], _) => none
    | (path, _) => some [⟨Token.spellingAll path, .path ""⟩]

def checkedPaths : List String := ["default", "members", "field", "schema"]

def own? (path : String) (rest : List Token) : Option Attribute :=
  match path, rest with
  | "schema", [] => some .schema
  | "doc", [.mark '=', .text s] => some (.doc s)
  | "default", [.group _ content] =>
    if Token.isExpression content then some (.default (.ofTokens content)) else none
  | "members", [.group _ content] => ((Token.arguments content).mapM member?).map .members
  | "field", [.group _ content] => (fieldArgs? (Token.arguments content)).map .field
  | _, _ => none

def ofTokens (ts : List Token) : Attribute :=
  let (segments, rest) := Token.splitPath ts
  let path := Token.spellingAll segments
  (own? path rest).getD (if path ∈ checkedPaths then .malformed path else .other path)

def read (text : String) : Attribute := ofTokens (Token.read text)

end Attribute

end ToolSpec
