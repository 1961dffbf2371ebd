import ToolSpec.Declaration.Attribute
import ToolSpec.Declaration.TypeExpr
import ToolSpec.Signature.Basic

/-!
# Function declarations

A declaration gives the signature of its function, or all faults that it has. Every parameter is
read first; the keywords of those that could be read are put together afterwards, so faults of
reading come before faults of keywords. Each faulty parameter has one fault.
-/

set_option autoImplicit false

namespace ToolSpec

structure ParameterDecl where
  pattern : Pattern
  type : TypeExpr
  attributes : List Attribute

structure Declaration where
  name : Identifier
  visibility : String
  hasReceiver : Bool
  attributes : List Attribute
  parameters : List ParameterDecl

structure DerivedSchema where
  schema : Json
  warnings : List Warning

/-- What a declaration finds where it is compiled: the schemas of types and the values of
expressions. -/
structure Catalogue where
  schemas : TypeExpr → DerivedSchema
  values : Values

/-- A constructor of the signature, and the function without what belonged to it. -/
structure Companion where
  constructor : String
  visibility : String
  doc : String
  keptAttributes : List String
  keptParameterAttributes : List (List String)
  signature : Signature
  warnings : List Warning

namespace Declaration
open ToolSpec.Text

def docLine (text : String) : Line :=
  trimEnd <| match text.toList with
    | ' '::rest => rest
    | s => s

def documentation (attributes : List Attribute) : Option String :=
  match trim (joinLines ((attributes.filterMap Attribute.doc?).map docLine)) with
  | [] => none
  | text => some (String.ofList text)

structure ParsedParameter where
  name : String
  type : TypeExpr
  description : Option String
  default : Option Literal
  members : Option (List String)
  arguments : List FieldArg
  ownSchema : Bool

def readAttribute (p : ParsedParameter) : Attribute → Except DeclarationError ParsedParameter
  | .default v => .ok { p with default := some v }
  | .members names => .ok { p with members := some (names.map Member.name) }
  | .field args =>
    if args.any FieldArg.isPath then .error .keywordPath
    else .ok { p with arguments := p.arguments ++ args }
  | .schema => .ok { p with ownSchema := true }
  | .malformed _ => .error .malformedAttribute
  | .doc _ | .other _ => .ok p

def readAttributes : ParsedParameter → List Attribute → Except DeclarationError ParsedParameter
  | p, [] => .ok p
  | p, a::rest =>
    match readAttribute p a with
    | .ok p => readAttributes p rest
    | .error e => .error e

def readParameter (d : ParameterDecl) : Except DeclarationError ParsedParameter :=
  match d.pattern with
  | .receiver => .error .receiver
  | .other => .error .pattern
  | .binding id =>
    readAttributes ⟨id.name, d.type, documentation d.attributes, none, none, [], false⟩
      d.attributes

/-- The type of a parameter, by its own schema if that is asked for. An option at the top is kept
outside of the schema. -/
def typeOf (c : Catalogue) (t : TypeExpr) (ownSchema : Bool) : DeclaredType :=
  if ownSchema then
    match t.optionArgument? with
    | some inner => .optional (.schema (c.schemas inner).schema)
    | none => .schema (c.schemas t).schema
  else t.declared

def schemaWarnings (c : Catalogue) (p : ParsedParameter) : List Warning :=
  if p.ownSchema then (c.schemas (p.type.optionArgument?.getD p.type)).warnings else []

def keywordItems (x : Values) (args : List FieldArg) :
    Except DeclarationError (List MetadataItem) :=
  match args with
  | [] => .ok []
  | args => (FieldArg.applyAll x .empty args).map fun k => [.field k]

def wrap (a : DeclaredType) : List MetadataItem → DeclaredType
  | [] => a
  | items => .annotated a items

def buildParameter (c : Catalogue) (p : ParsedParameter) : Except DeclarationError Parameter :=
  (keywordItems c.values p.arguments).map fun keywords =>
    { name := p.name
      type := wrap (typeOf c p.type p.ownSchema) <|
        p.description.toList.map .docTag ++ p.members.toList.map .enumClass ++ keywords
      default := p.default.map (Literal.json c.values) }

def separate {α : Type} : List (Except DeclarationError α) → List α × List DeclarationError
  | [] => ([], [])
  | .ok a::rest => (a::(separate rest).1, (separate rest).2)
  | .error e::rest => ((separate rest).1, e::(separate rest).2)

def parsed (d : Declaration) : List ParsedParameter × List DeclarationError :=
  separate (d.parameters.map readParameter)

def built (c : Catalogue) (d : Declaration) : List Parameter × List DeclarationError :=
  separate (d.parsed.1.map (buildParameter c))

def isMethod (d : Declaration) : Bool :=
  d.hasReceiver || d.parameters.any (·.pattern.isReceiver)

def errors (c : Catalogue) (d : Declaration) : List DeclarationError :=
  if d.isMethod then [.receiver] else d.parsed.2 ++ (d.built c).2

/-- The signature keeps the name of the function as it is spelled. -/
def signatureOf (d : Declaration) (parameters : List Parameter) : Signature :=
  ⟨d.name.spelling, documentation d.attributes, parameters⟩

def signature (c : Catalogue) (d : Declaration) : Except (List DeclarationError) Signature :=
  match d.errors c with
  | [] => .ok (d.signatureOf (d.built c).1)
  | es => .error es

def keptAttributes (p : ParameterDecl) : List String :=
  (p.attributes.map Attribute.path).filter (· ∉ Attribute.ownPaths)

def companion (c : Catalogue) (d : Declaration) : Except (List DeclarationError) Companion :=
  (d.signature c).map fun s =>
    { constructor := d.name.name ++ "_signature"
      visibility := d.visibility
      doc := "Returns the declared signature of [`" ++ d.name.spelling ++ "`]."
      keptAttributes := d.attributes.map Attribute.path
      keptParameterAttributes := d.parameters.map keptAttributes
      signature := s
      warnings := d.parsed.1.flatMap (schemaWarnings c) }

end Declaration

end ToolSpec
