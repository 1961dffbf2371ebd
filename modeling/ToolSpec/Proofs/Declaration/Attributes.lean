import ToolSpec.Proofs.Declaration.Parameters

/-!
# Attributes one by one

Reading attributes stops at the first that has a fault. If none has one, each attribute has set its
own part of the parameter, and what stood there gives way to it or is extended. The same holds of
keyword arguments. So the outcome is known without the run: the first fault of the list, or the
parts.
-/

set_option autoImplicit false

namespace ToolSpec

def faultOr {α : Type} (fault? : Option DeclarationError) (a : α) : Except DeclarationError α :=
  fault?.elim (.ok a) .error

section faultOr

variable {α : Type} {fault? : Option DeclarationError} {a b : α} {e : DeclarationError}

theorem fault_or_eq_ok : faultOr fault? a = .ok b ↔ fault? = none ∧ b = a := by
  cases fault? <;> simp [faultOr, eq_comm]

theorem fault_or_eq_error : faultOr fault? a = .error e ↔ fault? = some e := by
  cases fault? <;> simp [faultOr]

end faultOr

namespace FieldArg
open Codec

def typeKeys : List String := ["json_type", "type"]

def valueKeys : List String :=
  ["minimum", "ge", "maximum", "le", "exclusive_minimum", "gt", "exclusive_maximum", "lt",
    "min_length", "max_length", "pattern", "description", "required"]

def typeWords : List String := ["object", "array", "string", "number", "integer", "boolean"]

def typeFault? : Literal → Option DeclarationError
  | .value (.str s) => if s ∈ typeWords then none else some .unknownType
  | _ => some .typeNotText

def fault? (arg : FieldArg) : Option DeclarationError :=
  if arg.key ∈ typeKeys then typeFault? arg.value
  else if arg.key ∈ valueKeys then none
  else some .unknownKeyword

def typeName? : Literal → Option TypeName := Literal.read TypeName.ofJson? fun _ => none

def setting {α : Type} (keys : List String) (read : Literal → Option α) (arg : FieldArg) :
    Option α :=
  if arg.key ∈ keys then read arg.value else none

def keywords (x : Values) (arg : FieldArg) : Keywords where
  type := arg.setting typeKeys typeName?
  description := arg.setting ["description"] (Literal.string? x)
  enum := none
  required := arg.setting ["required"] (Literal.bool? x)
  minimum := arg.setting ["minimum", "ge"] (Literal.bound? x)
  maximum := arg.setting ["maximum", "le"] (Literal.bound? x)
  exclusiveMinimum := arg.setting ["exclusive_minimum", "gt"] (Literal.bound? x)
  exclusiveMaximum := arg.setting ["exclusive_maximum", "lt"] (Literal.bound? x)
  minLength := arg.setting ["min_length"] (Literal.length? x)
  maxLength := arg.setting ["max_length"] (Literal.length? x)
  pattern := arg.setting ["pattern"] (Literal.string? x)

def keywordsOf (x : Values) (args : List FieldArg) : Keywords := .mergeAll (args.map (keywords x))

theorem of_text_is_some (s : String) : (TypeName.ofText? s).isSome = decide (s ∈ typeWords) := by
  unfold TypeName.ofText?
  split <;> simp_all [typeWords]

theorem type_name_cases (v : Literal) :
    (∃ t, typeName v = .ok t ∧ typeFault? v = none ∧ typeName? v = some t) ∨
    ∃ e, typeName v = .error e ∧ typeFault? v = some e := by
  cases v with
  | character c => exact .inr ⟨_, rfl, rfl⟩
  | path text => exact .inr ⟨_, rfl, rfl⟩
  | value v =>
    cases v with
    | str s =>
      have hword := of_text_is_some s
      cases ht : TypeName.ofText? s with
      | some t =>
        have hs : s ∈ typeWords := by simpa [ht] using hword
        exact .inl ⟨t, by rw [typeName, ht], if_pos hs, ht⟩
      | none =>
        have hs : s ∉ typeWords := by simpa [ht] using hword
        exact .inr ⟨.unknownType, by rw [typeName, ht], if_neg hs⟩
    | _ => exact .inr ⟨_, rfl, rfl⟩

theorem apply_type (k : Keywords) (v : Literal) :
    ((typeName v).map fun t => { k with type := some t }) =
      faultOr (typeFault? v) { k with type := (typeName? v).or k.type } := by
  rcases type_name_cases v with ⟨t, ht, hfault, hread⟩ | ⟨e, he, hfault⟩
  · rw [ht, hfault, hread]
    rfl
  · rw [he, hfault]
    rfl

theorem apply_eq (x : Values) (k : Keywords) (arg : FieldArg) :
    apply x k arg = faultOr arg.fault? (k.merge (arg.keywords x)) := by
  obtain ⟨key, v⟩ := arg
  unfold apply
  dsimp only
  split
  -- The two names of the type keyword, and a key that is not known.
  case h_14 | h_15 =>
    rw [apply_type]
    simp [fault?, keywords, setting, typeKeys, Keywords.merge]
  case h_16 => simp_all [fault?, faultOr, typeKeys, valueKeys]
  all_goals
    simp [fault?, faultOr, keywords, setting, typeKeys, valueKeys, Keywords.merge]

theorem apply_all_eq (x : Values) (k : Keywords) (args : List FieldArg) :
    applyAll x k args =
      faultOr (args.findSome? fault?) ((args.map (keywords x)).foldl Keywords.merge k) := by
  induction args generalizing k with
  | nil => rfl
  | cons arg rest ih =>
    rw [applyAll, apply_eq, List.findSome?_cons]
    cases arg.fault? with
    | some e => rfl
    | none => exact ih (k.merge (arg.keywords x))

def items (x : Values) : List FieldArg → List MetadataItem
  | [] => []
  | args => [.field (keywordsOf x args)]

theorem keyword_items_eq (x : Values) (args : List FieldArg) :
    Declaration.keywordItems x args = faultOr (args.findSome? fault?) (items x args) := by
  cases args with
  | nil => rfl
  | cons arg rest =>
    have hitems : Declaration.keywordItems x (arg::rest) =
        (applyAll x .empty (arg::rest)).map fun k => [.field k] := rfl
    rw [hitems, apply_all_eq]
    cases (arg::rest).findSome? fault? <;> rfl

end FieldArg

namespace Attribute

def isSchema : Attribute → Bool
  | .schema => true
  | _ => false

def fault? : Attribute → Option DeclarationError
  | .malformed _ => some .malformedAttribute
  | .field args => if args.any FieldArg.isPath then some .keywordPath else none
  | _ => none

def default? : Attribute → Option Literal
  | .default v => some v
  | _ => none

def members? : Attribute → Option (List String)
  | .members names => some (names.map Member.name)
  | _ => none

def arguments? : Attribute → Option (List FieldArg)
  | .field args => some args
  | _ => none

def argumentsOf (as : List Attribute) : List FieldArg := (as.filterMap arguments?).flatten

end Attribute

namespace Declaration
open Attribute

/-- A parameter after some attributes without a fault. -/
def ParsedParameter.after (p : ParsedParameter) (as : List Attribute) : ParsedParameter :=
  { p with
    default := (as.filterMap default?).getLast?.or p.default
    members := (as.filterMap members?).getLast?.or p.members
    arguments := p.arguments ++ argumentsOf as
    ownSchema := p.ownSchema || as.any isSchema }

theorem after_append (p : ParsedParameter) (as bs : List Attribute) :
    p.after (as++bs) = (p.after as).after bs := by
  simp [ParsedParameter.after, argumentsOf, Option.or_assoc, Bool.or_assoc]

theorem read_attribute_eq (p : ParsedParameter) (a : Attribute) :
    readAttribute p a = faultOr a.fault? (p.after [a]) := by
  cases a with
  | malformed path => rfl
  | field args =>
    rw [readAttribute, fault?]
    split <;>
      simp [faultOr, ParsedParameter.after, default?, members?, arguments?, argumentsOf, isSchema]
  | _ =>
    simp [readAttribute, fault?, faultOr, ParsedParameter.after, default?, members?, arguments?,
      argumentsOf, isSchema, List.filterMap_cons]

theorem read_attributes_eq (p : ParsedParameter) (as : List Attribute) :
    readAttributes p as = faultOr (as.findSome? Attribute.fault?) (p.after as) := by
  induction as generalizing p with
  | nil => simp [readAttributes, faultOr, ParsedParameter.after, argumentsOf]
  | cons a rest ih =>
    have hstep : p.after (a::rest) = (p.after [a]).after rest := after_append p [a] rest
    rw [readAttributes, read_attribute_eq, List.findSome?_cons, hstep]
    cases a.fault? with
    | some e => rfl
    | none => exact ih (p.after [a])

end Declaration

namespace ParameterDecl
open Declaration

def readingFault? (q : ParameterDecl) : Option DeclarationError :=
  match q.pattern with
  | .binding _ => q.attributes.findSome? Attribute.fault?
  | .receiver => some .receiver
  | .other => some .pattern

def arguments (q : ParameterDecl) : List FieldArg := Attribute.argumentsOf q.attributes

/-- The first fault among the keyword arguments of a parameter that could be read. -/
def keywordFault? (q : ParameterDecl) : Option DeclarationError :=
  if q.readingFault? = none then q.arguments.findSome? FieldArg.fault? else none

def reading (q : ParameterDecl) (id : Identifier) : ParsedParameter :=
  .after ⟨id.name, q.type, documentation q.attributes, none, none, [], false⟩ q.attributes

theorem read_parameter_binding {q : ParameterDecl} {id : Identifier} (h : q.pattern = .binding id) :
    readParameter q = faultOr q.readingFault? (q.reading id) := by
  rw [readParameter, h, readingFault?, h]
  exact read_attributes_eq _ q.attributes

theorem read_parameter_eq_ok {q : ParameterDecl} {a : ParsedParameter} :
    readParameter q = .ok a ↔
      q.readingFault? = none ∧ ∃ id, q.pattern = .binding id ∧ a = q.reading id := by
  cases h : q.pattern with
  | binding id =>
    rw [read_parameter_binding h, fault_or_eq_ok]
    simp
  | _ => simp [readParameter, readingFault?, h]

theorem read_parameter_eq_error {q : ParameterDecl} {e : DeclarationError} :
    readParameter q = .error e ↔ q.readingFault? = some e := by
  cases h : q.pattern with
  | binding id => rw [read_parameter_binding h, fault_or_eq_error]
  | _ => simp [readParameter, readingFault?, h]

theorem reading_arguments (q : ParameterDecl) (id : Identifier) :
    (q.reading id).arguments = q.arguments := rfl

end ParameterDecl

namespace Declaration

def ParsedParameter.items (p : ParsedParameter) (keywords : List MetadataItem) :
    List MetadataItem :=
  p.description.toList.map .docTag ++ p.members.toList.map .enumClass ++ keywords

def ParsedParameter.parameter (c : Catalogue) (p : ParsedParameter) : Parameter :=
  ⟨p.name, wrap (typeOf c p.type p.ownSchema) (p.items (FieldArg.items c.values p.arguments)),
    p.default.map (Literal.json c.values)⟩

theorem build_parameter_eq (c : Catalogue) (p : ParsedParameter) :
    buildParameter c p = faultOr (p.arguments.findSome? FieldArg.fault?) (p.parameter c) := by
  rw [buildParameter, FieldArg.keyword_items_eq]
  cases p.arguments.findSome? FieldArg.fault? <;> rfl

end Declaration

end ToolSpec
