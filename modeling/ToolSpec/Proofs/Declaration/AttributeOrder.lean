import ToolSpec.Proofs.Declaration.Faults
import ToolSpec.Proofs.Declaration.OwnSchema

/-!
# The order of attributes

Attributes of different kinds say different things about a parameter, so it does not matter how they
are mixed, as long as those of one kind keep their order. Keyword arguments count in their order, in
however many attributes they stand, and of those that set the same keyword the last one counts.
-/

set_option autoImplicit false

namespace ToolSpec

inductive AttributeKind
  | doc
  | default
  | members
  | field
  | schema
  | unrelated
  deriving DecidableEq

namespace Attribute

def kind (a : Attribute) : AttributeKind :=
  match a.path with
  | "doc" => .doc
  | "default" => .default
  | "members" => .members
  | "field" => .field
  | "schema" => .schema
  | _ => .unrelated

/-- The same attributes of each kind in the same order, mixed in any way. -/
def Interleaved (as bs : List Attribute) : Prop :=
  ∀ kind, as.filter (·.kind = kind) = bs.filter (·.kind = kind)

variable {as bs : List Attribute}

namespace Interleaved

theorem mem (h : Interleaved as bs) (a : Attribute) : a ∈ as ↔ a ∈ bs := by
  have hfilter (cs : List Attribute) : a ∈ cs.filter (·.kind = a.kind) ↔ a ∈ cs := by simp
  rw [← hfilter as, h a.kind, hfilter]

theorem filter_map {α : Type} (h : Interleaved as bs) {f : Attribute → Option α}
    {kind : AttributeKind}
    (hkind : ∀ a b, f a = some b → a.kind = kind) : as.filterMap f = bs.filterMap f := by
  have hfilter (cs : List Attribute) :
      (cs.filter (·.kind = kind)).filterMap f = cs.filterMap f := by
    rw [List.filterMap_filter]
    apply List.filterMap_congr
    intro a _
    cases hf : f a with
    | none => simp
    | some b => simp [hkind a b hf]
  rw [← hfilter as, h kind, hfilter]

end Interleaved

theorem kind_of_doc {a : Attribute} {s : String} (h : a.doc? = some s) : a.kind = .doc := by
  cases a with
  | doc text => rfl
  | _ => cases h

theorem kind_of_default {a : Attribute} {v : Literal} (h : a.default? = some v) :
    a.kind = .default := by
  cases a with
  | default v => rfl
  | _ => cases h

theorem kind_of_members {a : Attribute} {names : List String} (h : a.members? = some names) :
    a.kind = .members := by
  cases a with
  | members names => rfl
  | _ => cases h

theorem kind_of_arguments {a : Attribute} {args : List FieldArg} (h : a.arguments? = some args) :
    a.kind = .field := by
  cases a with
  | field args => rfl
  | _ => cases h

theorem kind_unrelated_iff (a : Attribute) : a.kind = .unrelated ↔ a.path ∉ ownPaths := by
  unfold kind
  split <;> simp_all [ownPaths]

end Attribute

namespace ParameterDecl
open Declaration

structure Rearranged (q q' : ParameterDecl) : Prop where
  pattern : q.pattern = q'.pattern
  type : q.type = q'.type
  attributes : Attribute.Interleaved q.attributes q'.attributes

namespace Rearranged

variable {q q' : ParameterDecl} (h : q.Rearranged q')
include h

theorem documentation_eq : documentation q.attributes = documentation q'.attributes := by
  rw [documentation, h.attributes.filter_map fun _ _ => Attribute.kind_of_doc, documentation]

theorem reading_eq (id : Identifier) : q.reading id = q'.reading id := by
  have hschema : q.attributes.any Attribute.isSchema = q'.attributes.any Attribute.isSchema := by
    rw [Bool.eq_iff_iff, List.any_eq_true, List.any_eq_true]
    simp [h.attributes.mem]
  rw [reading, reading, ParsedParameter.after, ParsedParameter.after, Attribute.argumentsOf,
    Attribute.argumentsOf, h.type, h.documentation_eq, hschema,
    h.attributes.filter_map fun _ _ => Attribute.kind_of_default,
    h.attributes.filter_map fun _ _ => Attribute.kind_of_members,
    h.attributes.filter_map fun _ _ => Attribute.kind_of_arguments]

theorem reading_fault_eq_none : q.readingFault? = none ↔ q'.readingFault? = none := by
  rw [readingFault?, readingFault?, h.pattern]
  cases q'.pattern with
  | binding id => simp [List.findSome?_eq_none_iff, h.attributes.mem]
  | _ => rfl

theorem read_parameter_eq_ok (a : ParsedParameter) :
    readParameter q = .ok a ↔ readParameter q' = .ok a := by
  simp only [ParameterDecl.read_parameter_eq_ok, h.reading_fault_eq_none, h.pattern, h.reading_eq]

theorem kept_attributes_eq : keptAttributes q = keptAttributes q' := by
  have hkept (q : ParameterDecl) :
      keptAttributes q = (q.attributes.filter (·.kind = .unrelated)).map Attribute.path := by
    rw [keptAttributes, List.filter_map]
    simp [Function.comp_def, Attribute.kind_unrelated_iff]
  rw [hkept, hkept, h.attributes]

end Rearranged

end ParameterDecl

namespace Declaration

theorem separate_congr_ok {α : Type} {xs ys : List (Except DeclarationError α)}
    (h : List.Forall₂ (fun x y => ∀ a, x = .ok a ↔ y = .ok a) xs ys) :
    (separate xs).1 = (separate ys).1 ∧ ((separate xs).2 = [] ↔ (separate ys).2 = []) := by
  induction h with
  | nil => exact ⟨rfl, Iff.rfl⟩
  | @cons x y xs ys hxy _ ih =>
    cases x with
    | ok a =>
      obtain rfl := (hxy a).mp rfl
      exact ⟨congrArg (a::·) ih.1, ih.2⟩
    | error e =>
      cases y with
      | ok b => cases (hxy b).mpr rfl
      | error e' => exact ⟨ih.1, by simp [separate]⟩

theorem map_eq_of_forall₂ {α β : Type} {r : α → α → Prop} {f : α → β} {xs ys : List α}
    (h : List.Forall₂ r xs ys) (hf : ∀ x y, r x y → f x = f y) : ys.map f = xs.map f := by
  induction h with
  | nil => rfl
  | cons hxy _ ih => rw [List.map_cons, List.map_cons, hf _ _ hxy, ih]

theorem is_method_congr {d : Declaration} {qs : List ParameterDecl}
    (h : qs.map ParameterDecl.pattern = d.parameters.map ParameterDecl.pattern) :
    { d with parameters := qs }.isMethod = d.isMethod := by
  have hany := congrArg (List.any · Pattern.isReceiver) h
  rw [List.any_map, List.any_map] at hany
  exact congrArg (d.hasReceiver || ·) hany

theorem companion_rearranged (c : Catalogue) {d : Declaration} {qs : List ParameterDecl}
    (h : List.Forall₂ ParameterDecl.Rearranged d.parameters qs) (k : Companion) :
    d.companion c = .ok k ↔ { d with parameters := qs }.companion c = .ok k := by
  have hmethod : { d with parameters := qs }.isMethod = d.isMethod :=
    is_method_congr (map_eq_of_forall₂ h fun _ _ hq => hq.pattern)
  have hkept : qs.map keptAttributes = d.parameters.map keptAttributes :=
    map_eq_of_forall₂ h fun _ _ hq => hq.kept_attributes_eq
  obtain ⟨hparsed, hfaults⟩ := separate_congr_ok <| List.forall₂_map_left_iff.mpr <|
    List.forall₂_map_right_iff.mpr <| h.imp fun _ _ hq => hq.read_parameter_eq_ok
  have hbuilt : { d with parameters := qs }.built c = d.built c := by
    rw [built, built, parsed, parsed, hparsed]
  have herrors : { d with parameters := qs }.errors c = [] ↔ d.errors c = [] := by
    rw [errors, errors, hmethod, hbuilt, parsed, parsed]
    split
    · rfl
    · rw [List.append_eq_nil_iff, List.append_eq_nil_iff, hfaults]
  have hcomplete : { d with parameters := qs }.complete c = d.complete c := by
    rw [complete, complete, hbuilt, hkept, parsed, parsed, hparsed]
    rfl
  rw [companion_eq_ok, companion_eq_ok, herrors, hcomplete]

theorem fault_fields (xss : List (List FieldArg)) :
    (xss.map Attribute.field).findSome? Attribute.fault? =
      (Attribute.field xss.flatten).fault? := by
  induction xss with
  | nil => rfl
  | cons xs xss ih =>
    rw [List.map_cons, List.findSome?_cons, ih]
    cases hpath : xs.any FieldArg.isPath <;> simp [Attribute.fault?, hpath]

theorem after_fields (p : ParsedParameter) (xss : List (List FieldArg)) :
    p.after (xss.map Attribute.field) = p.after [.field xss.flatten] := by
  have hdefault : Attribute.default? ∘ Attribute.field = fun _ => none := rfl
  have hmembers : Attribute.members? ∘ Attribute.field = fun _ => none := rfl
  have harguments : Attribute.arguments? ∘ Attribute.field = some := rfl
  have hschema : Attribute.isSchema ∘ Attribute.field = fun _ => false := rfl
  simp [ParsedParameter.after, Attribute.argumentsOf, List.filterMap_map, List.any_map, hdefault,
    hmembers, harguments, hschema, Attribute.default?, Attribute.members?, Attribute.arguments?,
    Attribute.isSchema]

theorem companion_congr (c : Catalogue) {d : Declaration} {qs : List ParameterDecl}
    (hpatterns : qs.map ParameterDecl.pattern = d.parameters.map ParameterDecl.pattern)
    (hread : qs.map readParameter = d.parameters.map readParameter)
    (hkept : qs.map keptAttributes = d.parameters.map keptAttributes) :
    { d with parameters := qs }.companion c = d.companion c := by
  have hparsed : { d with parameters := qs }.parsed = d.parsed := congrArg separate hread
  have hbuilt : { d with parameters := qs }.built c = d.built c := by rw [built, built, hparsed]
  rw [companion, companion, signature, signature, errors, errors, is_method_congr hpatterns,
    hparsed, hbuilt, hkept]
  rfl

theorem read_attributes_fields (p : ParsedParameter) (before after : List Attribute)
    (xss : List (List FieldArg)) :
    readAttributes p (before ++ xss.map .field ++ after) =
      readAttributes p (before ++ [.field xss.flatten] ++ after) := by
  have hfault : [Attribute.field xss.flatten].findSome? Attribute.fault? =
      (xss.map Attribute.field).findSome? Attribute.fault? := by
    rw [fault_fields, List.findSome?_singleton]
  simp only [read_attributes_eq, List.findSome?_append, after_append, after_fields, hfault]

theorem documentation_fields (before after : List Attribute) (xss : List (List FieldArg)) :
    documentation (before ++ xss.map .field ++ after) =
      documentation (before ++ [.field xss.flatten] ++ after) := by
  have hnone : Attribute.doc? ∘ Attribute.field = fun _ => none := rfl
  simp [documentation, List.filterMap_map, hnone, Attribute.doc?, List.filterMap_cons]

theorem read_parameter_fields (q : ParameterDecl) (before after : List Attribute)
    (xss : List (List FieldArg)) :
    readParameter { q with attributes := before ++ xss.map .field ++ after } =
      readParameter { q with attributes := before ++ [.field xss.flatten] ++ after } := by
  rw [readParameter, readParameter]
  dsimp only
  rw [documentation_fields]
  cases q.pattern with
  | binding id => exact read_attributes_fields _ before after xss
  | _ => rfl

theorem kept_attributes_fields (q : ParameterDecl) (before after : List Attribute)
    (xss : List (List FieldArg)) :
    keptAttributes { q with attributes := before ++ xss.map .field ++ after } =
      keptAttributes { q with attributes := before ++ [.field xss.flatten] ++ after } := by
  have hpath : Attribute.path ∘ Attribute.field = fun _ => "field" := rfl
  simp [keptAttributes, hpath, Attribute.path, Attribute.ownPaths]

theorem companion_fields (c : Catalogue) (d : Declaration) (q : ParameterDecl)
    (earlier later : List ParameterDecl) (before after : List Attribute)
    (xss : List (List FieldArg)) :
    let several := { q with attributes := before ++ xss.map .field ++ after }
    let joined := { q with attributes := before ++ [.field xss.flatten] ++ after }
    { d with parameters := earlier ++ several::later }.companion c =
      { d with parameters := earlier ++ joined::later }.companion c := by
  intro several joined
  have hread : readParameter several = readParameter joined :=
    read_parameter_fields q before after xss
  have hkept : keptAttributes several = keptAttributes joined :=
    kept_attributes_fields q before after xss
  refine companion_congr c (d := { d with parameters := earlier ++ joined::later }) ?_ ?_ ?_
  · simp [several, joined]
  · simp [hread]
  · simp [hkept]

end Declaration

namespace FieldArg

def last? {α : Type} (keys : List String) (read : Literal → Option α) (args : List FieldArg) :
    Option α :=
  (args.filterMap (setting keys read)).getLast?

/-- Every keyword is as the last argument says that sets it. -/
structure SetByLast (x : Values) (args : List FieldArg) (k : Keywords) : Prop where
  type : k.type = last? typeKeys typeName? args
  description : k.description = last? ["description"] (Literal.string? x) args
  required : k.required = last? ["required"] (Literal.bool? x) args
  minimum : k.minimum = last? ["minimum", "ge"] (Literal.bound? x) args
  maximum : k.maximum = last? ["maximum", "le"] (Literal.bound? x) args
  exclusiveMinimum : k.exclusiveMinimum = last? ["exclusive_minimum", "gt"] (Literal.bound? x) args
  exclusiveMaximum : k.exclusiveMaximum = last? ["exclusive_maximum", "lt"] (Literal.bound? x) args
  minLength : k.minLength = last? ["min_length"] (Literal.length? x) args
  maxLength : k.maxLength = last? ["max_length"] (Literal.length? x) args
  pattern : k.pattern = last? ["pattern"] (Literal.string? x) args

theorem keywords_of_last {α : Type} {x : Values} {keyword : Keywords → Option α}
    {keys : List String} {read : Literal → Option α}
    (hmerge : ∀ base later : Keywords,
      keyword (base.merge later) = (keyword later).or (keyword base))
    (hempty : keyword .empty = none)
    (hset : ∀ arg : FieldArg, keyword (arg.keywords x) = arg.setting keys read)
    (args : List FieldArg) : keyword (keywordsOf x args) = last? keys read args := by
  have hargs : keyword ∘ keywords x = setting keys read := funext hset
  rw [keywordsOf, Keywords.mergeAll, Keywords.merge_last keyword hmerge, hempty, Option.or_none,
    List.filterMap_map, hargs, last?]

theorem set_by_last_keywords_of (x : Values) (args : List FieldArg) :
    SetByLast x args (keywordsOf x args) where
  type := keywords_of_last (fun _ _ => rfl) rfl (fun _ => rfl) args
  description := keywords_of_last (fun _ _ => rfl) rfl (fun _ => rfl) args
  required := keywords_of_last (fun _ _ => rfl) rfl (fun _ => rfl) args
  minimum := keywords_of_last (fun _ _ => rfl) rfl (fun _ => rfl) args
  maximum := keywords_of_last (fun _ _ => rfl) rfl (fun _ => rfl) args
  exclusiveMinimum := keywords_of_last (fun _ _ => rfl) rfl (fun _ => rfl) args
  exclusiveMaximum := keywords_of_last (fun _ _ => rfl) rfl (fun _ => rfl) args
  minLength := keywords_of_last (fun _ _ => rfl) rfl (fun _ => rfl) args
  maxLength := keywords_of_last (fun _ _ => rfl) rfl (fun _ => rfl) args
  pattern := keywords_of_last (fun _ _ => rfl) rfl (fun _ => rfl) args

end FieldArg

namespace Declaration

theorem keywords_items (x : Values) (p : ParsedParameter) (args : List FieldArg) :
    Parameter.keywords (p.items (FieldArg.items x args)) = FieldArg.keywordsOf x args := by
  have hdoc : MetadataItem.keywords? ∘ MetadataItem.docTag = fun _ => none := rfl
  have hclass : MetadataItem.keywords? ∘ MetadataItem.enumClass = fun _ => none := rfl
  rw [Parameter.keywords, ParsedParameter.items, List.filterMap_append, List.filterMap_append,
    List.filterMap_map, List.filterMap_map, hdoc, hclass]
  cases args with
  | nil => simp [FieldArg.items, FieldArg.keywordsOf]
  | cons arg rest =>
    simp [FieldArg.items, MetadataItem.keywords?, Keywords.mergeAll, Keywords.empty_merge]

theorem set_by_last_of_parameter {c : Catalogue} {q : ParameterDecl} {p : Parameter}
    (h : parameter c q = .ok p) :
    FieldArg.SetByLast c.values q.arguments (Parameter.keywords p.type.metadata) := by
  obtain ⟨a, hread, hbuild⟩ := parameter_eq_ok.mp h
  obtain ⟨-, id, -, rfl⟩ := ParameterDecl.read_parameter_eq_ok.mp hread
  rw [build_parameter_eq, fault_or_eq_ok] at hbuild
  obtain ⟨-, rfl⟩ := hbuild
  rw [ParsedParameter.parameter, wrap_metadata, type_of_metadata, List.nil_append, keywords_items]
  exact FieldArg.set_by_last_keywords_of c.values q.arguments

/-- A declaration gives the same whenever the attributes of its parameters are only mixed
differently, those of one kind being kept in order. Nor does it matter in how many attributes in a
row the keyword arguments stand, and of those arguments that set the same keyword the last one
counts. -/
theorem attributes_mixed (c : Catalogue) (d : Declaration) :
    (∀ qs, List.Forall₂ ParameterDecl.Rearranged d.parameters qs → ∀ k,
      d.companion c = .ok k ↔ { d with parameters := qs }.companion c = .ok k) ∧
    (∀ (q : ParameterDecl) earlier later before after (xss : List (List FieldArg)),
      let several := { q with attributes := before ++ xss.map .field ++ after }
      let joined := { q with attributes := before ++ [.field xss.flatten] ++ after }
      { d with parameters := earlier ++ several::later }.companion c =
        { d with parameters := earlier ++ joined::later }.companion c) ∧
    ∀ k, d.companion c = .ok k →
      List.Forall₂
        (fun q p => FieldArg.SetByLast c.values q.arguments (Parameter.keywords p.type.metadata))
        d.parameters k.signature.parameters := by
  refine ⟨fun qs h => companion_rearranged c h, companion_fields c d, fun k hk => ?_⟩
  have hparameters := parameters_of_signature (signature_of_companion c hk)
  exact hparameters.imp fun q p => set_by_last_of_parameter

/-- Two keyword attributes that set the same bound, the later one by an expression, mixed with
attributes of other kinds. -/
theorem bounds_mixed_with_others :
    let lower : Attribute := .field [⟨"ge", .value (.int 1)⟩, ⟨"le", .value (.int 9)⟩]
    let upper : Attribute := .field [⟨"minimum", .path "LOWEST"⟩]
    let fallback : Attribute := .default (.value (.int 3))
    let q : ParameterDecl :=
      ⟨.binding (.plain "n"), .other, [lower, .doc " N.", fallback, upper, .other "cfg"]⟩
    let q' : ParameterDecl :=
      ⟨.binding (.plain "n"), .other, [.other "cfg", fallback, lower, upper, .doc " N."]⟩
    let d : Declaration := ⟨.plain "f", "", false, [], [q]⟩
    let values : Values :=
      { Values.empty with bound? := fun s => if s = "LOWEST" then some (.int 2) else none }
    let c : Catalogue := ⟨fun _ => ⟨.null, []⟩, values⟩
    q.Rearranged q' ∧ ∃ k p, d.companion c = .ok k ∧
      { d with parameters := [q'] }.companion c = .ok k ∧ k.signature.parameters = [p] ∧
      (Parameter.keywords p.type.metadata).minimum = some (.int 2) := by
  intro lower upper fallback q q' d values c
  have hq : q.Rearranged q' := ⟨rfl, rfl, fun kind => by cases kind <;> rfl⟩
  obtain ⟨hmixed, -, hlast⟩ := attributes_mixed c d
  obtain ⟨k, hk⟩ : ∃ k, d.companion c = .ok k := (exists_companion c).mpr (by decide)
  obtain ⟨p, ps, hp, hps, hparameters⟩ := List.forall₂_cons_left_iff.mp (hlast k hk)
  obtain rfl := List.forall₂_nil_left_iff.mp hps
  refine ⟨hq, k, p, hk, (hmixed [q'] (.cons hq .nil) k).mp hk, hparameters, ?_⟩
  rw [hp.minimum]
  decide

end Declaration

end ToolSpec
