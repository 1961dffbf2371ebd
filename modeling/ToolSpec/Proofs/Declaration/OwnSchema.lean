import ToolSpec.Proofs.Declaration.Attributes
import ToolSpec.Proofs.Declaration.TypeLayers

/-!
# The schema of the type itself

A parameter may ask for the schema of its own type. It is optional then if its type is written as an
option, while without the request it is optional if an option stands in any layer of the type. So the
two differ on whether the parameter is required as soon as another layer is around the option.
-/

set_option autoImplicit false

namespace ToolSpec

def ParameterDecl.withoutOwnSchema (q : ParameterDecl) : ParameterDecl :=
  { q with attributes := q.attributes.filter (!·.isSchema) }

namespace TypeExpr

theorem Layer.option_argument {kind : LayerKind} {t u : TypeExpr} (h : Layer kind t u) :
    u.optionArgument?.isSome = decide (kind = .option) := by
  cases h with
  | pointer hname hargs =>
    rw [TypeExpr.optionArgument?, hargs]
    simp only [List.mem_cons, List.not_mem_nil, or_false] at hname
    rcases hname with h | h | h | h <;> simp [h]
  | option hname hargs =>
    rw [TypeExpr.optionArgument?, hargs]
    simp [hname]
  | _ => rfl

theorem option_argument_base {base : TypeExpr} (h : ¬ base.IsLayer) :
    base.optionArgument? = none := by
  unfold optionArgument?
  split
  · split
    · rename_i inner hargs
      rw [if_neg fun hname => h ⟨.option, inner, .option hname hargs⟩]
    · rfl
  · rfl

theorem Layered.option_argument {base t : TypeExpr} {kinds : List LayerKind}
    (h : base.Layered kinds t) (hbase : ¬ base.IsLayer) :
    t.optionArgument?.isSome = decide (kinds.head? = some .option) := by
  cases h with
  | base => simp [option_argument_base hbase]
  | layer hlayer _ => simp [hlayer.option_argument]

end TypeExpr

namespace Declaration

def ParsedParameter.plain (p : ParsedParameter) : ParsedParameter := { p with ownSchema := false }

theorem filter_map_unrequested {α : Type} {f : Attribute → Option α} (hf : f .schema = none)
    (as : List Attribute) : (as.filter (!·.isSchema)).filterMap f = as.filterMap f := by
  rw [List.filterMap_filter]
  apply List.filterMap_congr
  intro a _
  cases a with
  | schema => exact hf.symm
  | _ => rfl

theorem after_plain (p : ParsedParameter) (as : List Attribute) :
    p.plain.after (as.filter (!·.isSchema)) = (p.after as).plain := by
  have hnone : (as.filter (!·.isSchema)).any Attribute.isSchema = false := by simp
  rw [ParsedParameter.after, Attribute.argumentsOf, filter_map_unrequested rfl,
    filter_map_unrequested rfl, filter_map_unrequested rfl, hnone]
  rfl

theorem read_attributes_plain (p : ParsedParameter) (as : List Attribute) :
    readAttributes p.plain (as.filter (!·.isSchema)) =
      (readAttributes p as).map ParsedParameter.plain := by
  rw [read_attributes_eq, read_attributes_eq, after_plain, ← List.head?_filterMap,
    filter_map_unrequested rfl, List.head?_filterMap]
  cases as.findSome? Attribute.fault? <;> rfl

theorem documentation_filter (as : List Attribute) :
    documentation (as.filter (!·.isSchema)) = documentation as := by
  rw [documentation, filter_map_unrequested rfl, documentation]

theorem read_parameter_without_own_schema (q : ParameterDecl) :
    readParameter q.withoutOwnSchema = (readParameter q).map ParsedParameter.plain := by
  rw [readParameter, readParameter, ParameterDecl.withoutOwnSchema]
  dsimp only
  rw [documentation_filter]
  cases q.pattern with
  | binding id =>
    exact read_attributes_plain ⟨id.name, q.type, _, none, none, [], false⟩ q.attributes
  | _ => rfl

theorem read_parameter_keeps {q : ParameterDecl} {p : ParsedParameter}
    (h : readParameter q = .ok p) :
    p.type = q.type ∧ p.ownSchema = q.attributes.any Attribute.isSchema := by
  obtain ⟨-, id, -, rfl⟩ := ParameterDecl.read_parameter_eq_ok.mp h
  exact ⟨rfl, Bool.false_or _⟩

theorem wrap_metadata (a : DeclaredType) (items : List MetadataItem) :
    (wrap a items).metadata = a.metadata ++ items := by
  cases items with
  | nil => rw [wrap, List.append_nil]
  | cons i items => rfl

theorem wrap_resolve (a : DeclaredType) (items : List MetadataItem) :
    (wrap a items).resolve = a.resolve := by
  cases items with
  | nil => rfl
  | cons i items => exact DeclaredType.resolve_annotated a (i::items)

theorem type_of_metadata (c : Catalogue) (t : TypeExpr) (ownSchema : Bool) :
    (typeOf c t ownSchema).metadata = [] := by
  unfold typeOf
  split
  · split <;> rfl
  · exact t.declared_metadata

theorem type_of_nullable (c : Catalogue) (t : TypeExpr) :
    (typeOf c t true).resolve.nullable = t.optionArgument?.isSome := by
  rw [typeOf, if_pos rfl]
  cases t.optionArgument? with
  | none => rw [DeclaredType.resolve]; rfl
  | some inner => exact DeclaredType.optional_nullable _

theorem build_parameter_eq_ok {c : Catalogue} {p : ParsedParameter} {r : Parameter} :
    buildParameter c p = .ok r ↔ ∃ keywords, keywordItems c.values p.arguments = .ok keywords ∧
      r = ⟨p.name, wrap (typeOf c p.type p.ownSchema) (p.items keywords),
        p.default.map (Literal.json c.values)⟩ := by
  rw [buildParameter]
  cases keywordItems c.values p.arguments with
  | error e => simp [Except.map]
  | ok keywords => simp [Except.map, ParsedParameter.items, eq_comm]

theorem build_parameter_alike (c : Catalogue) (p : ParsedParameter) :
    Alike (fun _ _ => True) (buildParameter c p) (buildParameter c p.plain) := by
  rw [buildParameter, buildParameter, ParsedParameter.plain]
  cases keywordItems c.values p.arguments with
  | error e => exact .error e
  | ok keywords => exact .ok trivial

theorem demanded_wrap (name : String) {a : DeclaredType} (h : a.metadata = [])
    (items : List MetadataItem) (default : Option Json) :
    (Parameter.mk name (wrap a items) default).Demanded ↔
      (Parameter.keywords items).required = some true ∨
        (Parameter.keywords items).required = none ∧ default = none ∧
          a.resolve.nullable = false := by
  rw [Parameter.Demanded, wrap_metadata, wrap_resolve, h, List.nil_append]

theorem verdicts_agree_iff (required : Option Bool) (default : Option Json) (x y : Bool) :
    ((required = some true ∨ required = none ∧ default = none ∧ x = false) ↔
        (required = some true ∨ required = none ∧ default = none ∧ y = false)) ↔
      default ≠ none ∨ required ≠ none ∨ x = y := by
  cases required <;> cases default <;> cases x <;> cases y <;> simp

/-- With its own schema a type admits null only by an option at the top, else by one anywhere. -/
theorem nullable_agree_iff {base t : TypeExpr} {kinds : List LayerKind}
    (h : base.Layered kinds t) (hbase : ¬ base.IsLayer) (c : Catalogue) :
    (typeOf c t true).resolve.nullable = t.declared.resolve.nullable ↔
      kinds.head? = some .option ∨
        .option ∉ kinds ∧ base.declared.resolve.nullable = false := by
  rw [type_of_nullable, h.option_argument hbase, h.nullable]
  by_cases houter : kinds.head? = some .option
  · simp [houter, List.mem_of_head? houter]
  · simp [houter]

theorem required_agree_iff {c : Catalogue} {q : ParameterDecl} {p p' : Parameter}
    (hq : .schema ∈ q.attributes) {base : TypeExpr} {kinds : List LayerKind}
    (hlayers : base.Layered kinds q.type) (hbase : ¬ base.IsLayer)
    (hp : parameter c q = .ok p) (hp' : parameter c q.withoutOwnSchema = .ok p') :
    (p.Demanded ↔ p'.Demanded) ↔
      p.default ≠ none ∨ (Parameter.keywords p.type.metadata).required ≠ none ∨
        kinds.head? = some .option ∨
        .option ∉ kinds ∧ base.declared.resolve.nullable = false := by
  obtain ⟨a, ha, hp⟩ := parameter_eq_ok.mp hp
  rw [parameter, read_parameter_without_own_schema, ha] at hp'
  obtain ⟨keywords, hkeywords, rfl⟩ := build_parameter_eq_ok.mp hp
  obtain ⟨keywords', hkeywords', rfl⟩ := build_parameter_eq_ok.mp hp'
  obtain rfl : keywords = keywords' := Except.ok.inj (hkeywords.symm.trans hkeywords')
  obtain ⟨htype, hown⟩ := read_parameter_keeps ha
  have hschema : a.ownSchema = true := hown.trans (List.any_eq_true.mpr ⟨_, hq, rfl⟩)
  have hmetadata : (wrap (typeOf c a.type a.ownSchema) (a.items keywords)).metadata =
      a.items keywords := by
    rw [wrap_metadata, type_of_metadata, List.nil_append]
  rw [demanded_wrap _ (type_of_metadata c _ _), demanded_wrap _ (type_of_metadata c _ _), hmetadata,
    ← nullable_agree_iff hlayers hbase c, ← htype, hschema]
  exact verdicts_agree_iff _ _ _ _

theorem errors_without_own_schema (c : Catalogue) {d : Declaration}
    {before after : List ParameterDecl} {q : ParameterDecl} (hd : d.parameters = before ++ q::after) :
    { d with parameters := before ++ q.withoutOwnSchema::after }.errors c = d.errors c := by
  let plainer : ParsedParameter → ParsedParameter → Prop := fun a b => b = a ∨ b = a.plain
  have hsame (qs : List ParameterDecl) :
      List.Forall₂ (fun q q' => Alike plainer (readParameter q) (readParameter q')) qs qs :=
    List.forall₂_same.mpr fun q _ => .refl (fun _ => .inl rfl) (readParameter q)
  have hchanged : Alike plainer (readParameter q) (readParameter q.withoutOwnSchema) := by
    rw [read_parameter_without_own_schema]
    cases readParameter q with
    | error e => exact .error e
    | ok a => exact .ok (.inr rfl)
  refine errors_congr (r := plainer) ?_ ?_ ?_
  · simp [hd, ParameterDecl.withoutOwnSchema]
  · rw [hd]
    exact List.rel_append (hsame before) (.cons hchanged (hsame after))
  · rintro a b (rfl | rfl)
    · exact .refl (fun _ => trivial) _
    · exact build_parameter_alike c a

/-- Without the request for the schema of its own type of one parameter, a declaration has the same
faults. If it has none, the parameter stays required or optional exactly if it has a default or its
keywords decide, or if the outermost layer of its type is an option, or if no layer is one and the
base does not admit null. -/
theorem own_schema_required_iff (c : Catalogue) {d : Declaration}
    {before after : List ParameterDecl} {q : ParameterDecl}
    (hd : d.parameters = before ++ q::after) (hq : .schema ∈ q.attributes)
    {base : TypeExpr} {kinds : List LayerKind} (hlayers : base.Layered kinds q.type)
    (hbase : ¬ base.IsLayer) :
    let plainer := { d with parameters := before ++ q.withoutOwnSchema::after }
    plainer.errors c = d.errors c ∧
      ∀ s, d.signature c = .ok s → ∃ s', plainer.signature c = .ok s' ∧ ∀ o,
        ∃ p own declared, s.parameters[before.length]? = some p ∧
          (s.compile o).properties[before.length]? = some own ∧
          (s'.compile o).properties[before.length]? = some declared ∧
          ((own.required = true ↔ declared.required = true) ↔
            p.default ≠ none ∨ (Parameter.keywords p.type.metadata).required ≠ none ∨
              kinds.head? = some .option ∨
              .option ∉ kinds ∧ base.declared.resolve.nullable = false) := by
  intro plainer
  have herrors : plainer.errors c = d.errors c := errors_without_own_schema c hd
  refine ⟨herrors, fun s hs => ?_⟩
  obtain ⟨s', hs'⟩ : ∃ s', plainer.signature c = .ok s' :=
    ⟨_, signature_eq_ok.mpr ⟨herrors.trans (signature_eq_ok.mp hs).1, rfl⟩⟩
  refine ⟨s', hs', fun o => ?_⟩
  obtain ⟨p, hsp, hp⟩ := parameter_of_signature (i := before.length) (q := q) hs (by simp [hd])
  obtain ⟨p', hsp', hp'⟩ := parameter_of_signature (i := before.length) (q := q.withoutOwnSchema)
    hs' (by simp [plainer])
  refine ⟨p, _, _, hsp, FunctionSpec.properties_of_parameter hsp o,
    FunctionSpec.properties_of_parameter hsp' o, ?_⟩
  rw [Parameter.required_compile, Parameter.required_compile]
  exact required_agree_iff hq hlayers hbase hp hp'

/-- A described option of a shared unit has the same verdict with the schema of its own type. -/
theorem described_option_agrees :
    let unit : TypeExpr := .tuple []
    let t : TypeExpr := .path ["Option"] [.type (.path ["Rc"] [.type unit])]
    let q : ParameterDecl := ⟨.binding (.plain "at"), t, [.doc "Where.", .schema]⟩
    let d : Declaration := ⟨.plain "f", "", false, [], [q]⟩
    let c : Catalogue := ⟨fun _ => ⟨Json.ofType "object", []⟩, .empty⟩
    d.parameters = [] ++ q::[] ∧ .schema ∈ q.attributes ∧
      unit.Layered [.option, .pointer] t ∧ ¬ unit.IsLayer ∧
      ∃ own declared, (∃ s, d.signature c = .ok s ∧
          (s.compile .standard).properties[0]? = some own) ∧
        (∃ s', { d with parameters := [q.withoutOwnSchema] }.signature c = .ok s' ∧
          (s'.compile .standard).properties[0]? = some declared) ∧
        (own.required = true ↔ declared.required = true) := by
  intro unit t q d c
  have hlayers : unit.Layered [.option, .pointer] t :=
    .layer (.option rfl rfl) <| .layer (.pointer (by decide) rfl) .base
  have hbase : ¬ unit.IsLayer := by
    rintro ⟨kind, u, hu⟩
    change TypeExpr.Layer kind u (.tuple []) at hu
    cases hu
  have hd : d.parameters = [] ++ q::[] := rfl
  have hq : .schema ∈ q.attributes := by simp [q]
  obtain ⟨-, hall⟩ := own_schema_required_iff c hd hq hlayers hbase
  have hs : d.signature c = .ok _ := rfl
  obtain ⟨s', hs', hcompiled⟩ := hall _ hs
  obtain ⟨p, own, declared, -, hown, hdeclared, hiff⟩ := hcompiled .standard
  exact ⟨hd, hq, hlayers, hbase, own, declared, ⟨_, hs, hown⟩, ⟨s', hs', hdeclared⟩,
    hiff.mpr (.inr (.inr (.inl rfl)))⟩

/-- A borrowed option is optional, but not with the schema of its own type. -/
theorem borrowed_option_required :
    let t : TypeExpr := .reference (.path ["Option"] [.type (.named "Location")])
    let q : ParameterDecl := ⟨.binding (.plain "at"), t, [.schema]⟩
    let d : Declaration := ⟨.plain "f", "", false, [], [q]⟩
    let c : Catalogue := ⟨fun _ => ⟨Json.ofType "object", []⟩, .empty⟩
    (TypeExpr.named "Location").Layered [.reference, .option] t ∧
      ¬ (TypeExpr.named "Location").IsLayer ∧
      ∃ s s' own declared, d.signature c = .ok s ∧
        { d with parameters := [q.withoutOwnSchema] }.signature c = .ok s' ∧
        (s.compile .standard).properties = [own] ∧ (s'.compile .standard).properties = [declared] ∧
        own.required = true ∧ declared.required = false := by
  intro t q d c
  refine ⟨.layer (.reference _) <| .layer (.option rfl rfl) .base, ?_, _, _, _, _, rfl, rfl, rfl, rfl,
    rfl, rfl⟩
  rintro ⟨kind, u, hu⟩
  change TypeExpr.Layer kind u (.path ["Location"] []) at hu
  cases hu with
  | pointer _ hargs => simp [TypeExpr.typeArgs] at hargs
  | option _ hargs => simp [TypeExpr.typeArgs] at hargs

-- An argument decides in the same way with and without the request, by whatever expression.
example :
    let t : TypeExpr := .reference (.path ["Option"] [.type (.named "Location")])
    let q : ParameterDecl :=
      ⟨.binding (.plain "at"), t, [.schema, .field [⟨"required", .path "FLAG"⟩]]⟩
    let values : Values := { Values.empty with bool? := fun s => some (s = "FLAG") }
    let c : Catalogue := ⟨fun _ => ⟨Json.ofType "object", []⟩, values⟩
    ∃ p p', parameter c q = .ok p ∧ parameter c q.withoutOwnSchema = .ok p' ∧
      (p.spec .empty false).compile.required = true ∧
      (p'.spec .empty false).compile.required = true :=
  ⟨_, _, rfl, rfl, rfl, rfl⟩

end Declaration

end ToolSpec
