import ToolSpec.Proofs.Schema.Widening
import ToolSpec.Proofs.Signature.Assembly

/-!
# Optional properties of a strict tool

A strict tool requires every property. One that was optional keeps its verdict on every value but
null, and null passes exactly if the entries that widening leaves let it pass. Next to a type those
are all entries but the listed values, so that a `const` or a union beside a type shuts null out.
-/

set_option autoImplicit false

namespace ToolSpec

def Json.property? (s : Json) (name : String) : Option Json :=
  (s.get? "properties").bind (·.get? name)

/-- A property that differs from `ps` on null alone, and on null as far as widening reaches. -/
structure Reading.Widened (r : Reading) (ps : Fields Json) (p : Json) : Prop where
  others : ∀ v, v ≠ .null → r.accepts p v = r.accepts (.obj ps) v
  null : r.accepts p .null = true ↔ r.accepts (.obj (Nullable.unwidened ps)) .null = true

namespace Nullable

theorem widen_widened (r : Reading) {ps : Fields Json} (hn : (Fields.keys ps).Nodup) :
    r.Widened ps (widen (.obj ps)) := by
  obtain ⟨hothers, hnull⟩ := widen_fields_accepts r hn
  exact ⟨hothers, by rw [widen, hnull]⟩

theorem require_all_property {s : Json} {name : String} {p : Json} (h : s.property? name = some p)
    (hopt : name ∉ requiredNames s.fieldsOrEmpty) :
    (requireAll s).property? name = some (widen p) := by
  cases s with
  | obj fs =>
    obtain ⟨properties, hproperties, hp⟩ := Option.bind_eq_some_iff.mp h
    have hlookup : fs.lookup "properties" = some properties := hproperties
    cases properties with
    | obj gs =>
      have hname : gs.lookup name = some p := hp
      have hwidened : (widenMissing (requiredNames fs) gs).lookup name = some (widen p) := by
        have hoptional : name ∉ requiredNames fs := hopt
        rw [lookup_widen_missing, hname, Option.map_some, if_neg hoptional]
      simp [requireAll, hlookup, Json.property?, Json.get?, Json.fields?, Fields.lookup_insert,
        hwidened]
    | _ => simp [Json.get?, Json.fields?] at hp
  | _ => simp [Json.property?, Json.get?, Json.fields?] at h

end Nullable

namespace FunctionSpec

theorem optional_property {f : FunctionSpec} {before after : List ParameterSpec}
    {q : ParameterSpec} (h : f.parameters = before ++ q::after)
    (hlast : q.name ∉ after.map ParameterSpec.name) (hopt : q.isRequired = false) :
    f.assemble.parameters.toJson.property? q.name = some q.compile.schema ∧
      q.name ∉ Nullable.requiredNames f.assemble.parameters.toJson.fieldsOrEmpty := by
  have hnames : q.compile.name ∉ (after.map ParameterSpec.compile).map Property.name := by
    rw [List.map_map]
    exact hlast
  obtain ⟨hlookup, hrequired⟩ := ObjectSchema.insert_all_last ObjectSchema.sound_empty
    (before.map ParameterSpec.compile) hnames
  have hassembled : f.assemble.parameters = ObjectSchema.empty.insertAll
      (before.map ParameterSpec.compile ++ q.compile::after.map ParameterSpec.compile) := by
    rw [assemble, properties, h, List.map_append, List.map_cons]
  rw [← hassembled] at hlookup hrequired
  have hnot : q.compile.name ∉ f.assemble.parameters.required := by
    rw [hrequired]
    simpa [ParameterSpec.compile] using hopt
  refine ⟨hlookup, ?_⟩
  rw [ObjectSchema.required_names_to_json]
  exact hnot

end FunctionSpec

namespace Nullable

/-- Whatever an optional property says, requiring it adds null and nothing else, null exactly if
the entries that widening leaves admit null. The properties of optional parameters are among
these. -/
theorem optional_property_widened (r : Reading) :
    (∀ (s : Json) (name : String) (ps : Fields Json), s.property? name = some (.obj ps) →
      (Fields.keys ps).Nodup → name ∉ requiredNames s.fieldsOrEmpty →
      ∃ p, (requireAll s).property? name = some p ∧ r.Widened ps p) ∧
    ∀ (f : FunctionSpec) (before after : List ParameterSpec) (q : ParameterSpec),
      f.parameters = before ++ q::after → q.name ∉ after.map ParameterSpec.name →
      q.type.wellKeyed = true → q.isRequired = false →
      ∃ ps p, q.compile.schema = .obj ps ∧
        (requireAll f.assemble.parameters.toJson).property? q.name = some p ∧
        r.Widened ps p := by
  have hproperty : ∀ (s : Json) (name : String) (ps : Fields Json),
      s.property? name = some (.obj ps) → (Fields.keys ps).Nodup →
      name ∉ requiredNames s.fieldsOrEmpty →
      ∃ p, (requireAll s).property? name = some p ∧ r.Widened ps p := by
    intro s name ps h hn hopt
    exact ⟨widen (.obj ps), require_all_property h hopt, widen_widened r hn⟩
  refine ⟨hproperty, fun f before after q h hlast hkeyed hopt => ?_⟩
  obtain ⟨hcompiled, hname⟩ := FunctionSpec.optional_property h hlast hopt
  obtain ⟨p, hp, hw⟩ := hproperty _ _ _ hcompiled (ParameterSpec.nodup_compile hkeyed) hname
  exact ⟨_, p, rfl, hp, hw⟩

/-- An optional unit next to a required city, as a schema and as a parameter. -/
theorem unit_widened :
    let unit : Fields Json := [("type", .str "string"), ("enum", .strs ["c", "f"]),
      ("default", .str "c")]
    let s : Json := .obj [("type", .str "object"),
      ("properties", .obj [("city", .ofType "string"), ("unit", .obj unit)]),
      ("required", .strs ["city"])]
    let city : ParameterSpec := ⟨"city", .primitive .string, none, "", none⟩
    let q : ParameterSpec := ⟨"unit", .enumRef ["c", "f"], some (.str "c"), "", none⟩
    let f : FunctionSpec := ⟨"weather", "", [city, q]⟩
    (s.property? "unit" = some (.obj unit) ∧ (Fields.keys unit).Nodup ∧
      "unit" ∉ requiredNames s.fieldsOrEmpty ∧
      ∃ p, (requireAll s).property? "unit" = some p ∧ Reading.numeric.Widened unit p) ∧
    (f.parameters = [city] ++ q::[] ∧ q.type.wellKeyed = true ∧ q.isRequired = false ∧
      ∃ ps p, q.compile.schema = .obj ps ∧
        (requireAll f.assemble.parameters.toJson).property? "unit" = some p ∧
        Reading.numeric.Widened ps p) := by
  obtain ⟨hproperty, hparameter⟩ := optional_property_widened Reading.numeric
  constructor
  · exact ⟨rfl, by decide, by decide, hproperty _ "unit" _ rfl (by decide) (by decide)⟩
  · exact ⟨rfl, rfl, by decide, hparameter _ [_] [] _ rfl (by simp) rfl (by decide)⟩

/-- A type beside a `const` takes null up, but the `const` still refuses it. -/
theorem const_refuses_null :
    let p : Json := .obj [("type", .str "string"), ("const", .str "x")]
    let s : Json := .obj [("type", .str "object"), ("properties", .obj [("a", p)]),
      ("required", .arr [])]
    s.property? "a" = some p ∧ "a" ∉ requiredNames s.fieldsOrEmpty ∧
      ¬ ∃ p', (requireAll s).property? "a" = some p' ∧
        Reading.numeric.accepts p' .null = true := by
  refine ⟨rfl, by decide, ?_⟩
  rintro ⟨p', hp, hnull⟩
  obtain rfl := Option.some.inj hp
  exact absurd hnull (by decide)

end Nullable

end ToolSpec
