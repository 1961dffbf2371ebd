import ToolSpec.Proofs.Schema.Subschema
import ToolSpec.Proofs.Schema.Widening
import ToolSpec.Proofs.Signature.Assembly
import ToolSpec.Tool

/-!
# The objects of strict parameters

Strict parameters are the strict form of an object schema that requires all its properties. Their
objects come from that schema itself and from the kept positions of each property.
-/

set_option autoImplicit false

namespace ToolSpec

namespace Nullable

theorem allow_null_well_keyed {fs : Fields Json} (h : (Json.obj fs).wellKeyed = true) :
    (Json.obj (allowNull fs)).wellKeyed = true := by
  unfold allowNull
  split
  · rename_i vs hvs
    split
    · exact h
    · exact Json.well_keyed_insert h "enum"
        (Json.well_keyed_append (Json.well_keyed_of_lookup h hvs) rfl)
  · exact h

theorem widen_type_well_keyed {t : Json} (h : t.wellKeyed = true) :
    (widenType t).wellKeyed = true := by
  cases t with
  | str t =>
    rw [widenType]
    split
    · rfl
    · exact Json.well_keyed_strs [t, "null"]
  | arr ts =>
    rw [widenType, widenTypes]
    split
    · exact h
    · exact Json.well_keyed_append h rfl
  | _ => exact h

theorem or_null_well_keyed {fs : Fields Json} (h : (Json.obj fs).wellKeyed = true) :
    (Json.obj (orNull fs)).wellKeyed = true := by
  rcases or_null_cases fs with ⟨-, heq⟩ | heq
  · rwa [heq]
  · have hbranch : (Json.obj (constraining fs)).wellKeyed = true := Json.well_keyed_filter h _
    have hrest : (Json.obj (describing fs)).wellKeyed = true := Json.well_keyed_filter h _
    have hnew : "anyOf" ∉ Fields.keys (describing fs) := by
      rw [Fields.mem_keys_iff, lookup_describing fs (by decide)]
      simp
    obtain ⟨hn, hvalues⟩ := (Json.well_keyed_obj _).mp hrest
    rw [heq, Json.well_keyed_obj]
    refine ⟨List.nodup_cons.mpr ⟨hnew, hn⟩, fun k v hkv => ?_⟩
    rcases List.mem_cons.mp hkv with he | hkv
    · obtain ⟨-, rfl⟩ := Prod.mk.inj he
      rw [Json.well_keyed_arr]
      intro b hb
      simp only [List.mem_cons, List.not_mem_nil, or_false] at hb
      rcases hb with rfl | rfl
      · exact hbranch
      · rfl
    · exact hvalues k v hkv

theorem widen_well_keyed {v : Json} (h : v.wellKeyed = true) : (widen v).wellKeyed = true := by
  cases v with
  | obj fs =>
    rw [widen]
    cases ht : fs.lookup "type" with
    | some t =>
      have hwidened := widen_type_well_keyed (Json.well_keyed_of_lookup h ht)
      rw [widen_fields_of_type ht]
      exact allow_null_well_keyed (Json.well_keyed_insert h "type" hwidened)
    | none =>
      rw [widenFields, ht]
      dsimp only
      split
      · rename_i bs hbs
        have hbs := Json.well_keyed_of_lookup h hbs
        have hwidened : (Json.arr (widenBranches bs)).wellKeyed = true := by
          rw [widenBranches]
          split
          · exact hbs
          · exact Json.well_keyed_append hbs rfl
        exact allow_null_well_keyed (Json.well_keyed_insert h "anyOf" hwidened)
      · exact or_null_well_keyed h
  | _ => exact h

theorem widen_missing_well_keyed {ps : Fields Json} (h : (Json.obj ps).wellKeyed = true)
    (required : List String) : (Json.obj (widenMissing required ps)).wellKeyed = true := by
  obtain ⟨hn, hvalues⟩ := (Json.well_keyed_obj ps).mp h
  rw [Json.well_keyed_obj, keys_widen_missing]
  refine ⟨hn, fun name v hv => ?_⟩
  obtain ⟨⟨name, w⟩, hw, he⟩ := List.mem_map.mp hv
  obtain ⟨rfl, rfl⟩ := Prod.mk.inj he
  split
  · exact hvalues name w hw
  · exact widen_well_keyed (hvalues name w hw)

theorem require_all_well_keyed {s : Json} (hs : s.wellKeyed = true) :
    (requireAll s).wellKeyed = true := by
  cases s with
  | obj fs =>
    rw [requireAll]
    split
    · rename_i ps hps
      have hwidened :=
        widen_missing_well_keyed (Json.well_keyed_of_lookup hs hps) (requiredNames fs)
      exact Json.well_keyed_insert (Json.well_keyed_insert hs "properties" hwidened) "required"
        (Json.well_keyed_strs (Fields.keys ps))
    · exact hs
  | _ => exact hs

end Nullable

namespace ObjectSchema
open Nullable Strict

/-- The schema of a property once it is required. -/
def onceRequired (s : ObjectSchema) (name : String) (v : Json) : Json :=
  if name ∈ s.required then v else widen v

def requiringFields (s : ObjectSchema) : Fields Json :=
  [("type", .str s.kind), ("properties", .obj (widenMissing s.required s.properties)),
    ("required", .strs (Fields.keys s.properties))]

variable (s : ObjectSchema)

theorem require_all_to_json : requireAll s.toJson = .obj s.requiringFields := by
  have hrequired := required_names_to_json s
  have hproperties : s.toJson.fieldsOrEmpty.lookup "properties" = some (.obj s.properties) := rfl
  rw [toJson, Json.fieldsOrEmpty, Json.fields?, Option.getD_some] at hrequired hproperties
  rw [toJson, requireAll, hproperties]
  simp only [hrequired]
  rfl

theorem lookup_requiring (name : String) :
    (widenMissing s.required s.properties).lookup name =
      (s.properties.lookup name).map (s.onceRequired name) :=
  lookup_widen_missing s.required s.properties name

theorem to_json_well_keyed {s : ObjectSchema} (h : (Json.obj s.properties).wellKeyed = true) :
    s.toJson.wellKeyed = true := by
  rw [toJson, Json.well_keyed_obj]
  refine ⟨by simp [Fields.keys], fun key v hv => ?_⟩
  simp only [List.mem_cons, Prod.mk.injEq, List.not_mem_nil, or_false] at hv
  rcases hv with ⟨-, rfl⟩ | ⟨-, rfl⟩ | ⟨-, rfl⟩
  · rfl
  · exact h
  · exact Json.well_keyed_strs s.required

theorem require_all_well_keyed {s : ObjectSchema} (h : (Json.obj s.properties).wellKeyed = true) :
    (requireAll s.toJson).wellKeyed = true :=
  Nullable.require_all_well_keyed (to_json_well_keyed h)

theorem kept_require_all (fs : Fields Json) :
    Kept (requireAll s.toJson) (.obj fs) ↔ fs = s.requiringFields ∨
      ∃ name v, s.properties.lookup name = some v ∧
        Kept (s.onceRequired name v) (.obj fs) := by
  have hnone : ∀ key ∈ schemaKeys, s.requiringFields.lookup key = none := by
    simp [schemaKeys, requiringFields, Fields.lookup_cons_ite]
  have hnamed : ∀ key ∈ mapKeys, ∀ values, s.requiringFields.lookup key = some (.obj values) ↔
      key = "properties" ∧ values = widenMissing s.required s.properties := by
    simp [mapKeys, requiringFields, Fields.lookup_cons_ite, eq_comm]
  rw [require_all_to_json, Kept, Reaches.obj_iff, Json.obj.injEq]
  apply or_congr_right
  constructor
  · rintro (⟨key, hkey, values, hvalues, name, v, hname, hv⟩ | ⟨key, hkey, v, hv, -⟩)
    · obtain ⟨-, rfl⟩ := (hnamed key hkey values).mp hvalues
      rw [lookup_requiring, Option.map_eq_some_iff] at hname
      obtain ⟨w, hw, rfl⟩ := hname
      exact ⟨name, w, hw, hv⟩
    · rw [hnone key hkey] at hv
      contradiction
  · rintro ⟨name, v, hv, hkept⟩
    have hname := lookup_requiring s name
    rw [hv, Option.map_some] at hname
    exact .inl ⟨"properties", by decide, _, rfl, name, _, hname, hkept⟩

/-- What holds of the schema itself is asked only of the objects in its properties. -/
theorem forall_kept_require_all {P : Fields Json → Prop} (hown : P s.requiringFields) :
    (∀ fs, Kept (requireAll s.toJson) (.obj fs) → P fs) ↔
      ∀ name v, s.properties.lookup name = some v →
        ∀ fs, Kept (s.onceRequired name v) (.obj fs) → P fs := by
  constructor
  · intro h name v hv fs hkept
    exact h fs ((kept_require_all s fs).mpr (.inr ⟨name, v, hv, hkept⟩))
  · intro h fs hkept
    rcases (kept_require_all s fs).mp hkept with rfl | ⟨name, v, hv, hkept⟩
    · exact hown
    · exact h name v hv fs hkept

end ObjectSchema

end ToolSpec
