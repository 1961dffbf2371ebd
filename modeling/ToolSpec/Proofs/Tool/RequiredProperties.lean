import ToolSpec.Proofs.Tool.StrictParameters

/-!
# Required properties of a strict tool

Only the parameters themselves are made to require all their properties. An object further inside
keeps the names that it required, so that it requires all of its properties exactly if it did
before.
-/

set_option autoImplicit false

namespace ToolSpec

namespace Strict
open Nullable

/-- The required names cover the properties, if there are any. -/
def RequiresAll (fs : Fields Json) : Prop :=
  ∀ ps, fs.lookup "properties" = some (.obj ps) →
    ∃ names, fs.lookup "required" = some (.arr names) ∧
      ∀ name ∈ Fields.keys ps, .str name ∈ names

def RequiresAllThroughout (s : Json) : Prop :=
  ∀ fs, Within schemaKeys s (.obj fs) → RequiresAll fs

/-- Every object that the strict form keeps requires all its properties. -/
def KeepsRequired (s : Json) : Prop := ∀ fs, Kept s (.obj fs) → RequiresAll fs

theorem requires_all_tidy {fs : Fields Json} (hn : (Fields.keys fs).Nodup) :
    RequiresAll (tidy (formFields fs)) ↔ RequiresAll fs := by
  have hrequired : (tidy (formFields fs)).lookup "required" = fs.lookup "required" :=
    lookup_untouched hn (by decide)
  rw [RequiresAll, RequiresAll, hrequired, lookup_named hn (by decide)]
  constructor
  · intro h ps hps
    have hall := h (formValues ps) (by rw [hps, Option.map_some, formNamed])
    rwa [keys_form_values] at hall
  · intro h gs hgs
    obtain ⟨v, hv, hformed⟩ := Option.map_eq_some_iff.mp hgs
    cases v <;> simp only [formNamed, reduceCtorEq, Json.obj.injEq] at hformed
    rw [← hformed, keys_form_values]
    exact h _ hv

theorem requires_all_throughout_form {s : Json} (hs : s.wellKeyed = true) :
    RequiresAllThroughout (form s) ↔ KeepsRequired s := by
  have hform := forall_within_form [] (by simp) hs RequiresAll
  rw [List.nil_append] at hform
  rw [RequiresAllThroughout, hform]
  apply forall₂_congr
  intro fs hkept
  simp [requires_all_tidy (nodup_of_kept hkept hs)]

theorem keeps_required_obj (fs : Fields Json) :
    KeepsRequired (.obj fs) ↔ RequiresAll fs ∧
      (∀ key ∈ mapKeys, ∀ values, fs.lookup key = some (.obj values) →
        ∀ name v, values.lookup name = some v → KeepsRequired v) ∧
      ∀ key ∈ schemaKeys, ∀ v, fs.lookup key = some v → KeepsRequired (survivors key v) := by
  constructor
  · intro h
    refine ⟨h fs (.here _), ?_, ?_⟩
    · intro key hkey values hvalues name v hv gs hkept
      exact h gs (.named hkey hvalues hv hkept)
    · intro key hkey v hv gs hkept
      exact h gs (.under hkey hv hkept)
  · rintro ⟨hown, hnamed, hunder⟩ gs hkept
    cases hkept with
    | here => exact hown
    | named hkey hvalues hname hv => exact hnamed _ hkey _ hvalues _ _ hname gs hv
    | under hkey hv hw => exact hunder _ hkey _ hv gs hw

theorem keeps_required_arr (items : List Json) :
    KeepsRequired (.arr items) ↔ ∀ v ∈ items, KeepsRequired v := by
  constructor
  · intro h v hv fs hkept
    exact h fs (.item hv hkept)
  · intro h fs hkept
    obtain ⟨v, hv, hkept⟩ := Reaches.arr_iff.mp hkept
    exact h v hv fs hkept

theorem keeps_required_congr {fs gs : Fields Json}
    (hown : ∀ key ∈ "required"::mapKeys, fs.lookup key = gs.lookup key)
    (hunder : ∀ key ∈ schemaKeys, (∀ v, fs.lookup key = some v → KeepsRequired (survivors key v)) ↔
      ∀ v, gs.lookup key = some v → KeepsRequired (survivors key v)) :
    KeepsRequired (.obj fs) ↔ KeepsRequired (.obj gs) := by
  have hmap : ∀ key ∈ mapKeys, fs.lookup key = gs.lookup key := by
    intro key hkey
    exact hown key (List.mem_cons_of_mem _ hkey)
  have hrequires : RequiresAll fs ↔ RequiresAll gs := by
    rw [RequiresAll, RequiresAll, hown "required" (by simp), hmap "properties" (by decide)]
  rw [keeps_required_obj, keeps_required_obj, hrequires]
  apply and_congr_right'
  apply and_congr
  · apply forall₂_congr
    intro key hkey
    rw [hmap key hkey]
  · exact forall₂_congr hunder

theorem keeps_required_of_lookup {fs gs : Fields Json}
    (h : ∀ key ∈ "required"::mapKeys ++ schemaKeys, fs.lookup key = gs.lookup key) :
    KeepsRequired (.obj fs) ↔ KeepsRequired (.obj gs) := by
  apply keeps_required_congr
  · intro key hkey
    exact h key (List.mem_append_left _ hkey)
  · intro key hkey
    rw [h key (List.mem_append_right _ hkey)]

theorem keeps_required_null_schema : KeepsRequired nullSchema := by
  rw [nullSchema, Json.ofType, keeps_required_obj]
  simp [RequiresAll, mapKeys, schemaKeys, Fields.lookup_cons_ite]

theorem keeps_required_allow_null (fs : Fields Json) :
    KeepsRequired (.obj (allowNull fs)) ↔ KeepsRequired (.obj fs) := by
  apply keeps_required_of_lookup
  intro key hkey
  apply lookup_allow_null
  rintro rfl
  exact absurd hkey (by decide)

theorem keeps_required_widen_branches {fs : Fields Json} {bs : List Json}
    (h : fs.lookup "anyOf" = some (.arr bs)) :
    KeepsRequired (.obj (Fields.insert "anyOf" (.arr (widenBranches bs)) fs)) ↔
      KeepsRequired (.obj fs) := by
  have hbranches : KeepsRequired (.arr (widenBranches bs)) ↔ KeepsRequired (.arr bs) := by
    rw [widenBranches]
    split
    · rfl
    · simp [keeps_required_arr, or_imp, forall_and, keeps_required_null_schema]
  apply keeps_required_congr
  · intro key hkey
    rw [Fields.lookup_insert, if_neg]
    rintro rfl
    exact absurd hkey (by decide)
  · intro key _
    rw [Fields.lookup_insert]
    by_cases hkey : key = "anyOf"
    · subst hkey
      simpa [h, survivors_of_ne] using hbranches
    · rw [if_neg hkey]

theorem keeps_required_or_null (fs : Fields Json) :
    KeepsRequired (.obj (orNull fs)) ↔ KeepsRequired (.obj fs) := by
  have hconstraining : ∀ key ∈ "required"::mapKeys ++ schemaKeys, isDescriptive key = false := by
    decide
  rcases or_null_cases fs with ⟨-, heq⟩ | heq
  · rw [heq]
  · have hbranch : KeepsRequired (.obj (constraining fs)) ↔ KeepsRequired (.obj fs) :=
      keeps_required_of_lookup fun key hkey => lookup_constraining fs (hconstraining key hkey)
    have hrest : ∀ key ∈ "required"::mapKeys ++ schemaKeys, (describing fs).lookup key = none :=
      fun key hkey => lookup_describing fs (hconstraining key hkey)
    rw [heq, keeps_required_obj, ← hbranch]
    simp only [List.mem_cons, mapKeys, schemaKeys, List.cons_append, List.nil_append,
      List.not_mem_nil, or_false] at hrest
    simp [RequiresAll, mapKeys, schemaKeys, Fields.lookup_cons_ite, hrest, survivors_of_ne,
      keeps_required_arr, keeps_required_null_schema]

theorem keeps_required_widen (v : Json) : KeepsRequired (widen v) ↔ KeepsRequired v := by
  cases v with
  | obj fs =>
    rw [widen]
    cases ht : fs.lookup "type" with
    | some t =>
      rw [widen_fields_of_type ht, keeps_required_allow_null]
      apply keeps_required_of_lookup
      intro key hkey
      rw [Fields.lookup_insert, if_neg]
      rintro rfl
      exact absurd hkey (by decide)
    | none =>
      rw [widenFields, ht]
      dsimp only
      split
      · rename_i bs hbs
        rw [keeps_required_allow_null, keeps_required_widen_branches hbs]
      · exact keeps_required_or_null fs
  | _ => rfl

theorem keeps_required_once_required (s : ObjectSchema) (name : String) (v : Json) :
    KeepsRequired (s.onceRequired name v) ↔ KeepsRequired v := by
  rw [ObjectSchema.onceRequired]
  split
  · rfl
  · exact keeps_required_widen v

theorem requires_all_requiring_fields (s : ObjectSchema) : RequiresAll s.requiringFields := by
  intro ps hps
  have hproperties : s.requiringFields.lookup "properties" =
      some (.obj (widenMissing s.required s.properties)) := rfl
  rw [hproperties] at hps
  obtain rfl := Json.obj.inj (Option.some.inj hps)
  refine ⟨(Fields.keys s.properties).map .str, rfl, fun name hname => ?_⟩
  rw [keys_widen_missing] at hname
  exact List.mem_map_of_mem hname

/-- The objects of a strict tool require all their properties exactly if those inside its
properties did so before, as far as the strict form keeps them. -/
theorem render_strict_requires_iff {c : CompiledSchema}
    (hc : (Json.obj c.parameters.properties).wellKeyed = true) (d : Dialect) :
    RequiresAllThroughout (c.renderStrict d).parameters ↔
      ∀ name v, c.parameters.properties.lookup name = some v →
        ∀ fs, Kept v (.obj fs) → RequiresAll fs := by
  have hparameters : (c.renderStrict d).parameters =
      form (requireAll c.parameters.toJson) := rfl
  rw [hparameters, requires_all_throughout_form (ObjectSchema.require_all_well_keyed hc),
    KeepsRequired, ObjectSchema.forall_kept_require_all _ (requires_all_requiring_fields _)]
  exact forall₃_congr fun name v _ => keeps_required_once_required c.parameters name v

/-- A place whose point requires both of its coordinates. -/
theorem place_requires_iff :
    let point : Json := .obj [("type", .str "object"),
      ("properties", .obj [("x", .ofType "number"), ("y", .ofType "number")]),
      ("required", .strs ["x", "y"])]
    let c : CompiledSchema := ⟨"go", "", ⟨"object", [("place", point)], []⟩⟩
    (Json.obj c.parameters.properties).wellKeyed = true ∧
      (RequiresAllThroughout (c.renderStrict .claude).parameters ↔
        ∀ name v, c.parameters.properties.lookup name = some v →
          ∀ fs, Kept v (.obj fs) → RequiresAll fs) := by
  intro point c
  have hc : (Json.obj c.parameters.properties).wellKeyed = true := by decide
  exact ⟨hc, render_strict_requires_iff hc .claude⟩

/-- A point inside a property requires no coordinate afterwards, as it required none before. -/
theorem nested_point_requires_none :
    ¬ RequiresAllThroughout (CompiledSchema.renderStrict
      ⟨"go", "", ⟨"object", [("place", .obj [("type", .str "object"),
        ("properties", .obj [("x", .obj [("type", .strs ["number", "null"])])]),
        ("required", .arr [])])], ["place"]⟩⟩ .openai).parameters := by
  intro h
  have hname : [("place", Json.obj [("type", .str "object"),
      ("properties", .obj [("x", .obj [("type", .strs ["number", "null"])])]),
      ("required", .arr []), ("additionalProperties", .bool false)])].lookup "place" = some _ := rfl
  obtain ⟨names, hrequired, hall⟩ := h _ (.property rfl hname) _ rfl
  obtain rfl : names = [] := by simpa [Fields.lookup_cons_ite, eq_comm] using hrequired
  simp [Fields.keys] at hall

end Strict

end ToolSpec
