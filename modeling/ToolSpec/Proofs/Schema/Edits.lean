import ToolSpec.Proofs.Schema.DistinctWarnings
import ToolSpec.Proofs.Schema.Supported

/-!
# What the strict form edits

A schema and its strict form, compared position by position. In an object at a schema position the
rejected entries are gone, an object schema is closed, and the schemas inside are edited in turn.
Names keep their order and every other value is the one that it was; only the order of the keys of
the object itself is open. What was removed is reported once, with its place.
-/

set_option autoImplicit false

namespace ToolSpec.Strict

/-- What becomes of the value of a key in an object, where `R` is what becomes of a schema. -/
inductive Outcome (R : Json → Json → Prop) :
    String → Fields Json → Option Json → Option Json → Prop
  | removed {fs : Fields Json} {key : String} {v : Json} : Rejected key v →
      Outcome R key fs (some v) none
  | closed {fs : Fields Json} {before : Option Json} : IsObject fs →
      Outcome R "additionalProperties" fs before (some (.bool false))
  | named {fs vs ws : Fields Json} {key : String} : key ∈ mapKeys →
      Fields.keys ws = Fields.keys vs →
      List.Forall₂ R (vs.map Prod.snd) (ws.map Prod.snd) →
      Outcome R key fs (some (.obj vs)) (some (.obj ws))
  | under {fs : Fields Json} {key : String} {v w : Json} : key ∈ schemaKeys → ¬ Emptied key v →
      R (survivors key v) w → Outcome R key fs (some v) (some w)
  | emptied {fs : Fields Json} {key : String} {v : Json} : key ∈ schemaKeys → Emptied key v →
      Outcome R key fs (some v) none
  | untouched {fs : Fields Json} {key : String} {before : Option Json} :
      (∀ v, before = some v → ¬ Rejected key v) →
      (IsObject fs → key ≠ "additionalProperties") →
      (key ∈ mapKeys → ∀ vs, before ≠ some (.obj vs)) → (key ∈ schemaKeys → before = none) →
      Outcome R key fs before before

/-- The second value is the first one after the edits of strict tool calling. -/
inductive Edited : Json → Json → Prop
  | leaf {v : Json} : v.items? = none → v.fields? = none → Edited v v
  | list {vs ws : List Json} : List.Forall₂ Edited vs ws → Edited (.arr vs) (.arr ws)
  | object {fs gs : Fields Json} : (Fields.keys gs).Nodup →
      (∀ key, Outcome Edited key fs (fs.lookup key) (gs.lookup key)) →
      Edited (.obj fs) (.obj gs)

theorem Edited.each {vs ws : List Json} (h : Edited (.arr vs) (.arr ws)) :
    List.Forall₂ Edited vs ws := by
  cases h with
  | leaf hitems _ => simp [Json.items?] at hitems
  | list h => exact h

theorem edited_list {vs : List Json} :
    Edited (.arr vs) (form (.arr vs)) ↔ ∀ v ∈ vs, Edited v (form v) := by
  rw [form_arr]
  constructor
  · intro h
    have heach := h.each
    rwa [List.forall₂_map_right_iff, List.forall₂_same] at heach
  · intro h
    apply Edited.list
    rwa [List.forall₂_map_right_iff, List.forall₂_same]

theorem edited_survivors {v : Json} (h : Edited v (form v)) (key : String) :
    Edited (survivors key v) (form (survivors key v)) := by
  unfold survivors
  split
  · rw [edited_list] at h ⊢
    exact fun v hv => h v (List.mem_of_mem_filter hv)
  · exact h

variable {fs : Fields Json} {key : String}

theorem not_rejected_of_mem (h : key ∈ mapKeys ++ schemaKeys) (v : Json) : ¬ Rejected key v := by
  have hplain : ∀ key ∈ mapKeys ++ schemaKeys,
      key ∉ ["format", "minItems", "$ref"] ∧ key ∉ droppedKeywords := by decide
  rw [rejected_keyword (hplain key h).1]
  exact (hplain key h).2

theorem outcome_named (hs : (Json.obj fs).wellKeyed = true) (hkey : key ∈ mapKeys)
    (h : ∀ values, fs.lookup key = some (.obj values) → ∀ name v, (name, v) ∈ values →
      Edited v (form v)) :
    Outcome Edited key fs (fs.lookup key) ((tidy (formFields fs)).lookup key) := by
  have hother : key ≠ "additionalProperties" ∧ key ∉ schemaKeys := by
    simp only [mapKeys, List.mem_cons, List.not_mem_nil, or_false] at hkey
    rcases hkey with rfl | rfl | rfl <;> decide
  have huntouched : ∀ before : Option Json, (∀ vs, before ≠ some (.obj vs)) →
      Outcome Edited key fs before before := by
    intro before hbefore
    refine .untouched ?_ (fun _ => hother.1) (fun _ => hbefore) fun h => absurd h hother.2
    exact fun v _ => not_rejected_of_mem (List.mem_append_left _ hkey) v
  rw [lookup_named ((Json.well_keyed_obj fs).mp hs).1 hkey]
  cases hv : fs.lookup key with
  | none => exact huntouched none (by simp)
  | some v =>
    cases v with
    | obj values =>
      refine .named hkey (keys_form_values values) ?_
      have hvalues : (formValues values).map Prod.snd = (values.map Prod.snd).map form := by
        simp [form_values_eq_map, Function.comp_def]
      rw [hvalues, List.forall₂_map_right_iff, List.forall₂_same]
      intro u hu
      obtain ⟨⟨name, u⟩, hmem, rfl⟩ := List.mem_map.mp hu
      exact h values hv name u hmem
    | _ => exact huntouched _ (by simp)

theorem outcome_under (hs : (Json.obj fs).wellKeyed = true) (hkey : key ∈ schemaKeys)
    (h : ∀ v, fs.lookup key = some v → Edited v (form v)) :
    Outcome Edited key fs (fs.lookup key) ((tidy (formFields fs)).lookup key) := by
  rw [lookup_under ((Json.well_keyed_obj fs).mp hs).1 hkey]
  cases hv : fs.lookup key with
  | none =>
    have hother : key ≠ "additionalProperties" := by
      rintro rfl
      exact absurd hkey (by decide)
    rw [Option.map_none, kept_none]
    exact .untouched (by simp) (fun _ => hother) (by simp) fun _ => rfl
  | some v =>
    obtain ⟨hgone, hleft⟩ := kept_form hkey (Json.well_keyed_of_lookup hs hv)
    rw [Option.map_some]
    by_cases hempty : Emptied key v
    · rw [hgone hempty]
      exact .emptied hkey hempty
    · rw [hleft hempty]
      exact .under hkey hempty (edited_survivors (h v hv) key)

theorem outcome_other (hn : (Fields.keys fs).Nodup) (hkey : key ∉ mapKeys ++ schemaKeys) :
    Outcome Edited key fs (fs.lookup key) ((tidy (formFields fs)).lookup key) := by
  have hmap : key ∉ mapKeys := fun h => hkey (List.mem_append_left _ h)
  have hschema : key ∉ schemaKeys := fun h => hkey (List.mem_append_right _ h)
  have hall : key ≠ "allOf" := by
    rintro rfl
    exact hschema (by decide)
  rw [lookup_tidy (by rwa [keys_form_fields]), is_object_schema_form_fields, lookup_form_fields,
    form_field_of_not_mem hkey, Option.map_id, id]
  by_cases hclosed : isObjectSchema fs = true ∧ key = "additionalProperties"
  · obtain ⟨hobject, rfl⟩ := hclosed
    rw [if_neg (by decide), if_pos ⟨hobject, rfl⟩]
    exact .closed (is_object_schema_iff.mp hobject)
  · have hopen : IsObject fs → key ≠ "additionalProperties" := fun hobject h =>
      hclosed ⟨is_object_schema_iff.mpr hobject, h⟩
    rw [if_neg hclosed]
    cases hv : fs.lookup key with
    | none =>
      rw [kept_none, ite_self]
      exact .untouched (by simp) hopen (by simp) (by simp)
    | some v =>
      by_cases hdropped : key ∈ droppedKeywords
      · rw [if_pos hdropped]
        exact .removed (.inl hdropped)
      · rw [if_neg hdropped]
        by_cases hrejected : Rejected key v
        · rw [kept_of_rejected hdropped hrejected]
          exact .removed hrejected
        · rw [kept_of_not_rejected hall hrejected]
          refine .untouched ?_ hopen (fun h => absurd h hmap) fun h => absurd h hschema
          intro u hu
          rwa [← Option.some.inj hu]

theorem edited_form {s : Json} (hs : s.wellKeyed = true) : Edited s (form s) := by
  induction s using induct with
  | leaf v hitems hfields =>
    rw [form_leaf hitems hfields]
    exact .leaf hitems hfields
  | arr items ih =>
    rw [edited_list]
    exact fun v hv => ih v hv ((Json.well_keyed_arr items).mp hs v hv)
  | obj fs hnamed hunder =>
    obtain ⟨hn, -⟩ := (Json.well_keyed_obj fs).mp hs
    rw [form]
    apply Edited.object
    · exact nodup_tidy (by rwa [keys_form_fields])
    intro key
    by_cases hmap : key ∈ mapKeys
    · apply outcome_named hs hmap
      intro values hvalues name v hv
      have hkeyed := (Json.well_keyed_obj values).mp (Json.well_keyed_of_lookup hs hvalues)
      exact hnamed key hmap values (Fields.mem_of_lookup hvalues) name v hv (hkeyed.2 name v hv)
    · by_cases hschema : key ∈ schemaKeys
      · apply outcome_under hs hschema
        intro v hv
        exact hunder key hschema v (Fields.mem_of_lookup hv) (Json.well_keyed_of_lookup hs hv)
      · exact outcome_other hn (by simp [hmap, hschema])

/-- The strict form makes the announced edits and no others, and warns once of every entry that it
removes, at the place of its object. -/
theorem form_edits {s : Json} (hs : s.wellKeyed = true) :
    Edited s (form s) ∧ (warnings [] s).Nodup ∧
      ∀ w, w ∈ warnings [] s ↔ ∃ p fs, At s p (.obj fs) ∧ Reported p fs w := by
  refine ⟨edited_form hs, nodup_warnings hs [], fun w => ?_⟩
  simpa [ReportedWithin] using mem_warnings hs []

/-- A default that looks like a schema, next to a union with a remote reference. -/
theorem default_schema_edits :
    let sample : Json := .obj [("title", .str "kept"), ("properties", .obj [("minimum", .int 1)])]
    let remote : Json := .obj [("$ref", .str "https://a.b/c"), ("uniqueItems", .bool true)]
    let s : Json := .obj [("type", .str "object"), ("default", sample),
      ("$defs", .obj [("title", .obj [("anyOf", .arr [remote, .ofType "null"])])])]
    s.wellKeyed = true ∧ Edited s (form s) ∧ (warnings [] s).Nodup ∧
      ∀ w, w ∈ warnings [] s ↔ ∃ p fs, At s p (.obj fs) ∧ Reported p fs w := by
  intro sample remote s
  have hs : s.wellKeyed = true := by decide
  exact ⟨hs, form_edits hs⟩

end ToolSpec.Strict
