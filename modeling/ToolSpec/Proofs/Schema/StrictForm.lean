import ToolSpec.Proofs.Json.Keys
import ToolSpec.Schema.Strict

/-!
# The keys of a strict form

Tidying is described by its lookups. Keywords that strict tool calling rejects are gone, an object
schema is closed, a conjunction loses its references, and every other key keeps its value.
-/

set_option autoImplicit false

namespace ToolSpec.Strict

variable {fs : Fields Json}

theorem nodup_erase_unless (hn : (Fields.keys fs).Nodup) (key : String) (keep : Json → Bool) :
    (Fields.keys (eraseUnless key keep fs)).Nodup := by
  unfold eraseUnless
  split
  · exact Fields.nodup_keys_erase key hn
  · exact hn

theorem lookup_erase_unless (hn : (Fields.keys fs).Nodup) (key : String) (keep : Json → Bool)
    (k : String) :
    (eraseUnless key keep fs).lookup k =
      if k = key then (fs.lookup key).filter keep else fs.lookup k := by
  unfold eraseUnless dropped?
  by_cases hk : k = key
  · subst hk
    cases hv : fs.lookup k with
    | none => simp [hv]
    | some v => cases hkeep : keep v <;> simp [hv, hkeep, Option.filter, Fields.lookup_erase hn]
  · rw [if_neg hk]
    split
    · rw [Fields.lookup_erase hn, if_neg hk]
    · rfl

theorem erase_keywords_spec (keys : List String) (hn : (Fields.keys fs).Nodup) :
    (Fields.keys (keys.foldl (fun acc key => Fields.erase key acc) fs)).Nodup ∧
      ∀ k, (keys.foldl (fun acc key => Fields.erase key acc) fs).lookup k =
        if k ∈ keys then none else fs.lookup k := by
  induction keys generalizing fs with
  | nil => simpa using hn
  | cons key rest ih =>
    obtain ⟨hnodup, hlookup⟩ := ih (Fields.nodup_keys_erase key hn)
    refine ⟨hnodup, fun k => ?_⟩
    rw [List.foldl_cons, hlookup, Fields.lookup_erase hn]
    by_cases hk : k = key <;> simp [hk]

theorem nodup_close (hn : (Fields.keys fs).Nodup) : (Fields.keys (close fs)).Nodup := by
  unfold close
  split
  · exact Fields.nodup_keys_insert _ _ hn
  · exact hn

theorem lookup_close (k : String) :
    (close fs).lookup k =
      if isObjectSchema fs ∧ k = "additionalProperties" then some (.bool false)
      else fs.lookup k := by
  unfold close
  split
  · rename_i h
    simp [Fields.lookup_insert, h]
  · rename_i h
    simp [h]

def unreferenced : Json → Option Json
  | .arr [] => some (.arr [])
  | .arr parts =>
    match parts.filter (!isReference ·) with
    | [] => none
    | kept => some (.arr kept)
  | v => some v

theorem unreferenced_eq_some {v w : Json} (h : unreferenced v = some w) :
    v.items? = none ∧ w = v ∨
      ∃ parts, v = .arr parts ∧ w = .arr (parts.filter (!isReference ·)) := by
  unfold unreferenced at h
  split at h
  · exact .inr ⟨[], rfl, (Option.some.inj h).symm⟩
  · split at h
    · contradiction
    · exact .inr ⟨_, rfl, (Option.some.inj h).symm⟩
  · rename_i hno
    refine .inl ⟨?_, (Option.some.inj h).symm⟩
    cases v with
    | arr parts => exact absurd rfl (hno parts)
    | _ => rfl

theorem lookup_erase_all_of_refs (hn : (Fields.keys fs).Nodup) (k : String) :
    (eraseAllOfRefs fs).lookup k =
      if k = "allOf" then (fs.lookup "allOf").bind unreferenced else fs.lookup k := by
  unfold eraseAllOfRefs
  split
  · rename_i parts hparts
    cases parts with
    | nil => by_cases hk : k = "allOf" <;> simp [hk, hparts, unreferenced]
    | cons p rest =>
      split
      · rename_i hnone
        rw [if_neg (List.cons_ne_nil p rest), Fields.lookup_erase hn]
        simp [hparts, unreferenced, hnone]
      · rename_i hsome
        rw [Fields.lookup_insert]
        by_cases hk : k = "allOf"
        · simp only [hk, if_true, hparts, Option.bind_some, unreferenced]
        · simp [hk]
  · rename_i hno
    by_cases hk : k = "allOf"
    · subst hk
      rw [if_pos rfl]
      cases hv : fs.lookup "allOf" with
      | none => rfl
      | some v =>
        cases v with
        | arr parts => exact absurd hv (hno parts)
        | _ => rfl
    · rw [if_neg hk]

theorem nodup_erase_all_of_refs (hn : (Fields.keys fs).Nodup) :
    (Fields.keys (eraseAllOfRefs fs)).Nodup := by
  unfold eraseAllOfRefs
  split
  · split
    · split
      · exact hn
      · exact Fields.nodup_keys_erase _ hn
    · exact Fields.nodup_keys_insert _ _ hn
  · exact hn

theorem nodup_tidy (hn : (Fields.keys fs).Nodup) : (Fields.keys (tidy fs)).Nodup := by
  have hn1 := (erase_keywords_spec droppedKeywords hn).1
  have hn2 := nodup_erase_unless hn1 "format" isKeptFormat
  have hn3 := nodup_erase_unless hn2 "minItems" isKeptMinItems
  have hn4 := nodup_erase_unless (nodup_close hn3) "$ref" (!isRemote ·)
  exact nodup_erase_all_of_refs hn4

def kept (key : String) (v : Option Json) : Option Json :=
  match key with
  | "format" => v.filter isKeptFormat
  | "minItems" => v.filter isKeptMinItems
  | "$ref" => v.filter (!isRemote ·)
  | "allOf" => v.bind unreferenced
  | _ => v

theorem kept_of_not_mem {key : String} (h : key ∉ ["format", "minItems", "$ref", "allOf"])
    (v : Option Json) : kept key v = v := by
  simp only [List.mem_cons, List.not_mem_nil, or_false, not_or] at h
  obtain ⟨h1, h2, h3, h4⟩ := h
  unfold kept
  split <;> first | rfl | contradiction

theorem kept_none (key : String) : kept key none = none := by
  unfold kept
  split <;> rfl

theorem lookup_tidy (hn : (Fields.keys fs).Nodup) (k : String) :
    (tidy fs).lookup k =
      if k ∈ droppedKeywords then none
      else if isObjectSchema fs ∧ k = "additionalProperties" then some (.bool false)
      else kept k (fs.lookup k) := by
  obtain ⟨hn1, h1⟩ := erase_keywords_spec droppedKeywords hn
  rw [← eraseKeywords] at hn1 h1
  have hn2 := nodup_erase_unless hn1 "format" isKeptFormat
  have hn3 := nodup_erase_unless hn2 "minItems" isKeptMinItems
  have h3 : ∀ k, (eraseUnless "minItems" isKeptMinItems
      (eraseUnless "format" isKeptFormat (eraseKeywords fs))).lookup k =
      if k = "minItems" then (fs.lookup "minItems").filter isKeptMinItems
      else if k = "format" then (fs.lookup "format").filter isKeptFormat
      else if k ∈ droppedKeywords then none else fs.lookup k := by
    intro k
    rw [lookup_erase_unless hn2, lookup_erase_unless hn1, lookup_erase_unless hn1, h1, h1, h1]
    rfl
  -- What decides whether an object is closed has not been touched before.
  have hobject : isObjectSchema (eraseUnless "minItems" isKeptMinItems
      (eraseUnless "format" isKeptFormat (eraseKeywords fs))) = isObjectSchema fs := by
    simp [isObjectSchema, Fields.has, h3, droppedKeywords]
  have hn4 := nodup_close hn3
  rw [tidy, lookup_erase_all_of_refs (nodup_erase_unless hn4 "$ref" (!isRemote ·)),
    lookup_erase_unless hn4, lookup_erase_unless hn4, lookup_close, lookup_close, lookup_close,
    hobject, h3, h3, h3]
  by_cases hkept : k ∈ ["format", "minItems", "$ref", "allOf"]
  · simp only [List.mem_cons, List.not_mem_nil, or_false] at hkept
    rcases hkept with rfl | rfl | rfl | rfl <;> simp [droppedKeywords, kept]
  · rw [kept_of_not_mem hkept]
    simp only [List.mem_cons, List.not_mem_nil, or_false, not_or] at hkept
    obtain ⟨hformat, hminItems, href, hallOf⟩ := hkept
    rw [if_neg hallOf, if_neg href, if_neg hminItems, if_neg hformat]
    by_cases hclosed : isObjectSchema fs = true ∧ k = "additionalProperties"
    · rw [if_pos hclosed, if_pos hclosed, if_neg (by rw [hclosed.2]; decide)]
    · rw [if_neg hclosed, if_neg hclosed]

theorem well_keyed_kept {key : String} {v w : Json} (hv : v.wellKeyed = true)
    (h : kept key (some v) = some w) : w.wellKeyed = true := by
  have hfilter : ∀ p : Json → Bool, (some v).filter p = some w → w.wellKeyed = true := by
    intro p hp
    rwa [← Option.some.inj (Option.filter_eq_some_iff.mp hp).1]
  unfold kept at h
  split at h
  · exact hfilter _ h
  · exact hfilter _ h
  · exact hfilter _ h
  · rcases unreferenced_eq_some h with ⟨-, rfl⟩ | ⟨parts, rfl, rfl⟩
    · exact hv
    · rw [Json.well_keyed_arr] at hv ⊢
      exact fun p hp => hv p (List.mem_of_mem_filter hp)
  · rwa [← Option.some.inj h]

theorem tidy_well_keyed (hs : (Json.obj fs).wellKeyed = true) :
    (Json.obj (tidy fs)).wellKeyed = true := by
  obtain ⟨hn, -⟩ := (Json.well_keyed_obj fs).mp hs
  rw [Json.well_keyed_obj]
  refine ⟨nodup_tidy hn, fun key w hw => ?_⟩
  have hlookup := Fields.lookup_of_mem (nodup_tidy hn) hw
  rw [lookup_tidy hn] at hlookup
  split at hlookup
  · cases hlookup
  · split at hlookup
    · rw [← Option.some.inj hlookup]
      rfl
    · cases hv : fs.lookup key with
      | none =>
        rw [hv, kept_none] at hlookup
        cases hlookup
      | some v =>
        rw [hv] at hlookup
        exact well_keyed_kept (Json.well_keyed_of_lookup hs hv) hlookup

def formField (key : String) (v : Json) : Json :=
  if key ∈ mapKeys then formNamed v else if key ∈ schemaKeys then form v else v

theorem form_field_of_not_mem {key : String} (h : key ∉ mapKeys ++ schemaKeys) :
    formField key = id := by
  rw [List.mem_append, not_or] at h
  funext v
  rw [formField, if_neg h.1, if_neg h.2]
  rfl

theorem form_field_of_mem_map_keys {key : String} (h : key ∈ mapKeys) :
    formField key = formNamed := by
  funext v
  rw [formField, if_pos h]

theorem form_field_of_mem_schema_keys {key : String} (h : key ∈ schemaKeys) :
    formField key = form := by
  funext v
  simp only [schemaKeys, List.mem_cons, List.not_mem_nil, or_false] at h
  rcases h with rfl | rfl | rfl | rfl <;> rfl

theorem form_fields_eq_map (fs : Fields Json) :
    formFields fs = fs.map fun (k, v) => (k, formField k v) := by
  induction fs with
  | nil => rfl
  | cons e rest ih => simp [formFields, formField, ih]

theorem keys_form_fields (fs : Fields Json) : Fields.keys (formFields fs) = Fields.keys fs := by
  rw [form_fields_eq_map, Fields.keys_map_value]

theorem lookup_form_fields (fs : Fields Json) (k : String) :
    (formFields fs).lookup k = (fs.lookup k).map (formField k) := by
  rw [form_fields_eq_map, Fields.lookup_map_value]

theorem lookup_form_values (fs : Fields Json) (name : String) :
    (formValues fs).lookup name = (fs.lookup name).map form := by
  rw [form_values_eq_map, Fields.lookup_map_value fun _ v => form v]

theorem keys_form_values (fs : Fields Json) : Fields.keys (formValues fs) = Fields.keys fs := by
  rw [form_values_eq_map, Fields.keys_map_value fun _ v => form v]

theorem form_named_well_keyed {v : Json} (hv : v.wellKeyed = true)
    (h : ∀ values : Fields Json, v = .obj values →
      ∀ name u, (name, u) ∈ values → (form u).wellKeyed = true) :
    (formNamed v).wellKeyed = true := by
  cases v with
  | obj values =>
    rw [formNamed, Json.well_keyed_obj, keys_form_values]
    refine ⟨((Json.well_keyed_obj values).mp hv).1, fun name w hw => ?_⟩
    rw [form_values_eq_map] at hw
    obtain ⟨⟨name, u⟩, hu, he⟩ := List.mem_map.mp hw
    obtain ⟨rfl, rfl⟩ := Prod.mk.inj he
    exact h values rfl name u hu
  | _ => exact hv

theorem is_object_schema_form_fields (fs : Fields Json) :
    isObjectSchema (formFields fs) = isObjectSchema fs := by
  rw [isObjectSchema, isObjectSchema, Fields.has, Fields.has, lookup_form_fields,
    lookup_form_fields, form_field_of_not_mem (by decide), Option.map_id, id, Option.isSome_map]

end ToolSpec.Strict
