import ToolSpec.Proofs.Schema.Warnings

/-!
# Supported schemas

A schema is supported if no object at its schema positions says anything that strict tool calling
rejects. Strict forms are supported, and the supported schemas are exactly those that the strict
form leaves as they are, without a warning.
-/

set_option autoImplicit false

namespace ToolSpec.Strict

variable {fs : Fields Json}

def IsObject (fs : Fields Json) : Prop :=
  fs.lookup "type" = some (.str "object") ∨ "properties" ∈ Fields.keys fs

structure Supported (fs : Fields Json) : Prop where
  entries : ∀ key v, fs.lookup key = some v → ¬ Rejected key v
  parts : ∀ parts, fs.lookup "allOf" = some (.arr parts) →
    ∀ ps, .obj ps ∈ parts → "$ref" ∉ Fields.keys ps
  closed : IsObject fs → fs.lookup "additionalProperties" = some (.bool false)

def SupportedThroughout (s : Json) : Prop :=
  ∀ fs, Within schemaKeys s (.obj fs) → Supported fs

theorem is_object_schema_iff : isObjectSchema fs = true ↔ IsObject fs := by
  have hstr : ∀ v : Json, v.str? = some "object" ↔ v = .str "object" := by
    intro v
    cases v <;> simp [Json.str?]
  simp [isObjectSchema, IsObject, Fields.has_iff, Option.bind_eq_some_iff, hstr]

theorem is_reference_obj {ps : Fields Json} :
    isReference (.obj ps) = true ↔ "$ref" ∈ Fields.keys ps := by
  rw [← Fields.has_iff]
  rfl

theorem obj_of_has_local_ref {v : Json} (h : hasLocalRef v = true) :
    ∃ ps, v = .obj ps ∧ "$ref" ∈ Fields.keys ps := by
  cases v with
  | obj ps =>
    have hany : (ps.lookup "$ref").any (!isRemote ·) = true := h
    cases href : ps.lookup "$ref" with
    | none => simp [href] at hany
    | some target => exact ⟨ps, rfl, Fields.mem_keys_iff.mpr ⟨target, href⟩⟩
  | _ => simp [hasLocalRef, Json.get?, Json.fields?] at h

theorem is_object_tidy (hn : (Fields.keys fs).Nodup) : IsObject (tidy fs) ↔ IsObject fs := by
  have htype : (tidy fs).lookup "type" = fs.lookup "type" := by
    rw [lookup_tidy hn]
    simp [droppedKeywords, kept]
  have hproperties : (tidy fs).lookup "properties" = fs.lookup "properties" := by
    rw [lookup_tidy hn]
    simp [droppedKeywords, kept]
  rw [IsObject, IsObject, Fields.mem_keys_iff, Fields.mem_keys_iff, htype, hproperties]

theorem supported_tidy (hn : (Fields.keys fs).Nodup) : Supported (tidy fs) where
  entries key v hv := by
    rw [lookup_tidy hn] at hv
    split at hv
    · cases hv
    · rename_i hkey
      split at hv
      · rename_i hclosed
        rw [hclosed.2, rejected_keyword (by decide)]
        decide
      · exact not_rejected_of_kept hkey hv
  parts parts hparts ps hps := by
    have hkept : (fs.lookup "allOf").bind unreferenced = some (.arr parts) := by
      rw [lookup_tidy hn] at hparts
      simpa [droppedKeywords, kept] using hparts
    obtain ⟨v, -, hv⟩ := Option.bind_eq_some_iff.mp hkept
    rw [← is_reference_obj]
    rcases unreferenced_eq_some hv with ⟨hitems, rfl⟩ | ⟨old, -, heq⟩
    · simp [Json.items?] at hitems
    · rw [Json.arr.inj heq] at hps
      simpa using (List.mem_filter.mp hps).2
  closed hobject := by
    rw [is_object_tidy hn, ← is_object_schema_iff] at hobject
    rw [lookup_tidy hn, if_neg (by decide), if_pos ⟨hobject, rfl⟩]

theorem form_supported {s : Json} (hs : s.wellKeyed = true) : SupportedThroughout (form s) := by
  have hform := forall_within_form [] (by simp) hs Supported
  rw [List.nil_append] at hform
  rw [SupportedThroughout, hform]
  intro fs hkept
  refine ⟨supported_tidy ?_, by simp⟩
  rw [keys_form_fields]
  exact nodup_of_kept hkept hs

theorem erase_all_eq_self (keys : List String) (h : ∀ key ∈ keys, key ∉ Fields.keys fs) :
    keys.foldl (fun acc key => Fields.erase key acc) fs = fs := by
  induction keys with
  | nil => rfl
  | cons key rest ih =>
    rw [List.foldl_cons, Fields.erase_of_not_mem (h key List.mem_cons_self)]
    exact ih fun k hk => h k (List.mem_cons_of_mem key hk)

theorem erase_unless_eq_self {key : String} {keep : Json → Bool}
    (h : ∀ v, fs.lookup key = some v → keep v = true) : eraseUnless key keep fs = fs := by
  have hnone : dropped? key keep fs = none := by
    rw [Option.eq_none_iff_forall_ne_some]
    intro v hv
    obtain ⟨hlookup, hdrop⟩ := dropped_eq_some.mp hv
    simp [h v hlookup] at hdrop
  rw [eraseUnless, hnone]
  rfl

theorem close_eq_self (h : Supported fs) : close fs = fs := by
  rw [close]
  split
  · rename_i hobject
    exact Fields.insert_lookup (h.closed (is_object_schema_iff.mp hobject))
  · rfl

theorem erase_all_of_refs_eq_self (h : Supported fs) : eraseAllOfRefs fs = fs := by
  unfold eraseAllOfRefs
  split
  · rename_i parts hparts
    have hall : parts.filter (!isReference ·) = parts := by
      rw [List.filter_eq_self]
      intro p hp
      cases p with
      | obj ps =>
        have hlocal := h.parts parts hparts ps hp
        rw [← is_reference_obj, Bool.not_eq_true] at hlocal
        rw [hlocal, Bool.not_false]
      | _ => rfl
    split
    · rename_i hnil
      rw [if_pos (hall.symm.trans hnil)]
    · rw [hall]
      exact Fields.insert_lookup hparts
  · rfl

theorem tidy_eq_self (h : Supported fs) : tidy fs = fs := by
  have hkeywords : eraseKeywords fs = fs := by
    apply erase_all_eq_self
    intro key hkey hmem
    obtain ⟨v, hv⟩ := Fields.mem_keys_iff.mp hmem
    exact h.entries key v hv (.inl hkey)
  have hformat : eraseUnless "format" isKeptFormat fs = fs := by
    apply erase_unless_eq_self
    intro v hv
    simpa [rejected_format] using h.entries _ v hv
  have hminItems : eraseUnless "minItems" isKeptMinItems fs = fs := by
    apply erase_unless_eq_self
    intro v hv
    simpa [rejected_min_items] using h.entries _ v hv
  have href : eraseUnless "$ref" (!isRemote ·) fs = fs := by
    apply erase_unless_eq_self
    intro v hv
    simpa [rejected_ref] using h.entries _ v hv
  rw [tidy, hkeywords, hformat, hminItems, close_eq_self h, href, erase_all_of_refs_eq_self h]

theorem form_named_eq_self {v : Json} (h : ∀ values : Fields Json, v = .obj values →
    ∀ name u, (name, u) ∈ values → form u = u) : formNamed v = v := by
  cases v with
  | obj values =>
    rw [formNamed, form_values_eq_map]
    congr 1
    exact Fields.map_value_eq_self (g := fun _ u => form u) (h values rfl)
  | _ => rfl

theorem form_eq_self {s : Json} (hs : s.wellKeyed = true) (h : SupportedThroughout s) :
    form s = s := by
  induction s using induct with
  | leaf v hitems hfields => exact form_leaf hitems hfields
  | arr items ih =>
    have hitems : items.map form = items.map id := by
      apply List.map_congr_left
      intro v hv
      exact ih v hv ((Json.well_keyed_arr items).mp hs v hv) fun fs hin => h fs (.item hv hin)
    rw [form_arr, hitems, List.map_id]
  | obj fs hnamed hunder =>
    obtain ⟨hn, hvalues⟩ := (Json.well_keyed_obj fs).mp hs
    have hfield : ∀ key v, (key, v) ∈ fs → formField key v = v := by
      intro key v hv
      have hlookup := Fields.lookup_of_mem hn hv
      by_cases hmap : key ∈ mapKeys
      · rw [form_field_of_mem_map_keys hmap]
        apply form_named_eq_self
        rintro values rfl name u hu
        obtain ⟨hdistinct, heach⟩ := (Json.well_keyed_obj values).mp (hvalues key _ hv)
        have hname := Fields.lookup_of_mem hdistinct hu
        exact hnamed key hmap values hv name u hu (heach name u hu) fun gs hin =>
          h gs (.named hmap hlookup hname hin)
      · by_cases hschema : key ∈ schemaKeys
        · rw [form_field_of_mem_schema_keys hschema]
          exact hunder key hschema v hv (hvalues key v hv) fun gs hin =>
            h gs (.under hschema hlookup hin)
        · rw [form_field_of_not_mem (by simp [hmap, hschema]), id]
    rw [form, form_fields_eq_map, Fields.map_value_eq_self hfield, tidy_eq_self (h fs (.here _))]

theorem warnings_eq_nil {s : Json} (hs : s.wellKeyed = true) (h : SupportedThroughout s)
    (place : Place) : warnings place s = [] := by
  rw [List.eq_nil_iff_forall_not_mem]
  intro w hw
  obtain ⟨p, fs, hp, hreported⟩ := (mem_warnings hs place).mp hw
  have hsupported := h fs (within_iff_at.mpr ⟨p, hp⟩)
  cases hreported with
  | keyword hkey hv => exact hsupported.entries _ _ hv (.inl hkey)
  | format hv hrejected => exact hsupported.entries _ _ hv hrejected
  | minItems hv hrejected => exact hsupported.entries _ _ hv hrejected
  | remote hv hrejected => exact hsupported.entries _ _ hv hrejected
  | @parts parts hparts hrefs =>
    apply hrefs
    rw [List.countP_eq_zero]
    intro v hv hlocal
    obtain ⟨ps, rfl, href⟩ := obj_of_has_local_ref hlocal
    exact hsupported.parts parts hparts ps hv href

/-- Strict forms say nothing that strict tool calling rejects, at none of their schema positions,
and a schema that says nothing of the kind is its own strict form. -/
theorem form_normal {s : Json} (hs : s.wellKeyed = true) :
    SupportedThroughout (form s) ∧ (form s = s ↔ SupportedThroughout s) := by
  refine ⟨form_supported hs, fun h => ?_, form_eq_self hs⟩
  have hform := form_supported hs
  rwa [h] at hform

/-- Properties named like keywords, one of them a list of references alone. -/
theorem keyword_names_normal :
    let parent : Json := .obj [("allOf", .arr [.obj [("$ref", .str "#/$defs/node")]])]
    let count : Json := .obj [("minimum", .int 0), ("format", .str "int64"), ("minItems", .int 2)]
    let s : Json := .obj [("title", .str "Node"),
      ("properties", .obj [("minimum", count), ("$ref", parent)])]
    s.wellKeyed = true ∧
      SupportedThroughout (form s) ∧ (form s = s ↔ SupportedThroughout s) := by
  intro parent count s
  have hs : s.wellKeyed = true := by decide
  exact ⟨hs, form_normal hs⟩

end ToolSpec.Strict
