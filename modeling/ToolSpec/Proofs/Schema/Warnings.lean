import ToolSpec.Proofs.Schema.Subschema

/-!
# What strict tool calling rejects

The entries of a schema object that the strict form removes, and the warnings about them. The
warnings of a schema are those about the objects at its schema positions, each with the place of
its object.
-/

set_option autoImplicit false

namespace ToolSpec.Strict

def Rejected (key : String) (v : Json) : Prop :=
  key ∈ droppedKeywords ∨
    key = "format" ∧ (∀ name ∈ keptFormats, v ≠ .str name) ∨
    key = "minItems" ∧ v ≠ .int 0 ∧ v ≠ .int 1 ∨
    key = "$ref" ∧ ∃ target, v = .str target ∧
      (target.startsWith "http://" ∨ target.startsWith "https://")

theorem rejected_format {v : Json} : Rejected "format" v ↔ isKeptFormat v = false := by
  have hkept : isKeptFormat v = true ↔ ∃ name ∈ keptFormats, v = .str name := by
    cases v <;> simp [isKeptFormat]
  rw [← Bool.not_eq_true, hkept]
  simp [Rejected, droppedKeywords]

theorem rejected_min_items {v : Json} : Rejected "minItems" v ↔ isKeptMinItems v = false := by
  have hkept : isKeptMinItems v = true ↔ v = .int 0 ∨ v = .int 1 := by
    unfold isKeptMinItems
    split <;> simp_all [Json.int]
  rw [← Bool.not_eq_true, hkept]
  simp [Rejected, droppedKeywords]

theorem rejected_ref {v : Json} : Rejected "$ref" v ↔ isRemote v = true := by
  cases v <;> simp [Rejected, droppedKeywords, isRemote]

theorem rejected_keyword {key : String} (h : key ∉ ["format", "minItems", "$ref"]) {v : Json} :
    Rejected key v ↔ key ∈ droppedKeywords := by
  simp only [List.mem_cons, List.not_mem_nil, or_false, not_or] at h
  simp [Rejected, h]

theorem kept_of_rejected {key : String} (hkey : key ∉ droppedKeywords) {v : Json}
    (h : Rejected key v) : kept key (some v) = none := by
  rcases id h with hdropped | ⟨rfl, -⟩ | ⟨rfl, -⟩ | ⟨rfl, -⟩
  · exact absurd hdropped hkey
  · simp [kept, Option.filter, rejected_format.mp h]
  · simp [kept, Option.filter, rejected_min_items.mp h]
  · simp [kept, Option.filter, rejected_ref.mp h]

theorem kept_of_not_rejected {key : String} (hkey : key ≠ "allOf") {v : Json}
    (h : ¬ Rejected key v) : kept key (some v) = some v := by
  by_cases hspecial : key ∈ ["format", "minItems", "$ref", "allOf"]
  · simp only [List.mem_cons, List.not_mem_nil, or_false] at hspecial
    rcases hspecial with rfl | rfl | rfl | rfl
    · rw [rejected_format] at h
      simp [kept, Option.filter, h]
    · rw [rejected_min_items] at h
      simp [kept, Option.filter, h]
    · rw [rejected_ref] at h
      simp [kept, Option.filter, h]
    · exact absurd rfl hkey
  · exact kept_of_not_mem hspecial (some v)

theorem not_rejected_of_kept {key : String} (hkey : key ∉ droppedKeywords) {o : Option Json}
    {v : Json} (h : kept key o = some v) : ¬ Rejected key v := by
  by_cases hall : key = "allOf"
  · rwa [hall, rejected_keyword (by decide), ← hall]
  · cases o with
    | none =>
      rw [kept_none] at h
      cases h
    | some u =>
      by_cases hrejected : Rejected key u
      · rw [kept_of_rejected hkey hrejected] at h
        cases h
      · rw [kept_of_not_rejected hall hrejected] at h
        rwa [← Option.some.inj h]

/-- The value at a place that leads from one schema position to the next. -/
inductive At : Json → Place → Json → Prop
  | here (v : Json) : At v [] v
  | item {items : List Json} {i : Nat} {v w : Json} {p : Place} : items[i]? = some v → At v p w →
      At (.arr items) (toString i::p) w
  | named {fs values : Fields Json} {key name : String} {v w : Json} {p : Place} :
      key ∈ mapKeys → fs.lookup key = some (.obj values) → values.lookup name = some v →
      At v p w → At (.obj fs) (key::name::p) w
  | under {fs : Fields Json} {key : String} {v w : Json} {p : Place} : key ∈ schemaKeys →
      fs.lookup key = some v → At v p w → At (.obj fs) (key::p) w

theorem within_iff_at {s w : Json} : Within schemaKeys s w ↔ ∃ p, At s p w := by
  constructor
  · intro h
    induction h with
    | here v => exact ⟨[], .here v⟩
    | item hmem _ ih =>
      obtain ⟨p, hp⟩ := ih
      obtain ⟨i, hi⟩ := List.mem_iff_getElem?.mp hmem
      exact ⟨_, .item hi hp⟩
    | named hkey hvalues hname _ ih =>
      obtain ⟨p, hp⟩ := ih
      exact ⟨_, .named hkey hvalues hname hp⟩
    | under hkey hv _ ih =>
      obtain ⟨p, hp⟩ := ih
      exact ⟨_, .under hkey hv hp⟩
  · rintro ⟨p, h⟩
    induction h with
    | here v => exact .here v
    | item hi _ ih => exact .item (List.mem_iff_getElem?.mpr ⟨_, hi⟩) ih
    | named hkey hvalues hname _ ih => exact .named hkey hvalues hname ih
    | under hkey hv _ ih => exact .under hkey hv ih

/-- What the strict form says about one object that it finds at a place. -/
inductive Reported (place : Place) (fs : Fields Json) : Warning → Prop
  | keyword {key : String} {v : Json} : key ∈ droppedKeywords → fs.lookup key = some v →
      Reported place fs (.keywordDropped place key)
  | format {v : Json} : fs.lookup "format" = some v → Rejected "format" v →
      Reported place fs (.formatDropped place v)
  | minItems {v : Json} : fs.lookup "minItems" = some v → Rejected "minItems" v →
      Reported place fs (.minItemsDropped place v)
  | remote {v : Json} : fs.lookup "$ref" = some v → Rejected "$ref" v →
      Reported place fs (.remoteRefDropped place v)
  | parts {parts : List Json} : fs.lookup "allOf" = some (.arr parts) →
      parts.countP hasLocalRef ≠ 0 →
      Reported place fs (.allOfRefsDropped place (parts.countP hasLocalRef))

variable {fs : Fields Json} {place : Place} {w : Warning}

theorem dropped_eq_some {key : String} {keep : Json → Bool} {v : Json} :
    dropped? key keep fs = some v ↔ fs.lookup key = some v ∧ keep v = false := by
  simp [dropped?, Option.filter_eq_some_iff]

theorem mem_own_warnings :
    w ∈ ownWarnings place fs ↔
      (∃ key ∈ droppedKeywords, key ∈ Fields.keys fs ∧ w = .keywordDropped place key) ∨
      (∃ v, fs.lookup "format" = some v ∧ Rejected "format" v ∧ w = .formatDropped place v) ∨
      ∃ v, fs.lookup "minItems" = some v ∧ Rejected "minItems" v ∧
        w = .minItemsDropped place v := by
  simp only [ownWarnings, List.mem_append, List.mem_map, List.mem_filter, Option.mem_toList,
    dropped_eq_some, rejected_format, rejected_min_items, Fields.has_iff, and_assoc, or_assoc,
    eq_comm (a := w)]

theorem refs_form {parts : List Json} (h : (Json.arr parts).wellKeyed = true) :
    ((parts.map form).filter isReference).length = parts.countP hasLocalRef := by
  rw [← List.countP_eq_length_filter, List.countP_map]
  apply List.countP_congr
  intro v hv
  rw [Function.comp_apply, is_reference_form ((Json.well_keyed_arr parts).mp h v hv)]

theorem mem_ref_warnings (hs : (Json.obj fs).wellKeyed = true) :
    w ∈ refWarnings place (formFields fs) ↔
      (∃ v, fs.lookup "$ref" = some v ∧ Rejected "$ref" v ∧ w = .remoteRefDropped place v) ∨
      ∃ parts, fs.lookup "allOf" = some (.arr parts) ∧ parts.countP hasLocalRef ≠ 0 ∧
        w = .allOfRefsDropped place (parts.countP hasLocalRef) := by
  have href : (formFields fs).lookup "$ref" = fs.lookup "$ref" := by
    rw [lookup_form_fields, form_field_of_not_mem (by decide), Option.map_id, id]
  have hallOf : (formFields fs).lookup "allOf" = (fs.lookup "allOf").map form := by
    rw [lookup_form_fields, form_field_of_mem_schema_keys (by decide)]
  rw [refWarnings, List.mem_append, hallOf]
  apply or_congr
  · simp only [List.mem_map, Option.mem_toList, dropped_eq_some, href, rejected_ref,
      Bool.not_eq_false', and_assoc, eq_comm (a := w)]
  · cases hv : fs.lookup "allOf" with
    | none => simp
    | some v =>
      cases v with
      | arr parts =>
        rw [Option.map_some, form_arr]
        simp only [refs_form (Json.well_keyed_of_lookup hs hv)]
        split <;> simp_all
      | _ => simp [form]

theorem reported_iff (hs : (Json.obj fs).wellKeyed = true) :
    Reported place fs w ↔
      w ∈ ownWarnings place fs ∨ w ∈ refWarnings place (formFields fs) := by
  rw [mem_own_warnings, mem_ref_warnings hs]
  constructor
  · rintro (⟨hkey, hv⟩ | ⟨hv, h⟩ | ⟨hv, h⟩ | ⟨hv, h⟩ | ⟨hparts, h⟩)
    · exact .inl (.inl ⟨_, hkey, Fields.mem_keys_iff.mpr ⟨_, hv⟩, rfl⟩)
    · exact .inl (.inr (.inl ⟨_, hv, h, rfl⟩))
    · exact .inl (.inr (.inr ⟨_, hv, h, rfl⟩))
    · exact .inr (.inl ⟨_, hv, h, rfl⟩)
    · exact .inr (.inr ⟨_, hparts, h, rfl⟩)
  · rintro ((⟨key, hkey, hmem, rfl⟩ | ⟨v, hv, h, rfl⟩ | ⟨v, hv, h, rfl⟩) | ⟨v, hv, h, rfl⟩ |
      ⟨parts, hparts, h, rfl⟩)
    · obtain ⟨v, hv⟩ := Fields.mem_keys_iff.mp hmem
      exact .keyword hkey hv
    · exact .format hv h
    · exact .minItems hv h
    · exact .remote hv h
    · exact .parts hparts h

theorem key_warnings_eq (key : String) :
    keyWarnings place key fs = (fs.lookup key).elim [] (warnings (place ++ [key])) := by
  induction fs with
  | nil => rfl
  | cons e rest ih =>
    obtain ⟨k, v⟩ := e
    rw [keyWarnings, ih, Fields.lookup_cons_ite]
    by_cases hk : k = key
    · simp [hk]
    · simp [hk, Ne.symm hk]

theorem named_warnings_eq (key : String) :
    namedWarnings place key fs = (fs.lookup key).elim [] (holderWarnings (place ++ [key])) := by
  induction fs with
  | nil => rfl
  | cons e rest ih =>
    obtain ⟨k, v⟩ := e
    rw [namedWarnings, ih, Fields.lookup_cons_ite]
    by_cases hk : k = key
    · simp [hk]
    · simp [hk, Ne.symm hk]

theorem value_warnings_eq_flat_map (values : Fields Json) :
    valueWarnings place values = values.flatMap fun (name, v) => warnings (place ++ [name]) v := by
  induction values with
  | nil => rfl
  | cons e rest ih => rw [valueWarnings, ih, List.flatMap_cons]

theorem item_warnings_eq_flat_map (items : List Json) (start : Nat) :
    itemWarnings place start items =
      (items.zipIdx start).flatMap fun (v, i) => warnings (place ++ [toString i]) v := by
  induction items generalizing start with
  | nil => rfl
  | cons v rest ih => rw [itemWarnings, ih, List.zipIdx_cons, List.flatMap_cons]

theorem mem_value_warnings {values : Fields Json} :
    w ∈ valueWarnings place values ↔
      ∃ name v, (name, v) ∈ values ∧ w ∈ warnings (place ++ [name]) v := by
  simp [value_warnings_eq_flat_map]

theorem mem_item_warnings {items : List Json} :
    w ∈ itemWarnings place 0 items ↔
      ∃ (i : Nat) (v : Json), items[i]? = some v ∧ w ∈ warnings (place ++ [toString i]) v := by
  simp only [item_warnings_eq_flat_map, List.mem_flatMap, Prod.exists, List.mem_zipIdx_iff_getElem?]
  exact exists_comm

theorem mem_named_warnings (hs : (Json.obj fs).wellKeyed = true) (key : String) :
    w ∈ namedWarnings place key fs ↔ ∃ values, fs.lookup key = some (.obj values) ∧
      ∃ name v, values.lookup name = some v ∧ w ∈ warnings (place ++ [key, name]) v := by
  rw [named_warnings_eq]
  cases hv : fs.lookup key with
  | none => simp
  | some v =>
    cases v with
    | obj values =>
      have hn := ((Json.well_keyed_obj values).mp (Json.well_keyed_of_lookup hs hv)).1
      simp [holderWarnings, mem_value_warnings, Fields.lookup_eq_some hn]
    | _ => simp [holderWarnings]

theorem mem_key_warnings (key : String) :
    w ∈ keyWarnings place key fs ↔
      ∃ v, fs.lookup key = some v ∧ w ∈ warnings (place ++ [key]) v := by
  rw [key_warnings_eq]
  cases fs.lookup key <;> simp

theorem mem_warnings_obj (hs : (Json.obj fs).wellKeyed = true) :
    w ∈ warnings place (.obj fs) ↔ Reported place fs w ∨
      (∃ key ∈ mapKeys, ∃ values, fs.lookup key = some (.obj values) ∧
        ∃ name v, values.lookup name = some v ∧ w ∈ warnings (place ++ [key, name]) v) ∨
      ∃ key ∈ schemaKeys, ∃ v, fs.lookup key = some v ∧ w ∈ warnings (place ++ [key]) v := by
  simp only [← mem_named_warnings hs, ← mem_key_warnings, reported_iff hs]
  simp only [warnings, List.mem_append, mapKeys, schemaKeys, List.mem_cons, List.not_mem_nil,
    or_false, exists_eq_or_imp, exists_eq_left]
  tauto

def ReportedWithin (place : Place) (s : Json) (w : Warning) : Prop :=
  ∃ p fs, At s p (.obj fs) ∧ Reported (place ++ p) fs w

theorem not_reported_within {v : Json} (hitems : v.items? = none) (hfields : v.fields? = none) :
    ¬ ReportedWithin place v w := by
  rintro ⟨p, fs, hp, -⟩
  cases hp with
  | here => simp [Json.fields?] at hfields
  | item => simp [Json.items?] at hitems
  | named => simp [Json.fields?] at hfields
  | under => simp [Json.fields?] at hfields

theorem reported_within_arr {items : List Json} :
    ReportedWithin place (.arr items) w ↔
      ∃ (i : Nat) (v : Json), items[i]? = some v ∧
        ReportedWithin (place ++ [toString i]) v w := by
  constructor
  · rintro ⟨p, fs, hp, hr⟩
    cases hp with
    | item hi hp => exact ⟨_, _, hi, _, fs, hp, by simpa using hr⟩
  · rintro ⟨i, v, hi, p, fs, hp, hr⟩
    exact ⟨_, fs, .item hi hp, by simpa using hr⟩

theorem reported_within_obj :
    ReportedWithin place (.obj fs) w ↔ Reported place fs w ∨
      (∃ key ∈ mapKeys, ∃ values, fs.lookup key = some (.obj values) ∧
        ∃ name v, values.lookup name = some v ∧ ReportedWithin (place ++ [key, name]) v w) ∨
      ∃ key ∈ schemaKeys, ∃ v, fs.lookup key = some v ∧
        ReportedWithin (place ++ [key]) v w := by
  constructor
  · rintro ⟨p, gs, hp, hr⟩
    cases hp with
    | here => exact .inl (by simpa using hr)
    | named hkey hvalues hv hp =>
      exact .inr (.inl ⟨_, hkey, _, hvalues, _, _, hv, _, gs, hp, by simpa using hr⟩)
    | under hkey hv hp => exact .inr (.inr ⟨_, hkey, _, hv, _, gs, hp, by simpa using hr⟩)
  · rintro (hr | ⟨key, hkey, values, hvalues, name, v, hv, p, gs, hp, hr⟩ |
      ⟨key, hkey, v, hv, p, gs, hp, hr⟩)
    · exact ⟨[], fs, .here _, by simpa using hr⟩
    · exact ⟨_, gs, .named hkey hvalues hv hp, by simpa using hr⟩
    · exact ⟨_, gs, .under hkey hv hp, by simpa using hr⟩

theorem warnings_leaf {v : Json} (hitems : v.items? = none) (hfields : v.fields? = none) :
    warnings place v = [] := by
  cases v with
  | arr items => simp [Json.items?] at hitems
  | obj fs => simp [Json.fields?] at hfields
  | _ => rfl

theorem mem_warnings {s : Json} (hs : s.wellKeyed = true) (place : Place) :
    w ∈ warnings place s ↔ ReportedWithin place s w := by
  induction s using induct generalizing place with
  | leaf v hitems hfields =>
    simp [warnings_leaf hitems hfields, not_reported_within hitems hfields]
  | arr items ih =>
    rw [warnings, mem_item_warnings, reported_within_arr]
    refine exists_congr fun i => exists_congr fun v => and_congr_right fun hi => ?_
    have hv := List.mem_of_getElem? hi
    exact ih v hv ((Json.well_keyed_arr items).mp hs v hv) _
  | obj fs hnamed hunder =>
    rw [mem_warnings_obj hs, reported_within_obj]
    refine or_congr .rfl (or_congr ?_ ?_)
    · refine exists_congr fun key => and_congr_right fun hkey => exists_congr fun values =>
        and_congr_right fun hvalues => exists_congr fun name => exists_congr fun v =>
        and_congr_right fun hv => ?_
      have hkeyed := Json.well_keyed_of_lookup (Json.well_keyed_of_lookup hs hvalues) hv
      exact hnamed key hkey values (Fields.mem_of_lookup hvalues) name v (Fields.mem_of_lookup hv)
        hkeyed _
    · refine exists_congr fun key => and_congr_right fun hkey => exists_congr fun v =>
        and_congr_right fun hv => ?_
      exact hunder key hkey v (Fields.mem_of_lookup hv) (Json.well_keyed_of_lookup hs hv) _

end ToolSpec.Strict
