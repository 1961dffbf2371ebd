import ToolSpec.Proofs.Schema.StrictForm

/-!
# Schemas inside schemas

The positions at which a schema may sit inside another one, and which of them the strict form
keeps. The objects of a strict form are the tidied objects at the kept positions, and whatever
stood under keys that the strict form does not look at.
-/

set_option autoImplicit false

namespace ToolSpec

/-- A value at a schema position: an item of a list, a named value under one of the keys for such,
or under one of the given keys as far as `pick` goes. -/
inductive Reaches (keys : List String) (pick : String → Json → Json) : Json → Json → Prop
  | here (v : Json) : Reaches keys pick v v
  | item {items : List Json} {v w : Json} : v ∈ items → Reaches keys pick v w →
      Reaches keys pick (.arr items) w
  | named {fs values : Fields Json} {key name : String} {v w : Json} : key ∈ Strict.mapKeys →
      fs.lookup key = some (.obj values) → values.lookup name = some v →
      Reaches keys pick v w → Reaches keys pick (.obj fs) w
  | under {fs : Fields Json} {key : String} {v w : Json} : key ∈ keys →
      fs.lookup key = some v → Reaches keys pick (pick key v) w → Reaches keys pick (.obj fs) w

abbrev Within (keys : List String) : Json → Json → Prop := Reaches keys fun _ v => v

namespace Reaches

variable {keys : List String} {pick : String → Json → Json} {u v w : Json}

theorem trans (h : Reaches keys pick u v) (h' : Reaches keys pick v w) :
    Reaches keys pick u w := by
  induction h with
  | here => exact h'
  | item hmem _ ih => exact .item hmem (ih h')
  | named hkey hvalues hname _ ih => exact .named hkey hvalues hname (ih h')
  | under hkey hv _ ih => exact .under hkey hv (ih h')

theorem property {fs ps : Fields Json} {name : String}
    (hproperties : fs.lookup "properties" = some (.obj ps)) (hname : ps.lookup name = some v) :
    Reaches keys pick (.obj fs) v :=
  .named (by decide) hproperties hname (.here v)

theorem arr_iff {items : List Json} {fs : Fields Json} :
    Reaches keys pick (.arr items) (.obj fs) ↔ ∃ v ∈ items, Reaches keys pick v (.obj fs) := by
  constructor
  · intro h
    cases h with
    | item hmem hv => exact ⟨_, hmem, hv⟩
  · rintro ⟨v, hmem, hv⟩
    exact .item hmem hv

theorem obj_iff {fs : Fields Json} :
    Reaches keys pick (.obj fs) w ↔ w = .obj fs ∨
      (∃ key ∈ Strict.mapKeys, ∃ values, fs.lookup key = some (.obj values) ∧
        ∃ name v, values.lookup name = some v ∧ Reaches keys pick v w) ∨
      ∃ key ∈ keys, ∃ v, fs.lookup key = some v ∧ Reaches keys pick (pick key v) w := by
  constructor
  · intro h
    cases h with
    | here => exact .inl rfl
    | named hkey hvalues hname hv => exact .inr (.inl ⟨_, hkey, _, hvalues, _, _, hname, hv⟩)
    | under hkey hv hw => exact .inr (.inr ⟨_, hkey, _, hv, hw⟩)
  · rintro (rfl | ⟨key, hkey, values, hvalues, name, v, hname, hv⟩ | ⟨key, hkey, v, hv, hw⟩)
    · exact .here _
    · exact .named hkey hvalues hname hv
    · exact .under hkey hv hw

end Reaches

namespace Strict

theorem induct {motive : Json → Prop}
    (leaf : ∀ v : Json, v.items? = none → v.fields? = none → motive v)
    (arr : ∀ items, (∀ v ∈ items, motive v) → motive (.arr items))
    (obj : ∀ fs : Fields Json,
      (∀ key ∈ mapKeys, ∀ values, (key, .obj values) ∈ fs →
        ∀ name v, (name, v) ∈ values → motive v) →
      (∀ key ∈ schemaKeys, ∀ v, (key, v) ∈ fs → motive v) → motive (.obj fs)) :
    ∀ v, motive v := by
  -- An object that only holds schemas by name is none itself, so its entries are carried along.
  have hboth : ∀ v, motive v ∧
      ∀ values : Fields Json, v = .obj values → ∀ name w, (name, w) ∈ values → motive w := by
    intro v
    induction v using Json.induct with
    | arr items ih => exact ⟨arr items fun v hv => (ih v hv).1, by simp⟩
    | obj fs ih =>
      constructor
      · apply obj fs
        · intro key _ values hvalues name w hw
          exact (ih key (.obj values) hvalues).2 values rfl name w hw
        · intro key _ v hv
          exact (ih key v hv).1
      · rintro values hvalues name w hw
        obtain rfl := Json.obj.inj hvalues
        exact (ih name w hw).1
    | _ => exact ⟨leaf _ rfl rfl, by simp⟩
  exact fun v => (hboth v).1

def hasLocalRef (v : Json) : Bool := (v.get? "$ref").any (!isRemote ·)

def survivors : String → Json → Json
  | "allOf", .arr parts => .arr (parts.filter (!hasLocalRef ·))
  | _, v => v

abbrev Kept : Json → Json → Prop := Reaches schemaKeys survivors

theorem survivors_of_ne {key : String} (h : key ≠ "allOf") (v : Json) : survivors key v = v := by
  unfold survivors
  split
  · contradiction
  · rfl

theorem survivors_well_keyed {v : Json} (h : v.wellKeyed = true) (key : String) :
    (survivors key v).wellKeyed = true := by
  unfold survivors
  split
  · rw [Json.well_keyed_arr] at h ⊢
    exact fun v hv => h v (List.mem_of_mem_filter hv)
  · exact h

theorem form_leaf {v : Json} (hitems : v.items? = none) (hfields : v.fields? = none) :
    form v = v := by
  cases v with
  | arr items => simp [Json.items?] at hitems
  | obj fs => simp [Json.fields?] at hfields
  | _ => rfl

theorem form_arr (items : List Json) : form (.arr items) = .arr (items.map form) := by
  rw [form, form_items_eq_map]

theorem form_eq_obj {s : Json} {gs : Fields Json} (h : form s = .obj gs) :
    ∃ fs, s = .obj fs ∧ tidy (formFields fs) = gs := by
  cases s <;> simp only [form, reduceCtorEq, Json.obj.injEq] at h
  exact ⟨_, rfl, h⟩

theorem form_eq_arr {s : Json} {items : List Json} (h : form s = .arr items) :
    ∃ vs, s = .arr vs ∧ items = vs.map form := by
  cases s <;> simp only [form, reduceCtorEq, Json.arr.injEq, form_items_eq_map] at h
  exact ⟨_, rfl, h.symm⟩

theorem form_well_keyed {s : Json} (hs : s.wellKeyed = true) : (form s).wellKeyed = true := by
  induction s using induct with
  | leaf v hitems hfields => rwa [form_leaf hitems hfields]
  | arr items ih =>
    rw [Json.well_keyed_arr] at hs
    rw [form_arr, Json.well_keyed_arr]
    intro w hw
    obtain ⟨v, hv, rfl⟩ := List.mem_map.mp hw
    exact ih v hv (hs v hv)
  | obj fs hnamed hunder =>
    obtain ⟨hn, hvalues⟩ := (Json.well_keyed_obj fs).mp hs
    rw [form]
    apply tidy_well_keyed
    rw [Json.well_keyed_obj, keys_form_fields]
    refine ⟨hn, fun key w hw => ?_⟩
    rw [form_fields_eq_map] at hw
    obtain ⟨⟨key, v⟩, hv, he⟩ := List.mem_map.mp hw
    obtain ⟨rfl, rfl⟩ := Prod.mk.inj he
    have hkeyed := hvalues key v hv
    by_cases hmap : key ∈ mapKeys
    · rw [form_field_of_mem_map_keys hmap]
      apply form_named_well_keyed hkeyed
      rintro values rfl name u hu
      exact hnamed key hmap values hv name u hu
        (((Json.well_keyed_obj values).mp hkeyed).2 name u hu)
    · by_cases hschema : key ∈ schemaKeys
      · rw [form_field_of_mem_schema_keys hschema]
        exact hunder key hschema v hv hkeyed
      · rwa [form_field_of_not_mem (by simp [hmap, hschema])]

variable {fs : Fields Json}

theorem lookup_named (hn : (Fields.keys fs).Nodup) {key : String} (h : key ∈ mapKeys) :
    (tidy (formFields fs)).lookup key = (fs.lookup key).map formNamed := by
  rw [lookup_tidy (by rwa [keys_form_fields]), lookup_form_fields, form_field_of_mem_map_keys h]
  simp only [mapKeys, List.mem_cons, List.not_mem_nil, or_false] at h
  rcases h with rfl | rfl | rfl <;> simp [droppedKeywords, kept]

theorem form_named_eq_obj {v : Json} {gs : Fields Json} (h : formNamed v = .obj gs) :
    ∃ values, v = .obj values ∧ formValues values = gs := by
  cases v <;> simp only [formNamed, reduceCtorEq, Json.obj.injEq] at h
  exact ⟨_, rfl, h⟩

def isUntouched (key : String) : Bool :=
  key ∉ mapKeys ++ schemaKeys ++ droppedKeywords ++
    ["additionalProperties", "format", "minItems", "$ref"]

theorem lookup_untouched (hn : (Fields.keys fs).Nodup) {key : String}
    (h : isUntouched key = true) : (tidy (formFields fs)).lookup key = fs.lookup key := by
  simp only [isUntouched, decide_eq_true_eq, List.mem_append, not_or] at h
  obtain ⟨⟨⟨hmap, hschema⟩, hdropped⟩, hrest⟩ := h
  have hfield := form_field_of_not_mem (List.mem_append.not.mpr (not_or.mpr ⟨hmap, hschema⟩))
  rw [lookup_tidy (by rwa [keys_form_fields]), lookup_form_fields, hfield, Option.map_id, id,
    if_neg hdropped]
  simp only [schemaKeys, List.mem_cons, List.not_mem_nil, or_false, not_or] at hschema hrest
  rw [if_neg fun hclosed => hrest.1 hclosed.2, kept_of_not_mem]
  simp [hrest, hschema]

theorem is_reference_form {v : Json} (h : v.wellKeyed = true) :
    isReference (form v) = hasLocalRef v := by
  cases v with
  | obj fs =>
    obtain ⟨hn, -⟩ := (Json.well_keyed_obj fs).mp h
    have hlookup : (tidy (formFields fs)).lookup "$ref" =
        (fs.lookup "$ref").filter (!isRemote ·) := by
      rw [lookup_tidy (by rwa [keys_form_fields]), lookup_form_fields,
        form_field_of_not_mem (by decide), Option.map_id, id]
      simp [droppedKeywords, kept]
    rw [form, isReference, hasLocalRef, Json.get?, Json.get?, Json.fields?, Json.fields?,
      Option.bind_some, Option.bind_some, hlookup]
    cases fs.lookup "$ref" with
    | none => rfl
    | some target => cases hremote : isRemote target <;> simp [Option.filter, hremote]
  | _ => rfl

/-- A conjunction that holds references and nothing else. -/
def Emptied (key : String) (v : Json) : Prop := survivors key v = .arr [] ∧ v ≠ .arr []

theorem unreferenced_form {v : Json} (h : v.wellKeyed = true) :
    (Emptied "allOf" v → unreferenced (form v) = none) ∧
      (¬ Emptied "allOf" v → unreferenced (form v) = some (form (survivors "allOf" v))) := by
  cases v with
  | arr parts =>
    have hparts : (parts.map form).filter (!isReference ·) =
        (parts.filter (!hasLocalRef ·)).map form := by
      rw [List.filter_map]
      congr 1
      apply List.filter_congr
      intro p hp
      simp [is_reference_form ((Json.well_keyed_arr parts).mp h p hp)]
    have hsurvivors : survivors "allOf" (.arr parts) = .arr (parts.filter (!hasLocalRef ·)) := rfl
    rw [Emptied, hsurvivors, form_arr, form_arr, ← hparts]
    cases parts with
    | nil => exact ⟨fun hempty => absurd rfl hempty.2, fun _ => rfl⟩
    | cons p rest =>
      rw [List.map_cons, unreferenced]
      · split
        · rename_i hnone
          rw [← List.map_cons, hparts, List.map_eq_nil_iff] at hnone
          exact ⟨fun _ => rfl, fun hleft => absurd ⟨by rw [hnone], by simp⟩ hleft⟩
        · rename_i hsome
          rw [← List.map_cons, hparts] at hsome
          exact ⟨fun hempty => absurd (by rw [Json.arr.inj hempty.1]; rfl) hsome, fun _ => rfl⟩
      · simp
  | _ => exact ⟨fun hempty => absurd hempty.1 hempty.2, fun _ => rfl⟩

theorem lookup_under (hn : (Fields.keys fs).Nodup) {key : String} (h : key ∈ schemaKeys) :
    (tidy (formFields fs)).lookup key = kept key ((fs.lookup key).map form) := by
  rw [lookup_tidy (by rwa [keys_form_fields]), lookup_form_fields, form_field_of_mem_schema_keys h]
  simp only [schemaKeys, List.mem_cons, List.not_mem_nil, or_false] at h
  rcases h with rfl | rfl | rfl | rfl <;> simp [droppedKeywords]

theorem kept_form {key : String} (h : key ∈ schemaKeys) {v : Json} (hv : v.wellKeyed = true) :
    (Emptied key v → kept key (some (form v)) = none) ∧
      (¬ Emptied key v → kept key (some (form v)) = some (form (survivors key v))) := by
  by_cases hall : key = "allOf"
  · subst hall
    exact unreferenced_form hv
  · rw [Emptied, survivors_of_ne hall, kept_of_not_mem]
    · exact ⟨fun hempty => absurd hempty.1 hempty.2, fun _ => rfl⟩
    · simp only [schemaKeys, List.mem_cons, List.not_mem_nil, or_false] at h
      rcases h with rfl | rfl | rfl | rfl <;> simp_all

theorem form_of_lookup (hs : (Json.obj fs).wellKeyed = true) {key : String} {w : Json}
    (hkey : key ∈ schemaKeys) (hw : (tidy (formFields fs)).lookup key = some w) :
    ∃ v, fs.lookup key = some v ∧ form (survivors key v) = w := by
  rw [lookup_under ((Json.well_keyed_obj fs).mp hs).1 hkey] at hw
  cases hv : fs.lookup key with
  | none =>
    rw [hv, Option.map_none, kept_none] at hw
    contradiction
  | some v =>
    refine ⟨v, rfl, ?_⟩
    rw [hv, Option.map_some] at hw
    obtain ⟨hgone, hleft⟩ := kept_form hkey (Json.well_keyed_of_lookup hs hv)
    by_cases hempty : Emptied key v
    · rw [hgone hempty] at hw
      contradiction
    · exact Option.some.inj ((hleft hempty).symm.trans hw)

theorem kept_well_keyed {s w : Json} (h : Kept s w) (hs : s.wellKeyed = true) :
    w.wellKeyed = true := by
  induction h with
  | here => exact hs
  | item hmem _ ih => exact ih ((Json.well_keyed_arr _).mp hs _ hmem)
  | named _ hvalues hname _ ih =>
    exact ih (Json.well_keyed_of_lookup (Json.well_keyed_of_lookup hs hvalues) hname)
  | under _ hv _ ih => exact ih (survivors_well_keyed (Json.well_keyed_of_lookup hs hv) _)

theorem nodup_of_kept {s : Json} (h : Kept s (.obj fs)) (hs : s.wellKeyed = true) :
    (Fields.keys fs).Nodup :=
  ((Json.well_keyed_obj fs).mp (kept_well_keyed h hs)).1

theorem within_of_kept {extra : List String} {s w : Json} (h : Kept s w) {fs : Fields Json}
    (hw : w = .obj fs) (hs : s.wellKeyed = true) :
    Within (extra ++ schemaKeys) (form s) (form w) := by
  induction h with
  | here v => exact .here _
  | item hmem _ ih =>
    have hin := ih hw ((Json.well_keyed_arr _).mp hs _ hmem)
    rw [form_arr]
    exact .item (List.mem_map_of_mem hmem) hin
  | named hkey hvalues hname _ ih =>
    obtain ⟨hn, -⟩ := (Json.well_keyed_obj _).mp hs
    have hin := ih hw (Json.well_keyed_of_lookup (Json.well_keyed_of_lookup hs hvalues) hname)
    have hlookup := lookup_named hn hkey
    rw [hvalues, Option.map_some, formNamed] at hlookup
    rw [form]
    exact .named hkey hlookup (by rw [lookup_form_values, hname, Option.map_some]) hin
  | @under _ key v _ hkey hv _ ih =>
    have hvalue := Json.well_keyed_of_lookup hs hv
    have hin := ih hw (survivors_well_keyed hvalue key)
    have hlookup := lookup_under ((Json.well_keyed_obj _).mp hs).1 hkey
    rw [hv, Option.map_some] at hlookup
    rw [form]
    by_cases hempty : Emptied key v
    · -- The key is gone, but no object was left under it.
      subst hw
      rw [hempty.1, form_arr, form] at hin
      obtain ⟨v, hmem, -⟩ := Reaches.arr_iff.mp hin
      simp at hmem
    · exact .under (List.mem_append_right _ hkey)
        (hlookup.trans ((kept_form hkey hvalue).2 hempty)) hin

theorem kept_of_within {extra : List String} (hextra : ∀ key ∈ extra, isUntouched key = true)
    {s v w : Json} (h : Within (extra ++ schemaKeys) v w) (hv : form s = v) {gs : Fields Json}
    (hw : w = .obj gs) (hs : s.wellKeyed = true) :
    ∃ fs, Kept s (.obj fs) ∧ (gs = tidy (formFields fs) ∨
      ∃ key ∈ extra, ∃ c, fs.lookup key = some c ∧ Within (extra ++ schemaKeys) c w) := by
  -- The path through the strict form is followed in the schema it was made from.
  induction h generalizing s with
  | here v =>
    rw [hw] at hv
    obtain ⟨fs, rfl, hgs⟩ := form_eq_obj hv
    exact ⟨fs, .here _, .inl hgs.symm⟩
  | item hmem _ ih =>
    obtain ⟨vs, rfl, rfl⟩ := form_eq_arr hv
    obtain ⟨u, hu, rfl⟩ := List.mem_map.mp hmem
    obtain ⟨fs, hkept, hgs⟩ := ih rfl hw ((Json.well_keyed_arr _).mp hs u hu)
    exact ⟨fs, .item hu hkept, hgs⟩
  | named hkey hvalues hname _ ih =>
    obtain ⟨fs, rfl, rfl⟩ := form_eq_obj hv
    obtain ⟨hn, -⟩ := (Json.well_keyed_obj fs).mp hs
    rw [lookup_named hn hkey, Option.map_eq_some_iff] at hvalues
    obtain ⟨c, hc, hformed⟩ := hvalues
    obtain ⟨values, rfl, rfl⟩ := form_named_eq_obj hformed
    rw [lookup_form_values, Option.map_eq_some_iff] at hname
    obtain ⟨u, hu, rfl⟩ := hname
    have hkeyed := Json.well_keyed_of_lookup (Json.well_keyed_of_lookup hs hc) hu
    obtain ⟨gs, hkept, hgs⟩ := ih rfl hw hkeyed
    exact ⟨gs, .named hkey hc hu hkept, hgs⟩
  | @under _ key _ _ hkey hlookup hin ih =>
    obtain ⟨fs, rfl, rfl⟩ := form_eq_obj hv
    obtain ⟨hn, -⟩ := (Json.well_keyed_obj fs).mp hs
    rcases List.mem_append.mp hkey with hkey | hkey
    · rw [lookup_untouched hn (hextra _ hkey)] at hlookup
      exact ⟨fs, .here _, .inr ⟨_, hkey, _, hlookup, hin⟩⟩
    · obtain ⟨u, hu, rfl⟩ := form_of_lookup hs hkey hlookup
      have hkeyed := survivors_well_keyed (Json.well_keyed_of_lookup hs hu) key
      obtain ⟨gs, hkept, hgs⟩ := ih rfl hw hkeyed
      exact ⟨gs, .under hkey hu hkept, hgs⟩

/-- The objects of a strict form are the tidied objects at the kept positions, and those that
stand under the extra keys of such objects. -/
theorem within_form (extra : List String) (hextra : ∀ key ∈ extra, isUntouched key = true)
    {s : Json} (hs : s.wellKeyed = true) (gs : Fields Json) :
    Within (extra ++ schemaKeys) (form s) (.obj gs) ↔
      ∃ fs, Kept s (.obj fs) ∧ (gs = tidy (formFields fs) ∨
        ∃ key ∈ extra, ∃ c, fs.lookup key = some c ∧
          Within (extra ++ schemaKeys) c (.obj gs)) := by
  constructor
  · intro h
    exact kept_of_within hextra h rfl rfl hs
  · rintro ⟨fs, hkept, hgs⟩
    have hin : Within (extra ++ schemaKeys) (form s) (form (.obj fs)) :=
      within_of_kept hkept rfl hs
    rw [form] at hin
    rcases hgs with hgs | ⟨key, hkey, c, hc, hwithin⟩
    · rwa [hgs]
    · have hlookup := lookup_untouched (nodup_of_kept hkept hs) (hextra key hkey)
      rw [hc] at hlookup
      exact hin.trans (.under (List.mem_append_left _ hkey) hlookup hwithin)

theorem forall_within_form (extra : List String)
    (hextra : ∀ key ∈ extra, isUntouched key = true) {s : Json} (hs : s.wellKeyed = true)
    (p : Fields Json → Prop) :
    (∀ gs, Within (extra ++ schemaKeys) (form s) (.obj gs) → p gs) ↔
      ∀ fs, Kept s (.obj fs) → p (tidy (formFields fs)) ∧
        ∀ key ∈ extra, ∀ c, fs.lookup key = some c →
          ∀ gs, Within (extra ++ schemaKeys) c (.obj gs) → p gs := by
  constructor
  · intro h fs hkept
    constructor
    · exact h _ ((within_form extra hextra hs _).mpr ⟨fs, hkept, .inl rfl⟩)
    · intro key hkey c hc gs hin
      exact h gs ((within_form extra hextra hs gs).mpr ⟨fs, hkept, .inr ⟨key, hkey, c, hc, hin⟩⟩)
  · intro h gs hin
    obtain ⟨fs, hkept, hgs | ⟨key, hkey, c, hc, hwithin⟩⟩ := (within_form extra hextra hs gs).mp hin
    · rw [hgs]
      exact (h fs hkept).1
    · exact (h fs hkept).2 key hkey c hc gs hwithin

end Strict

end ToolSpec
