import Mathlib.Logic.Relation
import ToolSpec.Proofs.Schema.Consulted
import ToolSpec.Proofs.Schema.Subschema

/-!
# What strict forms go on accepting

Closing an object schema says nothing about a value without objects, and any other change takes
a demand away. Only under `oneOf` does a loosened branch count against a value: with two branches
for it there is one too many. As long as no `oneOf` that is consulted about a value gets a second
branch for it, the strict form accepts the value if the schema does.
-/

set_option autoImplicit false

namespace ToolSpec.Strict

variable (r : Reading)

/-- If one branch alone accepts the value, no other one has a strict form that does. -/
def Exclusive (bs : List Json) (v : Json) : Prop :=
  bs.countP (r.accepts · v) = 1 →
    ∀ b ∈ bs, r.accepts (form b) v = true → r.accepts b v = true

/-- Every `oneOf` that is consulted about the value is exclusive there. -/
def StaysExclusive (s v : Json) : Prop :=
  ∀ fs bs w, Relation.ReflTransGen Consults (s, v) (.obj fs, w) →
    fs.lookup "oneOf" = some (.arr bs) → Exclusive r bs w

variable {r} {s v t w : Json}

theorem StaysExclusive.next (h : StaysExclusive r s v) (hstep : Consults (s, v) (t, w)) :
    StaysExclusive r t w :=
  fun fs bs u hreach => h fs bs u (hreach.head hstep)

theorem stays_exclusive_obj {fs : Fields Json}
    (hone : ∀ bs, fs.lookup "oneOf" = some (.arr bs) → Exclusive r bs v)
    (hunder : ∀ key ∈ schemaKeys, ∀ u, fs.lookup key = some u → ∀ t ∈ u.schemas,
      ∀ w, StaysExclusive r t w) :
    StaysExclusive r (.obj fs) v := by
  intro gs bs w hreach hbs
  rcases hreach.cases_head with heq | ⟨⟨t, u⟩, hstep, hrest⟩
  · obtain ⟨hfs, rfl⟩ := Prod.mk.inj heq
    rw [← Json.obj.inj hfs] at hbs
    exact hone bs hbs
  · obtain ⟨key, hkey, c, hc, ht⟩ := hstep.under
    exact hunder key hkey c hc t ht u gs bs w hrest hbs

theorem get_type_form (hs : s.wellKeyed = true) : (form s).get? "type" = s.get? "type" := by
  cases s with
  | obj fs =>
    have hlookup : (tidy (formFields fs)).lookup "type" = fs.lookup "type" :=
      lookup_untouched ((Json.well_keyed_obj fs).mp hs).1 (by decide)
    simpa [form, Json.get?, Json.fields?] using hlookup
  | _ => rfl

theorem meets_type_of_accepts (hs : s.wellKeyed = true) (h : r.accepts s v = true) :
    (s.get? "type").all (r.meets "type" · v) = true := by
  cases s with
  | obj fs =>
    rw [r.accepts_iff_lookup ((Json.well_keyed_obj fs).mp hs).1] at h
    rw [Json.get?, Json.fields?, Option.bind_some, Option.all_eq_true]
    exact h.1 "type"
  | _ => rfl

theorem exclusive_of_types {bs : List Json} (hbs : ∀ b ∈ bs, b.wellKeyed = true)
    (htypes : ∀ b ∈ bs, ∀ c ∈ bs, (b.get? "type").all (r.meets "type" · v) = true →
      (c.get? "type").all (r.meets "type" · v) = true → b = c) : Exclusive r bs v := by
  intro hone b hb haccepts
  obtain ⟨c, hc, hcaccepts⟩ := List.countP_pos_iff.mp (by omega : 0 < bs.countP (r.accepts · v))
  have hform := meets_type_of_accepts (form_well_keyed (hbs b hb)) haccepts
  rw [get_type_form (hbs b hb)] at hform
  obtain rfl := htypes b hb c hc hform (meets_type_of_accepts (hbs c hc) hcaccepts)
  exact hcaccepts

theorem items_form (s : Json) : (form s).items? = s.items?.map (·.map form) := by
  cases s <;> simp [form, Json.items?, form_items_eq_map]

theorem survivors_of_unlisted {key : String} (h : s.items? = none) : survivors key s = s := by
  unfold survivors
  split
  · simp [Json.items?] at h
  · rfl

section Keys

variable {fs : Fields Json}
  (hnext : ∀ t w, Consults (.obj fs, v) (t, w) → r.accepts t w = true →
    r.accepts (form t) w = true)

include hnext

theorem meets_any_of_form {bs : List Json} (hbs : fs.lookup "anyOf" = some (.arr bs))
    (h : r.meets "anyOf" (.arr bs) v = true) : r.meets "anyOf" (form (.arr bs)) v = true := by
  rw [Reading.meets_any_of, List.any_eq_true] at h
  obtain ⟨b, hb, haccepts⟩ := h
  rw [form_arr, Reading.meets_any_of, List.any_map, List.any_eq_true]
  exact ⟨b, hb, hnext b v (.branch (by decide) hbs hb) haccepts⟩

theorem meets_all_of_form {bs : List Json} (hbs : fs.lookup "allOf" = some (.arr bs))
    (h : r.meets "allOf" (.arr bs) v = true) :
    r.meets "allOf" (form (survivors "allOf" (.arr bs))) v = true := by
  rw [Reading.meets_all_of, List.all_eq_true] at h
  rw [survivors, form_arr, Reading.meets_all_of, List.all_map, List.all_eq_true]
  intro b hkept
  have hb := List.mem_of_mem_filter hkept
  exact hnext b v (.branch (by decide) hbs hb) (h b hb)

theorem meets_one_of_form {bs : List Json} (hbs : fs.lookup "oneOf" = some (.arr bs))
    (h : r.meets "oneOf" (.arr bs) v = true) :
    r.meets "oneOf" (form (.arr bs)) v = true ↔ Exclusive r bs v := by
  have hbranch : ∀ b ∈ bs, r.accepts b v = true → r.accepts (form b) v = true :=
    fun b hb => hnext b v (.branch (by decide) hbs hb)
  rw [Reading.meets_one_of] at h
  rw [form_arr, Reading.meets_one_of, List.countP_map, ← h]
  constructor
  · intro hcount _ b hb haccepts
    -- Each branch for the value is still one, so with equal counts there is none besides.
    have hbefore : (bs.filter fun b => r.accepts (form b) v).countP (r.accepts · v) =
        bs.countP (r.accepts · v) := by
      rw [List.countP_filter]
      apply List.countP_congr
      intro b hb
      simpa using hbranch b hb
    have hall := List.countP_eq_length.mp
      ((hbefore.trans hcount.symm).trans List.countP_eq_length_filter)
    exact hall b (List.mem_filter.mpr ⟨hb, haccepts⟩)
  · intro hexclusive
    apply List.countP_congr
    intro b hb
    exact ⟨hexclusive h b hb, hbranch b hb⟩

theorem meets_items_form (hs : fs.lookup "items" = some s) (h : r.meets "items" s v = true) :
    r.meets "items" (form s) v = true := by
  cases hv : v.items? with
  | none => exact r.meets_items_of_not_array hv _
  | some vs =>
    obtain rfl := Json.eq_arr_of_items hv
    cases hitems : s.items? with
    | none =>
      have hform : (form s).items? = none := by rw [items_form, hitems, Option.map_none]
      rw [r.meets_items hitems, List.all_eq_true] at h
      rw [r.meets_items hform, List.all_eq_true]
      intro w hw
      exact hnext s w (.item hs hitems hw) (h w hw)
    | some ss =>
      obtain rfl := Json.eq_arr_of_items hitems
      rw [r.meets_positions, List.all_eq_true] at h
      rw [form_arr, r.meets_positions, List.zip_map_left, List.all_map, List.all_eq_true]
      rintro ⟨t, w⟩ hmem
      exact hnext t w (.position hs hmem) (h (t, w) hmem)

theorem meets_form {key : String} (hkey : key ∈ schemaKeys) (hs : fs.lookup key = some s)
    (hexclusive : ∀ bs, fs.lookup "oneOf" = some (.arr bs) → Exclusive r bs v)
    (h : r.meets key s v = true) : r.meets key (form (survivors key s)) v = true := by
  simp only [schemaKeys, List.mem_cons, List.not_mem_nil, or_false] at hkey
  rcases hkey with rfl | hbranches
  · exact meets_items_form hnext hs h
  · cases hitems : s.items? with
    | none =>
      have hform : (form (survivors key s)).items? = none := by
        rw [survivors_of_unlisted hitems, items_form, hitems, Option.map_none]
      exact r.meets_unlisted (by rcases hbranches with rfl | rfl | rfl <;> decide) hform v
    | some bs =>
      obtain rfl := Json.eq_arr_of_items hitems
      rcases hbranches with rfl | rfl | rfl
      · exact meets_all_of_form hnext hs h
      · exact meets_any_of_form hnext hs h
      · exact (meets_one_of_form hnext hs h).mpr (hexclusive bs hs)

end Keys

theorem bound_tidy {fs : Fields Json} (hn : (Fields.keys fs).Nodup)
    (h : ∀ k s, fs.lookup k = some s → r.bound k s v = true) {key : String}
    (ht : (tidy (formFields fs)).lookup key = some t) : r.bound key t v = true := by
  by_cases hbound : key ∈ Reading.boundKeywords
  · rw [lookup_tidy (by rwa [keys_form_fields]), lookup_form_fields] at ht
    have hdropped : ∀ k ∈ Reading.boundKeywords, k ∈ droppedKeywords ∨ k = "minItems" := by decide
    rcases hdropped key hbound with hgone | rfl
    · rw [if_pos hgone] at ht
      contradiction
    · rw [if_neg (by decide), if_neg (by simp), form_field_of_not_mem (by decide), Option.map_id,
        id] at ht
      exact h _ t (Option.filter_eq_some_iff.mp ht).1
  · exact r.bound_of_not_mem hbound t v

theorem meets_tidy {fs : Fields Json} (hs : (Json.obj fs).wellKeyed = true)
    (hnext : ∀ t w, Consults (.obj fs, v) (t, w) → r.accepts t w = true →
      r.accepts (form t) w = true)
    (hexclusive : ∀ bs, fs.lookup "oneOf" = some (.arr bs) → Exclusive r bs v)
    (h : ∀ k s, fs.lookup k = some s → r.meets k s v = true) {key : String}
    (ht : (tidy (formFields fs)).lookup key = some t) : r.meets key t v = true := by
  by_cases hschema : key ∈ schemaKeys
  · obtain ⟨s, hlookup, rfl⟩ := form_of_lookup hs hschema ht
    exact meets_form hnext hschema hlookup hexclusive (h key s hlookup)
  · by_cases hvocabulary : key ∈ Reading.vocabulary
    · have huntouched : ∀ k ∈ Reading.vocabulary, k ∈ schemaKeys ∨ isUntouched k = true := by
        decide
      have hkept := (huntouched key hvocabulary).resolve_left hschema
      rw [lookup_untouched ((Json.well_keyed_obj fs).mp hs).1 hkept] at ht
      exact h key t ht
    · exact r.meets_of_not_mem hvocabulary t v

/-- A value without objects that a schema accepts is accepted by the strict form, as long as no
`oneOf` that is consulted about it gets a second branch for the value there. -/
theorem form_accepts (r : Reading) {s v : Json} (hs : s.wellKeyed = true)
    (hv : v.objectFree = true) (hexclusive : StaysExclusive r.bounded s v)
    (h : r.bounded.accepts s v = true) : r.bounded.accepts (form s) v = true := by
  induction s, v using Consults.induct with
  | step s v ih =>
    have hnext : ∀ t w, Consults (s, v) (t, w) → r.bounded.accepts t w = true →
        r.bounded.accepts (form t) w = true := by
      intro t w hstep
      exact ih t w hstep (hstep.well_keyed hs) (hstep.object_free hv) (hexclusive.next hstep)
    cases s with
    | obj fs =>
      obtain ⟨hn, -⟩ := (Json.well_keyed_obj fs).mp hs
      have hno := Json.is_object_of_object_free hv
      rw [r.bounded_accepts hn hno] at h
      rw [form, r.bounded_accepts (nodup_tidy (by rwa [keys_form_fields])) hno]
      intro key t ht
      have hmeets := meets_tidy hs hnext (fun bs hbs => hexclusive fs bs v .refl hbs)
        (fun k s hk => (h k s hk).1) ht
      have hbound := bound_tidy hn (fun k s hk => (h k s hk).2) ht
      exact ⟨hmeets, hbound⟩
    | arr items => rfl
    | _ => exact h

/-- A list of codes and counts, with a length for the codes and a bound for the counts. -/
theorem codes_and_counts_accepted :
    let code : Json := .obj [("type", .str "string"), ("maxLength", .int 2)]
    let count : Json := .obj [("type", .str "integer"), ("minimum", .int 0)]
    let entry : Json := .obj [("oneOf", .arr [code, count])]
    let s : Json := .obj [("maxItems", .int 2), ("items", entry)]
    let v : Json := .arr [.str "ab", .int 7]
    s.wellKeyed = true ∧ v.objectFree = true ∧ StaysExclusive Reading.numeric.bounded s v ∧
      Reading.numeric.bounded.accepts s v = true ∧
      Reading.numeric.bounded.accepts (form s) v = true := by
  intro code count entry s v
  have hs : s.wellKeyed = true := by decide
  have hv : v.objectFree = true := by decide
  have hcode : ∀ w, StaysExclusive Reading.numeric.bounded code w := fun w =>
    stays_exclusive_obj (by simp [Fields.lookup_cons_ite])
      (by simp [Fields.lookup_cons_ite, schemaKeys])
  have hcount : ∀ w, StaysExclusive Reading.numeric.bounded count w := fun w =>
    stays_exclusive_obj (by simp [Fields.lookup_cons_ite])
      (by simp [Fields.lookup_cons_ite, schemaKeys])
  have hentry : ∀ w, StaysExclusive Reading.numeric.bounded entry w := by
    intro w
    apply stays_exclusive_obj
    · intro bs hbs
      obtain rfl : [code, count] = bs := by simpa using hbs
      apply exclusive_of_types (by decide)
      -- No value is both a string and an integer.
      cases w <;> simp [code, count, Json.get?, Json.fields?, Reading.meets_type, Json.isOfType]
    · simp [Fields.lookup_cons_ite, schemaKeys, Json.schemas, hcode, hcount]
  have hexclusive : StaysExclusive Reading.numeric.bounded s v :=
    stays_exclusive_obj (by simp [Fields.lookup_cons_ite])
      (by simp [Fields.lookup_cons_ite, schemaKeys, Json.schemas, entry, hentry])
  have h : Reading.numeric.bounded.accepts s v = true := by decide
  exact ⟨hs, hv, hexclusive, h, form_accepts Reading.numeric hs hv hexclusive h⟩

/-- Without its bound the first branch accepts what only the second one did. -/
theorem second_branch_rejected :
    let s : Json := .obj [("oneOf", .arr [.obj [("minimum", .int 5)], .ofType "integer"])]
    s.wellKeyed = true ∧ (Json.int 3).objectFree = true ∧
      Reading.numeric.bounded.accepts s (.int 3) = true ∧
      Reading.numeric.bounded.accepts (form s) (.int 3) = false := by
  decide

end ToolSpec.Strict
