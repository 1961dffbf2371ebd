import ToolSpec.Proofs.Schema.Acceptance

/-!
# What widening a property changes

Widening leaves the verdict on every value but null alone. Null is admitted by the keywords that
are rewritten, so that it depends on the other ones: next to `type` only `enum` is rewritten, next
to `anyOf` without a `type` the same, and anything else moves into one branch of a union.
-/

set_option autoImplicit false

namespace ToolSpec

namespace Reading

variable (r : Reading)

theorem accepts_filter (p : String → Bool) (fs : Fields Json) (v : Json)
    (h : ∀ k s, (k, s) ∈ fs → p k = false → isForeign k = false ∧ r.meets k s v = true) :
    r.accepts (.obj (fs.filter fun (k, _) => p k)) v = r.accepts (.obj fs) v := by
  have hforeign : foreign (fs.filter fun (k, _) => p k) = foreign fs := by
    rw [foreign, foreign, List.filter_filter]
    apply List.filter_congr
    rintro ⟨k, s⟩ hks
    cases hp : p k with
    | true => simp [hp]
    | false => simp [(h k s hks hp).1]
  rw [accepts_obj, accepts_obj, hforeign, List.all_filter]
  congr 1
  rw [Bool.eq_iff_iff, List.all_eq_true, List.all_eq_true]
  apply forall₂_congr
  rintro ⟨k, s⟩ hks
  cases hp : p k with
  | true => simp [hp]
  | false => simp [hp, (h k s hks hp).2]

theorem accepts_insert {fs : Fields Json} (hn : (Fields.keys fs).Nodup) {key : String}
    {old new v : Json} (hf : isForeign key = false) (ho : fs.lookup key = some old)
    (hm : r.meets key new v = r.meets key old v) :
    r.accepts (.obj (Fields.insert key new fs)) v = r.accepts (.obj fs) v := by
  have hforeign : foreign (Fields.insert key new fs) = foreign fs :=
    Fields.filter_insert new fs hf
  rw [Bool.eq_iff_iff, r.accepts_iff_lookup (Fields.nodup_keys_insert key new hn),
    r.accepts_iff_lookup hn, hforeign]
  refine and_congr_left fun _ => forall_congr' fun k => ?_
  rw [Fields.lookup_insert]
  by_cases hk : k = key
  · subst hk; simp [ho, hm]
  · simp [hk]

theorem meets_descriptive {key : String} (h : Nullable.isDescriptive key = true) (s v : Json) :
    r.meets key s v = true := by
  apply r.meets_of_not_mem
  simp only [Nullable.isDescriptive, Nullable.descriptiveKeywords, decide_eq_true_eq,
    List.mem_cons, List.not_mem_nil, or_false] at h
  rcases h with rfl | rfl | rfl <;> decide

theorem descriptive_not_foreign {key : String} (h : Nullable.isDescriptive key = true) :
    isForeign key = false := by simp [isForeign, h]

theorem accepts_null_schema (v : Json) : r.accepts Nullable.nullSchema v = v.isNull := by
  rw [Nullable.nullSchema, Json.ofType, r.accepts_cons (by decide), r.accepts_empty]
  cases v <;> simp [meets, keyword, Json.isOfType, Json.isNull]

theorem equal_null_iff {v : Json} : r.equal .null v = true ↔ v = .null := by
  rw [r.equal_null]
  cases v <;> simp [Json.isNull]

theorem meets_enum_append (vs : List Json) {v : Json} (hv : v ≠ .null) :
    r.meets "enum" (.arr (vs ++ [.null])) v = r.meets "enum" (.arr vs) v := by
  have hne : r.equal .null v = false := by
    simpa using mt r.equal_null_iff.mp hv
  simp [meets_enum, hne]

theorem meets_enum_null {vs : List Json} (h : vs.any Json.isNull = true) :
    r.meets "enum" (.arr vs) .null = true := by
  obtain ⟨w, hw, hn⟩ := List.any_eq_true.mp h
  have he : w = .null := by cases w <;> simp_all [Json.isNull]
  rw [meets_enum, List.any_eq_true]
  exact ⟨w, hw, he ▸ r.equal_null_iff.mpr rfl⟩

theorem meets_type_pair (t : String) (v : Json) :
    r.meets "type" (.strs [t, "null"]) v = (r.meets "type" (.str t) v || v.isNull) := by
  simp [meets, keyword, Json.strs, Json.str?, is_of_type_null]

theorem meets_type_append (ts : List Json) (v : Json) :
    r.meets "type" (.arr (ts ++ [.str "null"])) v = (r.meets "type" (.arr ts) v || v.isNull) := by
  simp [meets, keyword, Json.str?, is_of_type_null]

theorem meets_type_null {ts : List Json} (h : ts.any (·.str? = some "null") = true) :
    r.meets "type" (.arr ts) .null = true := by
  obtain ⟨t, ht, hs⟩ := List.any_eq_true.mp h
  simp only [decide_eq_true_eq] at hs
  simp only [meets, keyword, List.any_eq_true]
  exact ⟨t, ht, by simp [hs, Json.isOfType]⟩

end Reading

namespace Nullable

theorem eq_null_schema {s : Json} (h : s.same nullSchema = true) : s = nullSchema := by
  rw [nullSchema, Json.ofType] at *
  cases s with
  | obj fs =>
    match fs with
    | [(k, t)] =>
      by_cases hk : k = "type"
      · subst hk
        cases t <;> simp_all [Json.same, Json.sameFields]
      · simp [Json.same, Json.sameFields, Fields.lookup_cons_ite, hk] at h
    | [] => simp [Json.same] at h
    | _::_::_ => simp [Json.same] at h
  | _ => simp [Json.same] at h

theorem nodup_allow_null {fs : Fields Json} (hn : (Fields.keys fs).Nodup) :
    (Fields.keys (allowNull fs)).Nodup := by
  unfold allowNull
  split
  · split
    · exact hn
    · exact Fields.nodup_keys_insert _ _ hn
  · exact hn

theorem lookup_allow_null {fs : Fields Json} {key : String} (h : key ≠ "enum") :
    (allowNull fs).lookup key = fs.lookup key := by
  unfold allowNull
  split
  · split <;> simp [Fields.lookup_insert, h]
  · rfl

theorem filter_allow_null (fs : Fields Json) {p : String → Bool} (h : p "enum" = false) :
    (allowNull fs).filter (fun (k, _) => p k) = fs.filter fun (k, _) => p k := by
  unfold allowNull
  split
  · split
    · rfl
    · exact Fields.filter_insert _ fs h
  · rfl

variable (r : Reading)

theorem allow_null_accepts {fs : Fields Json} (hn : (Fields.keys fs).Nodup) {v : Json}
    (hv : v ≠ .null) : r.accepts (.obj (allowNull fs)) v = r.accepts (.obj fs) v := by
  unfold allowNull
  split
  · rename_i vs he
    split
    · rfl
    · exact r.accepts_insert hn (by decide) he (r.meets_enum_append vs hv)
  · rfl

theorem allow_null_meets {fs : Fields Json} {s : Json} (h : (allowNull fs).lookup "enum" = some s) :
    r.meets "enum" s .null = true := by
  unfold allowNull at h
  split at h
  · rename_i vs he
    split at h
    · rename_i hnull
      obtain rfl := Option.some.inj (he.symm.trans h)
      exact r.meets_enum_null hnull
    · rw [Fields.lookup_insert, if_pos rfl] at h
      obtain rfl := Option.some.inj h
      exact r.meets_enum_null (by simp [Json.isNull])
  · rename_i hno
    cases s with
    | arr vs => exact absurd h (hno vs)
    | _ => rfl

theorem allow_null_accepts_null {fs : Fields Json} (hn : (Fields.keys fs).Nodup) {key : String}
    {s : Json} (hf : Reading.isForeign key = false) (hk : fs.lookup key = some s)
    (hne : key ≠ "enum") (hm : r.meets key s .null = true) :
    r.accepts (.obj (allowNull fs)) .null =
      r.accepts (.obj (fs.filter fun (k, _) => k ∉ [key, "enum"])) .null := by
  have hfilter := filter_allow_null fs (p := fun k => k ∉ [key, "enum"]) (by simp)
  rw [← hfilter]
  symm
  apply r.accepts_filter (fun k => k ∉ [key, "enum"])
  intro k t hkt hp
  have hl := Fields.lookup_of_mem (nodup_allow_null hn) hkt
  simp only [List.mem_cons, List.not_mem_nil, or_false, decide_eq_false_iff_not, not_not] at hp
  rcases hp with rfl | rfl
  · rw [lookup_allow_null hne, hk] at hl
    obtain rfl := Option.some.inj hl
    exact ⟨hf, hm⟩
  · exact ⟨by decide, allow_null_meets r hl⟩

def widenType : Json → Json
  | .str t => if t = "null" then .str t else .strs [t, "null"]
  | .arr types => .arr (widenTypes types)
  | t => t

theorem widen_type_meets (t v : Json) :
    r.meets "type" (widenType t) v = (r.meets "type" t v || v.isNull) := by
  cases t with
  | str t =>
    by_cases h : t = "null"
    · subst h
      simp [widenType, Reading.meets, Reading.keyword, Reading.is_of_type_null]
    · rw [widenType, if_neg h, r.meets_type_pair]
  | arr ts =>
    rw [widenType, widenTypes]
    split
    · rename_i h
      have hnull := r.meets_type_null h
      cases v <;> simp [Json.isNull, hnull]
    · exact r.meets_type_append ts v
  | _ => rfl

theorem widen_branches_meets (bs : List Json) (v : Json) :
    r.meets "anyOf" (.arr (widenBranches bs)) v = (r.meets "anyOf" (.arr bs) v || v.isNull) := by
  rw [widenBranches]
  split
  · rename_i h
    obtain ⟨b, hb, hs⟩ := List.any_eq_true.mp h
    have hnull : r.meets "anyOf" (.arr bs) .null = true := by
      rw [r.meets_any_of, List.any_eq_true]
      exact ⟨b, hb, by rw [eq_null_schema hs, r.accepts_null_schema]; rfl⟩
    cases v <;> simp [Json.isNull, hnull]
  · simp [r.meets_any_of, r.accepts_null_schema]

theorem accepts_rewritten {fs : Fields Json} (hn : (Fields.keys fs).Nodup) {key : String}
    {old new : Json} (hf : Reading.isForeign key = false) (hne : key ≠ "enum")
    (ho : fs.lookup key = some old)
    (hm : ∀ v, r.meets key new v = (r.meets key old v || v.isNull)) :
    (∀ v, v ≠ .null →
      r.accepts (.obj (allowNull (Fields.insert key new fs))) v = r.accepts (.obj fs) v) ∧
    r.accepts (.obj (allowNull (Fields.insert key new fs))) .null =
      r.accepts (.obj (fs.filter fun (k, _) => k ∉ [key, "enum"])) .null := by
  have hn' := Fields.nodup_keys_insert key new hn
  constructor
  · intro v hv
    rw [allow_null_accepts r hn' hv]
    exact r.accepts_insert hn hf ho (by rw [hm, Json.is_null_eq_false hv, Bool.or_false])
  · have hlookup : (Fields.insert key new fs).lookup key = some new := by
      rw [Fields.lookup_insert, if_pos rfl]
    rw [allow_null_accepts_null r hn' hf hlookup hne (by rw [hm]; simp [Json.isNull])]
    rw [Fields.filter_insert (p := fun k => k ∉ [key, "enum"]) new fs (by simp)]

def constraining (fs : Fields Json) : Fields Json := fs.filter fun (k, _) => !isDescriptive k

def describing (fs : Fields Json) : Fields Json := fs.filter fun (k, _) => isDescriptive k

theorem lookup_constraining (fs : Fields Json) {key : String} (h : isDescriptive key = false) :
    (constraining fs).lookup key = fs.lookup key := by
  rw [constraining, Fields.lookup_filter_key (!isDescriptive ·), h]
  rfl

theorem lookup_describing (fs : Fields Json) {key : String} (h : isDescriptive key = false) :
    (describing fs).lookup key = none := by
  rw [describing, Fields.lookup_filter_key isDescriptive, h]
  rfl

theorem or_null_cases (fs : Fields Json) :
    (∀ k s, (k, s) ∈ fs → isDescriptive k = true) ∧ orNull fs = fs ∨
      orNull fs = ("anyOf", .arr [.obj (constraining fs), nullSchema])::describing fs := by
  unfold orNull
  split
  · rename_i h
    exact .inl ⟨fun k s hks => List.all_eq_true.mp h (k, s) hks, rfl⟩
  · exact .inr rfl

theorem descriptive_accepts {fs : Fields Json} (h : ∀ k s, (k, s) ∈ fs → isDescriptive k = true)
    (v : Json) : r.accepts (.obj fs) v = true := by
  rw [← r.accepts_filter (fun _ => false) fs v fun k s hks _ =>
    ⟨Reading.descriptive_not_foreign (h k s hks), r.meets_descriptive (h k s hks) s v⟩]
  simpa using r.accepts_empty v

theorem or_null_accepts (fs : Fields Json) (v : Json) :
    r.accepts (.obj (orNull fs)) v = (r.accepts (.obj fs) v || v.isNull) := by
  rcases or_null_cases fs with ⟨hall, heq⟩ | heq
  · rw [heq, descriptive_accepts r hall, Bool.true_or]
  · have hbranch : r.accepts (.obj (constraining fs)) v = r.accepts (.obj fs) v := by
      apply r.accepts_filter (fun k => !isDescriptive k)
      intro k s _ hd
      have hd : isDescriptive k = true := by simpa using hd
      exact ⟨Reading.descriptive_not_foreign hd, r.meets_descriptive hd s v⟩
    have hrest : r.accepts (.obj (describing fs)) v = true :=
      descriptive_accepts r (fun k s hks => by simpa using (List.mem_filter.mp hks).2) v
    rw [heq, r.accepts_cons (by decide), hrest, r.meets_any_of]
    simp [hbranch, r.accepts_null_schema]

/-- The entries that widening leaves for null to pass. Without a type or alternatives to rewrite
there are none. -/
def unwidened (fs : Fields Json) : Fields Json :=
  match fs.lookup "type", fs.lookup "anyOf" with
  | some _, _ => fs.filter fun (k, _) => k ∉ ["type", "enum"]
  | none, some (.arr _) => fs.filter fun (k, _) => k ∉ ["anyOf", "enum"]
  | none, _ => []

theorem widen_fields_of_type {fs : Fields Json} {t : Json} (h : fs.lookup "type" = some t) :
    widenFields fs = allowNull (Fields.insert "type" (widenType t) fs) := by
  cases t with
  | str t =>
    by_cases ht : t = "null"
    · subst ht; simp [widenFields, h, widenType, Fields.insert_lookup]
    · simp [widenFields, h, widenType, ht]
  | _ => simp [widenFields, h, widenType, Fields.insert_lookup]

/-- Widening adds null and nothing else, as far as the entries that it leaves admit null. -/
theorem widen_fields_accepts {fs : Fields Json} (hn : (Fields.keys fs).Nodup) :
    (∀ v, v ≠ .null → r.accepts (.obj (widenFields fs)) v = r.accepts (.obj fs) v) ∧
    r.accepts (.obj (widenFields fs)) .null = r.accepts (.obj (unwidened fs)) .null := by
  cases ht : fs.lookup "type" with
  | some t =>
    rw [widen_fields_of_type ht, unwidened, ht]
    exact accepts_rewritten r hn (by decide) (by decide) ht (widen_type_meets r t)
  | none =>
    by_cases ha : ∃ bs, fs.lookup "anyOf" = some (.arr bs)
    · obtain ⟨bs, hbs⟩ := ha
      have hw : widenFields fs =
          allowNull (Fields.insert "anyOf" (.arr (widenBranches bs)) fs) := by
        simp [widenFields, ht, hbs]
      rw [hw, unwidened, ht, hbs]
      exact accepts_rewritten r hn (by decide) (by decide) hbs (widen_branches_meets r bs)
    · have hw : widenFields fs = orNull fs := by
        rw [widenFields, ht]
        split <;> simp_all
      have hu : unwidened fs = [] := by
        rw [unwidened, ht]
        split <;> simp_all
      rw [hw, hu, or_null_accepts, r.accepts_empty]
      refine ⟨fun v hv => ?_, by simp [Json.isNull]⟩
      rw [or_null_accepts, Json.is_null_eq_false hv, Bool.or_false]

theorem keys_widen_missing (required : List String) (fs : Fields Json) :
    Fields.keys (widenMissing required fs) = Fields.keys fs :=
  Fields.keys_map_value (fun k v => if k ∈ required then v else widen v) fs

theorem lookup_widen_missing (required : List String) (fs : Fields Json) (name : String) :
    (widenMissing required fs).lookup name =
      (fs.lookup name).map fun v => if name ∈ required then v else widen v :=
  Fields.lookup_map_value (fun k v => if k ∈ required then v else widen v) name fs

end Nullable

end ToolSpec
