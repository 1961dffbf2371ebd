import ToolSpec.Proofs.Json.Equality
import ToolSpec.Proofs.Signature.Nullability

/-!
# Unions as sets of alternatives

A union lists the distinct fragments of its members that are not null, and null members count for
its verdict alone. Another null, another member with a fragment that is listed already, and another
order of the members therefore change the fragment no more than the order of its branches.
-/

set_option autoImplicit false

namespace ToolSpec

theorem Json.same_single (key : String) (v w : Json) :
    (Json.obj [(key, v)]).same (.obj [(key, w)]) = v.same w := by
  simp [same, sameFields]

theorem Json.obj_fields_or_empty {v : Json} (h : v.isObject = true) : .obj v.fieldsOrEmpty = v := by
  cases v <;> first | rfl | simp [isObject, fields?] at h

namespace DeclaredType

def alternatives (as : List DeclaredType) : List Json :=
  (as.filter (!·.isNull)).map (·.resolve.schema)

theorem union_fragment (as : List DeclaredType) :
    (DeclaredType.union as).resolve.fragment =
      Resolution.unionFragment (distinct Json.same (alternatives as)) := by
  rw [resolve, resolve_members_eq_map, Resolution.union, alternatives, List.map_map]
  rfl

theorem alternatives_append (as bs : List DeclaredType) :
    alternatives (as ++ bs) = alternatives as ++ alternatives bs := by
  simp [alternatives]

theorem alternatives_cons_null {a : DeclaredType} (h : a.isNull = true) (as : List DeclaredType) :
    alternatives (a::as) = alternatives as := by
  simp [alternatives, h]

theorem alternatives_cons {a : DeclaredType} (h : a.isNull = false) (as : List DeclaredType) :
    alternatives (a::as) = a.resolve.schema::alternatives as := by
  simp [alternatives, h]

theorem is_object_alternatives {as : List DeclaredType} {v : Json} (h : v ∈ alternatives as) :
    v.isObject = true := by
  obtain ⟨a, -, rfl⟩ := List.mem_map.mp h
  rfl

theorem alternatives_well_keyed {as : List DeclaredType} (h : ∀ a ∈ as, a.wellKeyed = true)
    {v : Json} (hv : v ∈ alternatives as) : v.wellKeyed = true := by
  obtain ⟨a, ha, rfl⟩ := List.mem_map.mp hv
  exact resolve_well_keyed (h a (List.mem_of_mem_filter ha))

theorem union_single {before after : List DeclaredType}
    (h : ∀ n ∈ before ++ after, n.isNull = true) {a : DeclaredType} (ha : a.isNull = false) :
    (DeclaredType.union (before ++ a::after)).resolve.fragment = a.resolve.fragment := by
  have hnone : ∀ as : List DeclaredType, (∀ n ∈ as, n.isNull = true) → alternatives as = [] := by
    intro as has
    rw [alternatives, List.filter_eq_nil_iff.mpr fun n hn => by simp [has n hn], List.map_nil]
  rw [union_fragment, alternatives_append, alternatives_cons ha,
    hnone before fun n hn => h n (List.mem_append_left _ hn),
    hnone after fun n hn => h n (List.mem_append_right _ hn)]
  rfl

theorem fragment_of_is_null {a : DeclaredType} (h : a.isNull = true) :
    a.resolve.fragment = [("type", .str "null")] := by
  induction a using induct with
  | primitive kind =>
    cases kind <;> simp only [isNull, reduceCtorEq] at h
    rw [resolve]
    rfl
  | annotated a items ih =>
    rw [resolve_annotated]
    exact ih h
  | _ => simp [isNull] at h

theorem optional_fragment (a : DeclaredType) :
    (optional a).resolve.fragment = a.resolve.fragment := by
  cases ha : a.isNull with
  | true =>
    rw [optional, union_fragment, alternatives_cons_null ha, alternatives_cons_null rfl,
      fragment_of_is_null ha]
    rfl
  | false => exact @union_single [] [null] (by simp; rfl) a ha

theorem optional_nullable (a : DeclaredType) : (optional a).resolve.nullable = true := by
  rw [optional, union_nullable]
  simp [show null.isNull = true from rfl]

theorem union_insert_null (before after : List DeclaredType) {n : DeclaredType}
    (h : n.isNull = true) :
    (DeclaredType.union (before ++ n::after)).resolve.fragment =
        (DeclaredType.union (before ++ after)).resolve.fragment ∧
      (DeclaredType.union (before ++ n::after)).resolve.nullable = true := by
  constructor
  · rw [union_fragment, union_fragment, alternatives_append, alternatives_cons_null h,
      alternatives_append]
  · simp [union_nullable, h]

theorem union_insert_same {before : List DeclaredType} {a b : DeclaredType} (ha : a ∈ before)
    (hnull : a.isNull = false) (hsame : a.resolve.schema.same b.resolve.schema = true)
    (after : List DeclaredType) :
    (DeclaredType.union (before ++ b::after)).resolve.fragment =
      (DeclaredType.union (before ++ after)).resolve.fragment := by
  cases hb : b.isNull with
  | true => exact (union_insert_null before after hb).1
  | false =>
    have hlisted : a.resolve.schema ∈ alternatives before :=
      List.mem_map_of_mem (List.mem_filter.mpr ⟨ha, by simp [hnull]⟩)
    rw [union_fragment, union_fragment, alternatives_append, alternatives_cons hb,
      alternatives_append, distinct_insert (r := Json.same) (fun _ _ _ => Json.same_trans) hlisted
        hsame]

theorem union_insert_nullable {before : List DeclaredType} {a b : DeclaredType} (ha : a ∈ before)
    (hb : b.isNull = false) (hnullable : a.resolve.nullable = b.resolve.nullable)
    (after : List DeclaredType) :
    (DeclaredType.union (before ++ b::after)).resolve.nullable =
      (DeclaredType.union (before ++ after)).resolve.nullable := by
  rw [union_nullable, union_nullable, List.any_append, List.any_append, List.any_cons, hb,
    Bool.false_or, ← hnullable, ← Bool.or_assoc]
  congr 1
  rw [Bool.or_eq_left_iff_imp, List.any_eq_true]
  exact fun h => ⟨a, ha, by simp [h]⟩

/-- As JSON the fragments are equal, at most after a permutation of the branches of the first. -/
def Rearranged (fs gs : Fields Json) : Prop :=
  ∃ hs, (hs = fs ∨ ∃ vs ws, fs = [("anyOf", .arr vs)] ∧ hs = [("anyOf", .arr ws)] ∧ vs.Perm ws) ∧
    (Json.obj hs).same (.obj gs) = true

theorem union_fragment_many {vs : List Json} (h : 2 ≤ vs.length) :
    Resolution.unionFragment vs = [("anyOf", .arr vs)] := by
  match vs with
  | _::_::_ => rfl

theorem union_fragment_rearranged {us vs ws : List Json} (hus : ∀ u ∈ us, u.isObject = true)
    (hws : ∀ w ∈ ws, w.isObject = true) (hperm : us.Perm vs)
    (hsame : List.Forall₂ (fun v w => v.same w = true) vs ws) :
    Rearranged (Resolution.unionFragment us) (Resolution.unionFragment ws) := by
  have hlength := hsame.length_eq
  cases hsame with
  | nil =>
    obtain rfl := hperm.eq_nil
    exact ⟨_, .inl rfl, Json.same_refl (by decide)⟩
  | @cons v w vs ws hhead htail =>
    cases htail with
    | nil =>
      obtain rfl := List.perm_singleton.mp hperm
      refine ⟨_, .inl rfl, ?_⟩
      rw [Resolution.unionFragment, Resolution.unionFragment,
        Json.obj_fields_or_empty (hus v (by simp)), Json.obj_fields_or_empty (hws w (by simp))]
      exact hhead
    | @cons v' w' vs ws hnext htail =>
      have hmany : 2 ≤ us.length := by simp [hperm.length_eq]
      rw [union_fragment_many hmany, union_fragment_many (by simp)]
      refine ⟨_, .inr ⟨us, _, rfl, rfl, hperm⟩, ?_⟩
      rw [Json.same_single, Json.same_arr]
      exact .cons hhead (.cons hnext htail)

theorem union_perm {as bs : List DeclaredType} (h : ∀ a ∈ as, a.wellKeyed = true)
    (hperm : as.Perm bs) :
    (DeclaredType.union as).resolve.nullable = (DeclaredType.union bs).resolve.nullable ∧
      Rearranged (DeclaredType.union as).resolve.fragment
        (DeclaredType.union bs).resolve.fragment := by
  constructor
  · rw [union_nullable, union_nullable]
    exact hperm.any_eq
  · have hfragments : (alternatives as).Perm (alternatives bs) := (hperm.filter _).map _
    obtain ⟨vs, hvs, hsame⟩ := distinct_perm (fun _ => Json.same_refl) (fun _ _ => Json.same_symm)
      (fun _ _ _ => Json.same_trans) hfragments (fun _ => alternatives_well_keyed h)
    rw [union_fragment, union_fragment]
    exact union_fragment_rearranged (fun _ hv => is_object_alternatives (distinct_subset hv))
      (fun _ hv => is_object_alternatives (distinct_subset hv)) hvs hsame

theorem union_several {as : List DeclaredType} (h : ∀ a ∈ as, a.wellKeyed = true)
    (hseveral : ∃ v ∈ alternatives as, ∃ w ∈ alternatives as, v.same w = false) :
    ∃ branches, (DeclaredType.union as).resolve.fragment = [("anyOf", .arr branches)] ∧
      Firsts Json.same (alternatives as) branches := by
  have hfirsts := distinct_firsts (r := Json.same)
    (fun v hv => Json.same_refl (alternatives_well_keyed h hv)) (fun _ _ _ => Json.same_trans)
  refine ⟨_, ?_, hfirsts⟩
  rw [union_fragment, union_fragment_many]
  obtain ⟨v, hv, w, hw, hvw⟩ := hseveral
  obtain ⟨v', hv', hv'v⟩ := hfirsts.covers v hv
  obtain ⟨w', hw', hw'w⟩ := hfirsts.covers w hw
  -- A single fragment would be equal to both.
  match hlisted : distinct Json.same (alternatives as) with
  | [] => simp [hlisted] at hv'
  | [u] =>
    obtain rfl : v' = u := by simpa [hlisted] using hv'
    obtain rfl : w' = v' := by simpa [hlisted] using hw'
    have hvw' := Json.same_trans (Json.same_symm (alternatives_well_keyed h (hfirsts.mem hw'))
      (alternatives_well_keyed h hv) hv'v) hw'w
    rw [hvw] at hvw'
    contradiction
  | _::_::_ => simp

/-- A union whose members carry no object with a repeated key. A null more, described or not, leaves
the fragment and sets the verdict. A member more that resolves like an earlier one that is not null
leaves the fragment, and the verdict too unless it is null itself. Another order leaves the verdict
and, as JSON, all but the order of the branches. If two fragments differ, the branches are the first
occurrences of all fragments. -/
theorem union_as_set {as : List DeclaredType} (h : ∀ a ∈ as, a.wellKeyed = true) :
    (∀ before after n, as = before ++ after → n.isNull = true →
      (DeclaredType.union (before ++ n::after)).resolve.fragment =
          (DeclaredType.union as).resolve.fragment ∧
        (DeclaredType.union (before ++ n::after)).resolve.nullable = true) ∧
    (∀ before after a b, as = before ++ after → a ∈ before → a.isNull = false →
      a.resolve.schema.same b.resolve.schema = true → a.resolve.nullable = b.resolve.nullable →
      (DeclaredType.union (before ++ b::after)).resolve.fragment =
          (DeclaredType.union as).resolve.fragment ∧
        (b.isNull = false →
          (DeclaredType.union (before ++ b::after)).resolve.nullable =
            (DeclaredType.union as).resolve.nullable)) ∧
    (∀ bs, as.Perm bs →
      (DeclaredType.union as).resolve.nullable = (DeclaredType.union bs).resolve.nullable ∧
        Rearranged (DeclaredType.union as).resolve.fragment
          (DeclaredType.union bs).resolve.fragment) ∧
    ((∃ v ∈ alternatives as, ∃ w ∈ alternatives as, v.same w = false) →
      ∃ branches, (DeclaredType.union as).resolve.fragment = [("anyOf", .arr branches)] ∧
        Firsts Json.same (alternatives as) branches) := by
  refine ⟨?_, ?_, fun bs => union_perm h, union_several h⟩
  · rintro before after n rfl hn
    exact union_insert_null before after hn
  · rintro before after a b rfl ha hnull hsame hnullable
    exact ⟨union_insert_same ha hnull hsame after,
      fun hb => union_insert_nullable ha hb hnullable after⟩

/-- A titled string, once more with its keys in another order, and an optional integer. -/
theorem titled_or_count_as_set :
    let a : DeclaredType := .schema (.obj [("type", .str "string"), ("title", .str "t")])
    let b : DeclaredType :=
      .annotated (.schema (.obj [("title", .str "t"), ("type", .str "string")])) [.docTag "again"]
    let c : DeclaredType := .optional (.primitive .integer)
    let n : DeclaredType := .annotated .null [.docTag "none"]
    (∀ a' ∈ [a, c], a'.wellKeyed = true) ∧
      (DeclaredType.union [a, n, c]).resolve.fragment =
        (DeclaredType.union [a, c]).resolve.fragment ∧
      (DeclaredType.union [a, c, b]).resolve.fragment =
        (DeclaredType.union [a, c]).resolve.fragment ∧
      (DeclaredType.union [a, c, b]).resolve.nullable =
        (DeclaredType.union [a, c]).resolve.nullable ∧
      Rearranged (DeclaredType.union [a, c]).resolve.fragment
        (DeclaredType.union [c, a]).resolve.fragment ∧
      ∃ branches, (DeclaredType.union [a, c]).resolve.fragment = [("anyOf", .arr branches)] ∧
        Firsts Json.same (alternatives [a, c]) branches := by
  intro a b c n
  have hkeyed : ∀ a' ∈ [a, c], a'.wellKeyed = true := by decide
  obtain ⟨hnull, hsame, hperm, hseveral⟩ := union_as_set hkeyed
  have hb := hsame [a, c] [] a b rfl (by simp) (by decide) (by decide) (by decide)
  refine ⟨hkeyed, (hnull [a] [c] n rfl (by decide)).1, hb.1, hb.2 (by decide),
    (hperm [c, a] (.swap c a [])).2, hseveral ?_⟩
  exact ⟨a.resolve.schema, by simp [alternatives, a, isNull],
    c.resolve.schema, by simp [alternatives, c, isNull, optional], by decide⟩

/-- A schema that was resolved to null resolves like the null primitive, which sets the verdict. -/
theorem null_after_null_schema :
    let a : DeclaredType := .schema (Json.ofType "null")
    a.isNull = false ∧ a.resolve.schema.same null.resolve.schema = true ∧
      a.resolve.nullable = null.resolve.nullable ∧
      ¬ (DeclaredType.union [a, null]).resolve.nullable =
        (DeclaredType.union [a]).resolve.nullable := by
  decide

end DeclaredType

end ToolSpec
