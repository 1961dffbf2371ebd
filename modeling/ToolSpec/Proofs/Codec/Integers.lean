import Mathlib.Data.List.Forall2
import ToolSpec.Codec.Keywords
import ToolSpec.Proofs.DeclaredType.Distinct
import ToolSpec.Proofs.Json.Equality
import ToolSpec.Proofs.Json.Rounding

/-!
# Integers that are read

A written integer has 64 bits, with a sign or without one. As a bound or as a listed value it is
read with a sign, and what is beyond that becomes the nearest float. Only if no value of a literal
of integers does, its type is that of integers.
-/

set_option autoImplicit false

namespace ToolSpec

def Fits64 (n : Int) : Prop := Int64.minValue.toInt ≤ n ∧ n < UInt64.size

/-- What an integer becomes: itself if it fits with a sign, else the nearest float. -/
inductive LeftOf (n : Int) : Json → Prop
  | same : n ≤ Int64.maxValue.toInt → LeftOf n (.int n)
  | rounded {x : Binary64} : Int64.maxValue.toInt < n → Binary64.ofInt? n = some x →
      LeftOf n (.float x)

theorem LeftOf.eq_int_iff {n : Int} {w : Json} (h : LeftOf n w) :
    w = .int n ↔ n ≤ Int64.maxValue.toInt := by
  cases h with
  | same hfits => simp [hfits]
  | rounded hbeyond _ => simp [Json.float, Json.int, Int.not_le.mpr hbeyond]

theorem Fits64.exists_of_int {n : Int} (h : Fits64 n) (hbeyond : Int64.maxValue.toInt < n) :
    ∃ x, Binary64.ofInt? n = some x ∧ x.isZero = false := by
  have hmax : Int64.maxValue.toInt = 2^63-1 := by decide
  have hsize : n < 2^64 := h.2
  have hne : n.natAbs ≠ 0 := by omega
  have hlog : n.natAbs.log2 < 64 := (Nat.log2_lt hne).mpr (by omega)
  exact Binary64.exists_of_int (by omega) (by omega)

theorem LeftOf.of_same {n : Int} {v w : Json} (hn : Fits64 n) (h : LeftOf n w)
    (hsame : v.same w = true) : LeftOf n v := by
  cases h with
  | same hfits =>
    cases v with
    | num m =>
      cases m with
      | int m =>
        obtain rfl : m = n := of_decide_eq_true hsame
        exact .same hfits
      | float x => cases hsame
    | _ => cases hsame
  | @rounded x hbeyond hround =>
    obtain ⟨y, hy, hzero⟩ := hn.exists_of_int hbeyond
    obtain rfl := Option.some.inj (hround.symm.trans hy)
    cases v with
    | num m =>
      cases m with
      | int m => cases hsame
      | float z =>
        obtain rfl : z = x := by
          simpa [Json.float, Json.same, Number.same, Binary64.same, hzero] using hsame
        exact .rounded hbeyond hround
    | _ => cases hsame

theorem Number.int64_cases {n : Int} (h : Fits64 n) :
    (n ≤ Int64.maxValue.toInt ∧ ∃ i : Int64, Number.int64? (.int n) = some i ∧ i.toInt = n) ∨
      Int64.maxValue.toInt < n ∧ Number.int64? (.int n) = none ∧
        ∃ x, Binary64.ofInt? n = some x ∧ Number.toDouble (.int n) = .finite x := by
  by_cases hfits : n ≤ Int64.maxValue.toInt
  · refine .inl ⟨hfits, .ofInt n, if_pos ⟨h.1, hfits⟩, Int64.toInt_ofInt_of_le h.1 ?_⟩
    have hmax : Int64.maxValue.toInt = 2^63-1 := by decide
    omega
  · have hbeyond := Int.not_le.mp hfits
    obtain ⟨x, hx, -⟩ := h.exists_of_int hbeyond
    exact .inr ⟨hbeyond, if_neg fun hrange => hfits hrange.2, x, hx, Double.of_int_finite hx⟩

theorem Bound.of_number_int {n : Int} (h : Fits64 n) :
    ∃ w, (Bound.ofNumber (.int n)).keyword? = some w ∧ LeftOf n w := by
  rw [ofNumber]
  rcases Number.int64_cases h with ⟨hfits, i, hi, hn⟩ | ⟨hbeyond, hnone, x, hx, hdouble⟩
  · rw [hi]
    exact ⟨_, congrArg (fun n => some (Json.int n)) hn, .same hfits⟩
  · rw [hnone, hdouble]
    exact ⟨_, rfl, .rounded hbeyond hx⟩

def Scalar.ofInt (n : Int) : Scalar := ofNumber (.int n)

theorem Scalar.of_int_fits {n : Int} (h : Fits64 n) :
    LeftOf n (ofInt n).toJson ∧ ((ofInt n).isFloat = true ↔ Int64.maxValue.toInt < n) ∧
      ((ofInt n).isFloat = false → (ofInt n).typeName? = some "integer") := by
  rw [ofInt, ofNumber]
  rcases Number.int64_cases h with ⟨hfits, i, hi, hn⟩ | ⟨hbeyond, hnone, x, hx, hdouble⟩
  · rw [hi]
    refine ⟨?_, by simpa [isFloat] using hfits, fun _ => rfl⟩
    rw [toJson, hn]
    exact .same hfits
  · rw [hnone, hdouble]
    exact ⟨.rounded hbeyond hx, by simpa [isFloat] using hbeyond, by simp [isFloat]⟩

theorem Scalar.of_json_is_null {v : Json} {s : Scalar} (h : ofJson? v = some s) :
    s.isNull = v.isNull := by
  cases v with
  | num n =>
    obtain rfl := Option.some.inj h
    rw [ofNumber]
    cases n.int64? <;> rfl
  | arr => cases h
  | obj => cases h
  | _ =>
    obtain rfl := Option.some.inj h
    rfl

def Keeps (v w : Json) : Prop := ∀ n, v = .int n → Fits64 n → LeftOf n w

theorem present_keeps {vs : List Json} {values : List Scalar}
    (h : List.Forall₂ (fun v s => Scalar.ofJson? v = some s) vs values) :
    List.Forall₂ Keeps (vs.filter (!·.isNull)) ((values.filter (!·.isNull)).map Scalar.toJson) := by
  induction h with
  | nil => exact .nil
  | @cons v s vs values hread _ ih =>
    rw [List.filter_cons, List.filter_cons, Scalar.of_json_is_null hread]
    split
    · refine .cons ?_ ih
      rintro n rfl hn
      obtain rfl := Option.some.inj hread
      exact (Scalar.of_int_fits hn).1
    · exact ih

theorem integer_values {ns : List Int} {values : List Scalar}
    (h : List.Forall₂ (fun v s => Scalar.ofJson? v = some s) (ns.map Json.int) values) :
    values = ns.map Scalar.ofInt := by
  induction ns generalizing values with
  | nil =>
    cases h
    rfl
  | cons n ns ih =>
    cases h with
    | cons hread hrest =>
      obtain rfl := Option.some.inj hread
      rw [ih hrest]
      rfl

theorem literal_types_integers {values : List Scalar} (hne : values ≠ [])
    (h : ∀ s ∈ values, s.typeName? = some "integer") (hfloat : values.any Scalar.isFloat = false) :
    Resolution.literalTypes values = ["integer"] := by
  rw [Resolution.literalTypes, hfloat]
  refine distinct_of_forall_eq (by simp) ?_ ?_
  · obtain ⟨s, hs⟩ := List.exists_mem_of_ne_nil values hne
    have hlisted : "integer" ∈ values.filterMap Scalar.typeName? :=
      List.mem_filterMap.mpr ⟨s, hs, h s hs⟩
    exact List.ne_nil_of_mem (List.mem_map_of_mem hlisted)
  · intro t ht
    obtain ⟨u, hu, rfl⟩ := List.mem_map.mp ht
    obtain ⟨s, hs, hsu⟩ := List.mem_filterMap.mp hu
    exact (Option.some.inj ((h s hs).symm.trans hsu)).symm

theorem integer_not_mem_literal_types {values : List Scalar}
    (h : values.any Scalar.isFloat = true) :
    "integer" ∉ Resolution.literalTypes values := by
  intro hmem
  obtain ⟨t, -, ht⟩ := List.mem_map.mp (distinct_subset hmem)
  rw [if_pos h] at ht
  split at ht
  · simp at ht
  · contradiction

/-- A literal of integers has integers for its type exactly if none of them becomes a float. -/
theorem integer_literal_type {ns : List Int} (hne : ns ≠ []) (hfit : ∀ n ∈ ns, Fits64 n) :
    ∃ t, (Resolution.literal (ns.map Scalar.ofInt)).fragment.lookup "type" = some t ∧
      (t = .str "integer" ↔ ∀ n ∈ ns, n ≤ Int64.maxValue.toInt) := by
  have hpresent : (ns.map Scalar.ofInt).filter (!·.isNull) = ns.map Scalar.ofInt := by
    rw [List.filter_eq_self]
    intro s hs
    obtain ⟨n, -, rfl⟩ := List.mem_map.mp hs
    have hread : Scalar.ofJson? (.int n) = some (Scalar.ofInt n) := rfl
    rw [Scalar.of_json_is_null hread]
    rfl
  have hfloat : (ns.map Scalar.ofInt).any Scalar.isFloat = true ↔
      ∃ n ∈ ns, Int64.maxValue.toInt < n := by
    rw [List.any_map, List.any_eq_true]
    exact exists_congr fun n => and_congr_right fun hn => (Scalar.of_int_fits (hfit n hn)).2.1
  rw [Resolution.literal, hpresent, if_neg (by simpa using hne)]
  refine ⟨_, rfl, ?_⟩
  cases hany : (ns.map Scalar.ofInt).any Scalar.isFloat with
  | false =>
    have hall : ∀ n ∈ ns, n ≤ Int64.maxValue.toInt := by simpa [hany] using hfloat
    have htypes : ∀ s ∈ ns.map Scalar.ofInt, s.typeName? = some "integer" := by
      intro s hs
      have hs' : s.isFloat = false := by simpa using List.any_eq_false.mp hany s hs
      obtain ⟨n, hn, rfl⟩ := List.mem_map.mp hs
      exact (Scalar.of_int_fits (hfit n hn)).2.2 hs'
    rw [literal_types_integers (by simpa using hne) htypes hany]
    exact iff_of_true rfl hall
  | true =>
    have hsome : ¬ ∀ n ∈ ns, n ≤ Int64.maxValue.toInt := by simpa [hany] using hfloat
    refine iff_of_false (fun htype => integer_not_mem_literal_types hany ?_) hsome
    unfold Resolution.literalType at htype
    split at htype
    · rename_i t ht
      rw [ht, Json.str.inj htype]
      exact List.mem_singleton.mpr rfl
    · cases htype

theorem Json.eq_str_iff_of_same {v w : Json} (h : v.same w = true) (t : String) :
    v = .str t ↔ w = .str t := by
  cases v with
  | str u =>
    cases w with
    | str u' =>
      obtain rfl : u = u' := of_decide_eq_true h
      rfl
    | _ => cases h
  | _ => cases w <;> simp [same] at h ⊢

theorem keeps_of_same {vs us ws : List Json} (h : List.Forall₂ Keeps vs ws)
    (hsame : List.Forall₂ (fun u w => u.same w = true) us ws) : List.Forall₂ Keeps vs us := by
  induction h generalizing us with
  | nil =>
    cases hsame
    exact .nil
  | cons hkeeps _ ih =>
    cases hsame with
    | cons hequal hrest =>
      exact .cons (fun n hn hfit => (hkeeps n hn hfit).of_same hfit hequal) (ih hrest)

/-- The schema of a literal lists its values, and integers have the type of integers exactly if none
of them becomes a float. -/
structure KeepsLiteral (vs : List Json) (w : Json) : Prop where
  listed : ∃ ws, w.get? "enum" = some (.arr ws) ∧ List.Forall₂ Keeps (vs.filter (!·.isNull)) ws
  type : ∀ ns : List Int, vs = ns.map Json.int → (∀ n ∈ ns, Fits64 n) →
    (w.get? "type" = some (.str "integer") ↔ ∀ n ∈ ns, n ≤ Int64.maxValue.toInt)

theorem literal_keeps {vs : List Json} {values : List Scalar} {w : Json}
    (hvalues : List.Forall₂ (fun v s => Scalar.ofJson? v = some s) vs values)
    (hint : ∃ n, .int n ∈ vs)
    (hkeys : ∀ key y, (Resolution.literal values).fragment.lookup key = some y →
      ∃ x, w.get? key = some x ∧ x.same y = true) : KeepsLiteral vs w := by
  obtain ⟨n, hn⟩ := hint
  constructor
  · have hpresent : values.filter (!·.isNull) ≠ [] := by
      have hlength := (present_keeps hvalues).length_eq
      rw [List.length_map] at hlength
      exact List.ne_nil_of_length_pos
        (hlength ▸ List.length_pos_of_mem (List.mem_filter.mpr ⟨hn, rfl⟩))
    have henum : (Resolution.literal values).fragment.lookup "enum" =
        some (.arr ((values.filter (!·.isNull)).map Scalar.toJson)) := by
      rw [Resolution.literal, if_neg hpresent]
      rfl
    obtain ⟨x, hx, hsame⟩ := hkeys "enum" _ henum
    cases x with
    | arr us => exact ⟨us, hx, keeps_of_same (present_keeps hvalues) ((Json.same_arr _ _).mp hsame)⟩
    | _ => cases hsame
  · rintro ns rfl hfit
    obtain rfl := integer_values hvalues
    have hne : ns ≠ [] := by
      rintro rfl
      simp at hn
    obtain ⟨t, ht, hiff⟩ := integer_literal_type hne hfit
    obtain ⟨x, hx, hsame⟩ := hkeys "type" t ht
    rw [hx, ← hiff, Option.some_inj]
    exact Json.eq_str_iff_of_same hsame "integer"

end ToolSpec
