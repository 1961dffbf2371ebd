import ToolSpec.Proofs.DeclaredType.Meaning

/-!
# Inferred types of listed values

A literal type lists its values that are not null next to the types they have. Integers count as
numbers if a float is listed. So the types are those of the values, each of them once, in the order
in which the values first need them.
-/

set_option autoImplicit false

namespace ToolSpec

namespace Json

def typeName : Json → String
  | .null => "null"
  | .bool _ => "boolean"
  | .num (.int _) => "integer"
  | .num (.float _) => "number"
  | .str _ => "string"
  | .arr _ => "array"
  | .obj _ => "object"

def isOf (t : String) (v : Json) : Bool := v.isOfType Reading.exact.integral t

theorem is_of_iff (t : String) (v : Json) :
    v.isOf t = true ↔ t = v.typeName ∨ v.typeName = "integer" ∧ t = "number" := by
  cases v with
  | num n => cases n <;> simp [isOf, isOfType, Reading.exact, typeName, or_comm]
  | _ => simp [isOf, isOfType, typeName]

end Json

/-- Types that fit listed values exactly, in the order of the first value of each type. -/
structure FittingTypes (types : List String) (values : List Json) : Prop where
  covers : ∀ v ∈ values, ∃ t ∈ types, v.isOf t = true
  attained : ∀ t ∈ types, ∃ v ∈ values, v.typeName = t
  nodup : types.Nodup
  oneNumeric : ¬ ("integer" ∈ types ∧ "number" ∈ types)
  ordered : types.Pairwise fun t u => values.findIdx (Json.isOf t) < values.findIdx (Json.isOf u)

/-- A single type stands for itself, any other number of types is a list. -/
def ListsTypes (types : List String) (v : Json) : Prop :=
  (∃ t, types = [t] ∧ v = .str t) ∨ types.length ≠ 1 ∧ v = .strs types

namespace LiteralTypes

def hasFloat (values : List Json) : Bool := values.any (·.typeName = "number")

/-- The type that a value is listed under: a float among the values makes an integer a number. -/
def folded (values : List Json) (v : Json) : String :=
  if hasFloat values && v.typeName = "integer" then "number" else v.typeName

variable {values : List Json}

theorem has_float_iff : hasFloat values = true ↔ ∃ v ∈ values, v.typeName = "number" := by
  simp [hasFloat]

theorem folded_cases (values : List Json) (v : Json) :
    folded values v = v.typeName ∧ (hasFloat values = true → v.typeName ≠ "integer") ∨
      folded values v = "number" ∧ v.typeName = "integer" ∧ hasFloat values = true := by
  unfold folded
  cases hasFloat values <;> by_cases h : v.typeName = "integer" <;> simp [h]

theorem is_of_folded (v : Json) : v.isOf (folded values v) = true := by
  rw [Json.is_of_iff]
  rcases folded_cases values v with ⟨h, -⟩ | ⟨h, hv, -⟩
  · exact .inl h
  · exact .inr ⟨hv, h⟩

theorem exists_type_name {v : Json} (hv : v ∈ values) :
    ∃ w ∈ values, w.typeName = folded values v := by
  rcases folded_cases values v with ⟨h, -⟩ | ⟨h, -, hfloat⟩
  · exact ⟨v, hv, h.symm⟩
  · rw [h]
    exact has_float_iff.mp hfloat

theorem folded_ne_integer (h : hasFloat values = true) (v : Json) : folded values v ≠ "integer" := by
  rcases folded_cases values v with ⟨hv, hne⟩ | ⟨hv, -, -⟩
  · rw [hv]
    exact hne h
  · simp [hv]

theorem is_of_eq_folded {u v : Json} (hu : u ∈ values) :
    v.isOf (folded values u) = decide (folded values v = folded values u) := by
  rw [Bool.eq_iff_iff, decide_eq_true_iff]
  constructor
  · rw [Json.is_of_iff]
    rcases folded_cases values v with ⟨hv, hne⟩ | ⟨hv, hinteger, hfloat⟩
    · rintro (h | ⟨hinteger, hnumber⟩)
      · exact hv.trans h.symm
      · obtain ⟨w, hw, hwu⟩ := exists_type_name hu
        exact absurd hinteger (hne (has_float_iff.mpr ⟨w, hw, hwu.trans hnumber⟩))
    · rintro (h | ⟨-, hnumber⟩)
      · exact absurd (h.trans hinteger) (folded_ne_integer hfloat u)
      · exact hv.trans hnumber.symm
  · intro h
    rw [← h]
    exact is_of_folded v

section

variable {types : List String}
  (h : Firsts (fun t u : String => decide (t = u)) (values.map (folded values)) types)
include h

theorem mem_listed {t : String} (ht : t ∈ types) : ∃ v ∈ values, folded values v = t :=
  List.mem_map.mp (h.mem ht)

theorem has_float_of_number (ht : "number" ∈ types) : hasFloat values = true := by
  obtain ⟨v, hv, hnumber⟩ := mem_listed h ht
  obtain ⟨w, hw, hwv⟩ := exists_type_name hv
  exact has_float_iff.mpr ⟨w, hw, hwv.trans hnumber⟩

theorem find_idx_folded {t : String} (ht : t ∈ types) :
    (values.map (folded values)).findIdx (fun u => decide (u = t)) =
      values.findIdx (Json.isOf t) := by
  obtain ⟨v, hv, rfl⟩ := mem_listed h ht
  rw [List.findIdx_map]
  congr 1
  funext u
  exact (is_of_eq_folded hv).symm

theorem fitting : FittingTypes types values where
  covers v hv := by
    obtain ⟨t, ht, heq⟩ := h.covers _ (List.mem_map_of_mem hv)
    rw [of_decide_eq_true heq] at ht
    exact ⟨folded values v, ht, is_of_folded v⟩
  attained t ht := by
    obtain ⟨v, hv, rfl⟩ := mem_listed h ht
    exact exists_type_name hv
  nodup := h.apart.imp of_decide_eq_false
  oneNumeric := by
    rintro ⟨hinteger, hnumber⟩
    obtain ⟨v, -, hv⟩ := mem_listed h hinteger
    exact folded_ne_integer (has_float_of_number h hnumber) v hv
  ordered := by
    apply h.ordered.imp_of_mem
    intro t u ht hu hlt
    rwa [find_idx_folded h ht, find_idx_folded h hu] at hlt

end

theorem type_name_eq {s : Scalar} (hf : s.isFinite = true) (hn : s.isNull = false) :
    s.typeName? = some s.toJson.typeName := by
  cases s with
  | null => simp [Scalar.isNull] at hn
  | number x =>
    cases x <;> simp only [Scalar.isFinite, Double.finite?, Option.isSome, reduceCtorEq] at hf
    rfl
  | _ => rfl

theorem is_float_eq {s : Scalar} (hf : s.isFinite = true) :
    s.isFloat = decide (s.toJson.typeName = "number") := by
  cases s with
  | number x =>
    cases x <;> simp only [Scalar.isFinite, Double.finite?, Option.isSome, reduceCtorEq] at hf
    rfl
  | _ => rfl

theorem literal_types_eq {present : List Scalar} (hfinite : ∀ s ∈ present, s.isFinite = true)
    (hnull : ∀ s ∈ present, s.isNull = false) :
    Resolution.literalTypes present =
      distinct (· = ·) ((present.map Scalar.toJson).map (folded (present.map Scalar.toJson))) := by
  have htypes : present.filterMap Scalar.typeName? = present.map (·.toJson.typeName) := by
    rw [← List.filterMap_eq_map]
    exact List.filterMap_congr fun s hs => type_name_eq (hfinite s hs) (hnull s hs)
  have hfloat : present.any Scalar.isFloat = hasFloat (present.map Scalar.toJson) := by
    rw [hasFloat, List.any_map, Bool.eq_iff_iff, List.any_eq_true, List.any_eq_true]
    apply exists_congr
    intro s
    apply and_congr_right
    intro hs
    rw [is_float_eq (hfinite s hs), Function.comp_apply]
  have hfolded : ∀ (es : List Json) (v : Json), folded es v =
      (if hasFloat es = true then fun t => if t = "integer" then "number" else t else id)
        v.typeName := by
    intro es v
    unfold folded
    cases hasFloat es <;> simp
  rw [Resolution.literalTypes, htypes, hfloat, List.map_map, List.map_map]
  simp only [Function.comp_def, hfolded]

theorem lists_types_literal_type (types : List String) :
    ListsTypes types (Resolution.literalType types) := by
  match types with
  | [] => exact .inr ⟨by simp, rfl⟩
  | [t] => exact .inl ⟨t, rfl, rfl⟩
  | _::_::_ => exact .inr ⟨by simp, rfl⟩

end LiteralTypes

/-- A literal with finite floats and a value besides null lists the values that are not null, in
their order, and types that fit them: one type stands alone and several in a list. -/
theorem DeclaredType.literal_types_fit {values : List Scalar}
    (hfinite : ∀ s ∈ values, s.isFinite = true) (hpresent : ∃ s ∈ values, s.isNull = false) :
    let listed := (values.filter (!·.isNull)).map Scalar.toJson
    ∃ types type, (DeclaredType.literal values).resolve.fragment =
        [("type", type), ("enum", .arr listed)] ∧
      ListsTypes types type ∧ FittingTypes types listed := by
  intro listed
  let types := distinct (fun t u : String => decide (t = u)) (listed.map (LiteralTypes.folded listed))
  have hfirsts : Firsts (fun t u : String => decide (t = u))
      (listed.map (LiteralTypes.folded listed)) types := distinct_firsts (by simp) (by simp)
  have htypes : Resolution.literalTypes (values.filter (!·.isNull)) = types :=
    LiteralTypes.literal_types_eq (fun s hs => hfinite s (List.mem_of_mem_filter hs))
      (fun s hs => by simpa using (List.mem_filter.mp hs).2)
  have hne : values.filter (!·.isNull) ≠ [] := by
    obtain ⟨s, hs, hn⟩ := hpresent
    exact List.ne_nil_of_mem (List.mem_filter.mpr ⟨hs, by simp [hn]⟩)
  refine ⟨types, _, ?_, LiteralTypes.lists_types_literal_type types, LiteralTypes.fitting hfirsts⟩
  rw [resolve, Resolution.literal, if_neg hne, htypes]

/-- A float after names and an integer. -/
theorem DeclaredType.counts_and_names_fit :
    let values : List Scalar := [.integer 1, .null, .string "a", .number (.finite (.zero true)),
      .string "b"]
    let listed : List Json := [.int 1, .str "a", .float (.zero true), .str "b"]
    (∀ s ∈ values, s.isFinite = true) ∧ (∃ s ∈ values, s.isNull = false) ∧
      ∃ types type, (DeclaredType.literal values).resolve.fragment =
          [("type", type), ("enum", .arr listed)] ∧
        ListsTypes types type ∧ FittingTypes types listed := by
  intro values listed
  have hfinite : ∀ s ∈ values, s.isFinite = true := by decide
  have hpresent : ∃ s ∈ values, s.isNull = false := ⟨.integer 1, by simp [values], rfl⟩
  exact ⟨hfinite, hpresent, literal_types_fit hfinite hpresent⟩

end ToolSpec
