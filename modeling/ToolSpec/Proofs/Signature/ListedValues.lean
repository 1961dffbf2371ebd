import ToolSpec.Proofs.DeclaredType.Alternatives
import ToolSpec.Proofs.DeclaredType.Meaning
import ToolSpec.Proofs.Signature.Sources

/-!
# Null among the allowed values

The values that a parameter allows are listed by its keywords or by its type, if that is a literal.
Both lists lose their nulls before the rest is written as JSON. A float that is not finite is not
null, but it is written as null, so that null is among the values if and only if such a float is.
-/

set_option autoImplicit false

namespace ToolSpec

namespace Scalar

theorem to_json_eq_null (s : Scalar) : s.toJson = .null ↔ s.isNull = true ∨ s.isFinite = false := by
  cases s with
  | number x =>
    cases x <;> simp [toJson, Json.ofDouble, Json.float, isNull, isFinite, Double.finite?]
  | _ => simp [toJson, Json.int, isNull, isFinite]

theorem is_finite_of_is_null {s : Scalar} (h : s.isNull = true) : s.isFinite = true := by
  cases s <;> first | rfl | simp [isNull] at h

theorem null_not_mem_present (values : List Scalar) :
    Json.null ∉ (values.filter (!·.isNull)).map toJson ↔ ∀ s ∈ values, s.isFinite = true := by
  simp only [List.mem_map, List.mem_filter, to_json_eq_null, not_exists, not_and, not_or]
  constructor
  · intro h s hs
    cases hnull : s.isNull with
    | true => exact is_finite_of_is_null hnull
    | false => simpa using (h s ⟨hs, by simp [hnull]⟩).2
  · rintro h s ⟨hs, hpresent⟩
    exact ⟨by simpa using hpresent, by simp [h s hs]⟩

end Scalar

namespace DeclaredType

/-- The type is the literal of the values, in layers or next to null as it may be. -/
inductive Lists : DeclaredType → List Scalar → Prop
  | literal (values : List Scalar) : Lists (.literal values) values
  | layer {a : DeclaredType} {values : List Scalar} (items : List MetadataItem) :
      Lists a values → Lists (.annotated a items) values
  | optional {a : DeclaredType} {values : List Scalar} {before after : List DeclaredType} :
      (∀ n ∈ before ++ after, n.isNull = true) → Lists a values →
      Lists (.union (before ++ a::after)) values

namespace Lists

variable {a : DeclaredType} {values : List Scalar}

theorem is_null (h : a.Lists values) : a.isNull = false := by
  induction h with
  | literal => rfl
  | layer _ _ ih => exact ih
  | optional => rfl

theorem fragment (h : a.Lists values) :
    a.resolve.fragment = (Resolution.literal values).fragment := by
  induction h with
  | literal values => rw [resolve]
  | layer items _ ih => rw [resolve_annotated, ih]
  | optional hnull ha ih => rw [union_single hnull ha.is_null, ih]

theorem lookup_enum (h : a.Lists values) :
    a.resolve.fragment.lookup "enum" =
      ((some ((values.filter (!·.isNull)).map Scalar.toJson)).filter (· ≠ [])).map .arr := by
  rw [h.fragment, Resolution.literal]
  by_cases hnone : values.filter (!·.isNull) = []
  · rw [if_pos hnone, hnone]
    rfl
  · rw [if_neg hnone]
    simp [Fields.lookup_cons_ite, Option.filter, hnone]

end Lists

end DeclaredType

namespace Parameter

/-- The scalars that the allowed values are written from, the classes of names apart. -/
inductive ListedBy (p : Parameter) (values : List Scalar) : Prop
  | keyword : lastSet? Keywords.enum p.type.metadata = some values → ListedBy p values
  | type : lastSet? Keywords.enum p.type.metadata = none → p.type.Lists values → ListedBy p values

theorem allowed_without_class {a : DeclaredType} (h : ∀ i ∈ a.metadata, i.enumClass? = none) :
    allowed a = ((lastSet? Keywords.enum a.metadata).map
      fun vs => (vs.filter (!·.isNull)).map Scalar.toJson).or
        ((a.resolve.fragment.lookup "enum").bind Json.items?) := by
  rw [allowed, List.findSome?_eq_none_iff.mpr h, ← keywords_last Keywords.enum rfl fun _ _ => rfl]
  rfl

namespace ListedBy

variable {p : Parameter} {values : List Scalar}

theorem allowed_cases (h : p.ListedBy values)
    (hclass : ∀ i ∈ p.type.metadata, i.enumClass? = none) :
    allowed p.type = some ((values.filter (!·.isNull)).map Scalar.toJson) ∨
      allowed p.type = none ∧ p.type.resolve.fragment.lookup "enum" = none ∧
        (values.filter (!·.isNull)).map Scalar.toJson = [] := by
  rw [allowed_without_class hclass]
  cases h with
  | keyword hset =>
    rw [hset]
    exact .inl rfl
  | type hset hlists =>
    rw [hset, hlists.lookup_enum]
    by_cases hnone : (values.filter (!·.isNull)).map Scalar.toJson = []
    · rw [hnone]
      exact .inr ⟨rfl, rfl, rfl⟩
    · exact .inl (by simp [Option.filter, hnone, Json.items?])

theorem null_not_mem_allowed (h : p.ListedBy values)
    (hclass : ∀ i ∈ p.type.metadata, i.enumClass? = none) :
    (∀ vs ∈ allowed p.type, Json.null ∉ vs) ↔ ∀ s ∈ values, s.isFinite = true := by
  rw [← Scalar.null_not_mem_present]
  rcases h.allowed_cases hclass with hsome | ⟨hnone, -, hempty⟩
  · simp [hsome]
  · simp [hnone, hempty]

theorem property_enum (h : p.ListedBy values)
    (hitems : ∀ i ∈ p.type.metadata, i.enumClass? = none ∧ i.extra? = none) (docs : Docstring)
    (placeholders : Bool) :
    (p.spec docs placeholders).compile.schema.get? "enum" = (allowed p.type).map .arr := by
  have hextra : lastExtra? "enum" p.type.metadata = none := by
    rw [lastExtra?, last?, List.findSome?_eq_none_iff]
    intro i hi
    rw [(hitems i (List.mem_reverse.mp hi)).2, Option.bind_none]
  rw [get_compile fun fields hmem => by simpa [MetadataItem.extra?] using (hitems _ hmem).2,
    hextra, Option.none_or]
  change (listed? p.type.metadata).or (p.type.resolve.fragment.lookup "enum") = _
  rw [← allowed_or]
  rcases h.allowed_cases fun i hi => (hitems i hi).1 with hsome | ⟨hnone, hfragment, -⟩
  · rw [hsome]
    rfl
  · rw [hnone, hfragment]
    rfl

end ListedBy

/-- A parameter without classes of names and extra items, whose keywords list scalars or whose type
is a literal, perhaps next to null. Its property lists the values that it allows, and null is not
among them exactly if all listed floats are finite. -/
theorem listed_without_null_iff {p : Parameter} {values : List Scalar} (h : p.ListedBy values)
    (hitems : ∀ i ∈ p.type.metadata, i.enumClass? = none ∧ i.extra? = none)
    (docs : Docstring) (placeholders : Bool) :
    let spec := p.spec docs placeholders
    spec.compile.schema.get? "enum" = spec.enum.map .arr ∧
      ((∀ vs ∈ spec.enum, Json.null ∉ vs) ↔ ∀ s ∈ values, s.isFinite = true) :=
  ⟨h.property_enum hitems docs placeholders, h.null_not_mem_allowed fun i hi => (hitems i hi).1⟩

/-- Optional levels, two of them in a described literal, and keywords that list nothing. -/
theorem optional_levels_without_null :
    let levels : List Scalar := [.null, .integer 1, .number (.finite (.zero false))]
    let a : DeclaredType := .union [.annotated .null [], .annotated (.literal levels) [.enumClass []]]
    let p : Parameter := ⟨"level", .annotated (.annotated a [.docTag "level"]) [.field .empty], none⟩
    p.ListedBy levels ∧ (∀ i ∈ p.type.metadata, i.enumClass? = none ∧ i.extra? = none) ∧
      (p.spec .empty false).compile.schema.get? "enum" = (p.spec .empty false).enum.map .arr ∧
      ((∀ vs ∈ (p.spec .empty false).enum, Json.null ∉ vs) ↔ ∀ s ∈ levels, s.isFinite = true) := by
  intro levels a p
  have hlists : a.Lists levels := by
    refine @DeclaredType.Lists.optional (.annotated (.literal levels) [.enumClass []]) levels
      [.annotated .null []] [] ?_ (.layer _ (.literal levels))
    simp [DeclaredType.isNull, DeclaredType.null]
  have hlisted : p.ListedBy levels := .type rfl (.layer _ (.layer _ hlists))
  have hitems : ∀ i ∈ p.type.metadata, i.enumClass? = none ∧ i.extra? = none := by
    simp [p, a, DeclaredType.metadata, MetadataItem.enumClass?, MetadataItem.extra?]
  exact ⟨hlisted, hitems, listed_without_null_iff hlisted hitems .empty false⟩

/-- A float that is no number is no null, but it is listed as null. -/
theorem nan_listed_as_null :
    let p : Parameter := ⟨"level", .optional (.literal [.number .nan, .integer 1]), none⟩
    p.ListedBy [.number .nan, .integer 1] ∧
      (∀ i ∈ p.type.metadata, i.enumClass? = none ∧ i.extra? = none) ∧
      (p.spec .empty false).enum = some [.null, .int 1] ∧
      (p.spec .empty false).compile.schema.get? "enum" = some (.arr [.null, .int 1]) := by
  intro p
  have hlists : p.type.Lists [.number .nan, .integer 1] := by
    refine @DeclaredType.Lists.optional (.literal _) _ [] [.null] ?_ (.literal _)
    simp [DeclaredType.isNull, DeclaredType.null]
  have hlisted : p.ListedBy [.number .nan, .integer 1] := .type rfl hlists
  have hitems : ∀ i ∈ p.type.metadata, i.enumClass? = none ∧ i.extra? = none := by
    simp [p, DeclaredType.optional, DeclaredType.metadata]
  have henum : (p.spec .empty false).enum = some [.null, .int 1] := rfl
  have hproperty := hlisted.property_enum hitems .empty false
  exact ⟨hlisted, hitems, henum, hproperty.trans (congrArg (Option.map Json.arr) henum)⟩

end Parameter

end ToolSpec
