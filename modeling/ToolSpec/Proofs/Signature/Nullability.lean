import ToolSpec.Proofs.DeclaredType.Keys
import ToolSpec.Proofs.Signature.Requiredness

/-!
# Types that admit null

A type admits null if one of its alternatives is null or a literal that lists null. The verdict of
its resolution says the same but for two kinds of type: null alone, which gets no verdict, and an
empty literal, which gets one although it lists nothing. A parameter that says nothing else about
it is required accordingly.
-/

set_option autoImplicit false

namespace ToolSpec

namespace DeclaredType

mutual

/-- The type itself or an alternative of it passes the test, metadata apart. -/
def offers (p : DeclaredType → Bool) : DeclaredType → Bool
  | .annotated a _ => offers p a
  | .union as => someOffers p as
  | a => p a

def someOffers (p : DeclaredType → Bool) : List DeclaredType → Bool
  | [] => false
  | a::rest => offers p a || someOffers p rest

end

def isOrListsNull : DeclaredType → Bool
  | .primitive .null => true
  | .literal values => values.any Scalar.isNull
  | _ => false

def listsNothing : DeclaredType → Bool
  | .literal values => values.isEmpty
  | _ => false

def admitsNull : DeclaredType → Bool := offers isOrListsNull

theorem offers_union (p : DeclaredType → Bool) (as : List DeclaredType) :
    offers p (.union as) = as.any (offers p) := by
  rw [offers]
  induction as with
  | nil => rfl
  | cons a rest ih => simp [someOffers, ih]

theorem offers_of_is_null {a : DeclaredType} (h : a.isNull = true) (p : DeclaredType → Bool) :
    a.offers p = p null := by
  induction a using induct with
  | primitive kind =>
    cases kind <;> simp only [isNull, reduceCtorEq] at h
    rfl
  | annotated a items ih => exact ih h
  | _ => simp [isNull] at h

theorem admits_null_of_is_null {a : DeclaredType} (h : a.isNull = true) : a.admitsNull = true :=
  offers_of_is_null h isOrListsNull

theorem literal_nullable (values : List Scalar) :
    (Resolution.literal values).nullable = (values.any Scalar.isNull || values.isEmpty) := by
  rw [Resolution.literal]
  by_cases hpresent : values.filter (!·.isNull) = []
  · rw [if_pos hpresent]
    cases values with
    | nil => rfl
    | cons s rest =>
      have hs : s.isNull = true := by
        simpa using List.filter_eq_nil_iff.mp hpresent s List.mem_cons_self
      simp [hs]
  · have hne : values.isEmpty = false := by
      cases values <;> simp_all
    rw [if_neg hpresent, hne, Bool.or_false]

theorem union_nullable (as : List DeclaredType) :
    (DeclaredType.union as).resolve.nullable =
      as.any fun a => a.isNull || a.resolve.nullable := by
  rw [resolve, Resolution.union]
  induction as with
  | nil => rfl
  | cons a rest ih =>
    cases h : a.isNull with
    | true => simp [h]
    | false =>
      rw [resolveMembers, h]
      simp [h, ← ih, Bool.or_left_comm]

theorem nullable_iff (a : DeclaredType) :
    a.resolve.nullable = true ↔
      a.isNull = false ∧ a.admitsNull = true ∨ a.offers listsNothing = true := by
  induction a using induct with
  | primitive kind => cases kind <;> decide
  | union as ih =>
    -- Null is not a union, and as a member it counts as one that admits null.
    have hmember : ∀ a ∈ as, (a.isNull || a.resolve.nullable) = true ↔
        a.admitsNull = true ∨ a.offers listsNothing = true := by
      intro a ha
      rw [Bool.or_eq_true, ih a ha]
      cases hnull : a.isNull with
      | true => simp [admits_null_of_is_null hnull]
      | false => simp
    rw [union_nullable, admitsNull, offers_union, offers_union]
    simp only [isNull, List.any_eq_true, true_and, ← exists_or, ← and_or_left]
    exact exists_congr fun a => and_congr_right (hmember a)
  | literal values =>
    rw [resolve, literal_nullable, Bool.or_eq_true]
    simp [isNull, admitsNull, offers, isOrListsNull, listsNothing]
  | annotated a items ih =>
    rw [resolve_annotated, ih]
    rfl
  | _ => simp [resolve, Resolution.plain, admitsNull, offers, isOrListsNull, listsNothing]

/-- The type is not null alone, and it has no empty literal among its alternatives unless null is
one of them. -/
structure Settled (a : DeclaredType) : Prop where
  notNull : a.isNull = false
  listed : a.offers listsNothing = true → a.admitsNull = true

theorem settled_iff (a : DeclaredType) :
    a.Settled ↔ (a.resolve.nullable = true ↔ a.admitsNull = true) := by
  rw [nullable_iff]
  constructor
  · rintro ⟨hnull, hlisted⟩
    constructor
    · rintro (⟨-, hadmits⟩ | hnothing)
      · exact hadmits
      · exact hlisted hnothing
    · exact fun hadmits => .inl ⟨hnull, hadmits⟩
  · intro h
    refine ⟨?_, fun hnothing => h.mp (.inr hnothing)⟩
    rw [← Bool.not_eq_true]
    intro hnull
    -- Null has no empty literal among its alternatives, so that nothing gives it a verdict.
    have hnothing : a.offers listsNothing = false := offers_of_is_null hnull listsNothing
    simp [hnull, hnothing, admits_null_of_is_null hnull] at h

end DeclaredType

open DeclaredType in
/-- The verdict on a type tells whether the type admits null exactly if null does not stand alone and
no empty literal is counted, and so it is with a parameter of the type that has no default and whose
keywords do not say whether it is required. -/
theorem Parameter.required_follows_null (a : DeclaredType) :
    ((a.resolve.nullable = true ↔ a.admitsNull = true) ↔ a.Settled) ∧
    ∀ (p : Parameter) (docs : Docstring) (placeholders : Bool), p.type = a → p.default = none →
      (Parameter.keywords a.metadata).required = none →
      (((p.spec docs placeholders).compile.required = true ↔ a.admitsNull = false) ↔
        a.Settled) := by
  refine ⟨(settled_iff a).symm, ?_⟩
  rintro p docs placeholders rfl hdefault hkeyword
  have hverdict : (p.spec docs placeholders).compile.required = true ↔
      p.type.resolve.nullable = false := by
    rw [p.required_compile, Demanded, hkeyword]
    simp [hdefault]
  rw [hverdict, settled_iff]
  cases p.type.resolve.nullable <;> cases p.type.admitsNull <;> decide

/-- An empty literal next to a described null. -/
theorem Parameter.described_null_required :
    let a : DeclaredType := .union [.literal [], .annotated .null [.docTag "none"]]
    let p : Parameter := ⟨"unit", .annotated a [.field .empty], none⟩
    ((p.type.resolve.nullable = true ↔ p.type.admitsNull = true) ↔ p.type.Settled) ∧
      p.default = none ∧ (Parameter.keywords p.type.metadata).required = none ∧
      (((p.spec .empty false).compile.required = true ↔ p.type.admitsNull = false) ↔
        p.type.Settled) := by
  intro a p
  obtain ⟨htype, hparameter⟩ := Parameter.required_follows_null p.type
  exact ⟨htype, rfl, rfl, hparameter p .empty false rfl rfl rfl⟩

/-- Null alone admits null without the verdict, and a literal of nothing has it without null. -/
theorem DeclaredType.null_alone_misjudged :
    ¬ (null.resolve.nullable = true ↔ null.admitsNull = true) ∧
      ¬ ((literal []).resolve.nullable = true ↔ (literal []).admitsNull = true) := by
  decide

end ToolSpec
