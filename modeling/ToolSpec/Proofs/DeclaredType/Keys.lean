import ToolSpec.Proofs.DeclaredType.Distinct
import ToolSpec.Proofs.Json.Keys

/-!
# Distinct keys in resolved types

A fragment takes over the schemas that were resolved ahead of time. If their objects hold every key
once, so do those of the fragment.
-/

set_option autoImplicit false

namespace ToolSpec

namespace DeclaredType

theorem induct {motive : DeclaredType → Prop} (primitive : ∀ kind, motive (.primitive kind))
    (array : ∀ a, motive a → motive (.array a)) (objectMap : ∀ a, motive a → motive (.objectMap a))
    (tuple : ∀ as, (∀ a ∈ as, motive a) → motive (.tuple as))
    (union : ∀ as, (∀ a ∈ as, motive a) → motive (.union as))
    (literal : ∀ values, motive (.literal values)) (enumRef : ∀ names, motive (.enumRef names))
    (annotated : ∀ a items, motive a → motive (.annotated a items))
    (schema : ∀ value, motive (.schema value)) (unknown : motive .unknown) : ∀ a, motive a
  | .primitive kind => primitive kind
  | .array a => array a
    (induct primitive array objectMap tuple union literal enumRef annotated schema unknown a)
  | .objectMap a => objectMap a
    (induct primitive array objectMap tuple union literal enumRef annotated schema unknown a)
  | .tuple as => tuple as fun a _ =>
    induct primitive array objectMap tuple union literal enumRef annotated schema unknown a
  | .union as => union as fun a _ =>
    induct primitive array objectMap tuple union literal enumRef annotated schema unknown a
  | .literal values => literal values
  | .enumRef names => enumRef names
  | .annotated a items => annotated a items
    (induct primitive array objectMap tuple union literal enumRef annotated schema unknown a)
  | .schema value => schema value
  | .unknown => unknown
termination_by a => sizeOf a
decreasing_by
  all_goals simp only [DeclaredType.array.sizeOf_spec, DeclaredType.objectMap.sizeOf_spec,
    DeclaredType.tuple.sizeOf_spec, DeclaredType.union.sizeOf_spec,
    DeclaredType.annotated.sizeOf_spec]
  all_goals first
    | omega
    | have := List.sizeOf_lt_of_mem ‹a ∈ as›
      omega

mutual

def wellKeyed : DeclaredType → Bool
  | .array a | .annotated a _ => wellKeyed a
  | .tuple as | .union as => eachWellKeyed as
  | .schema value => value.wellKeyed
  | _ => true

def eachWellKeyed : List DeclaredType → Bool
  | [] => true
  | a::rest => wellKeyed a && eachWellKeyed rest

end

theorem each_well_keyed_iff (as : List DeclaredType) :
    eachWellKeyed as = true ↔ ∀ a ∈ as, a.wellKeyed = true := by
  induction as with
  | nil => simp [eachWellKeyed]
  | cons a rest ih => simp [eachWellKeyed, ih]

end DeclaredType

namespace Json

theorem well_keyed_single (key : String) (v : Json) :
    (Json.obj [(key, v)]).wellKeyed = v.wellKeyed := by
  simp [wellKeyed, valuesWellKeyed, Fields.keys]

theorem well_keyed_pair {key key' : String} (h : key ≠ key') (v w : Json) :
    (Json.obj [(key, v), (key', w)]).wellKeyed = (v.wellKeyed && w.wellKeyed) := by
  simp [wellKeyed, valuesWellKeyed, Fields.keys, h]

theorem well_keyed_strs (names : List String) : (strs names).wellKeyed = true := by
  rw [strs, well_keyed_arr]
  intro v hv
  obtain ⟨s, -, rfl⟩ := List.mem_map.mp hv
  rfl

theorem well_keyed_to_json (s : Scalar) : s.toJson.wellKeyed = true := by
  cases s with
  | number x => cases x <;> rfl
  | _ => rfl

theorem well_keyed_fields_or_empty {v : Json} (h : v.wellKeyed = true) :
    (Json.obj v.fieldsOrEmpty).wellKeyed = true := by
  cases v with
  | obj fs => exact h
  | _ => rfl

end Json

namespace Resolution

theorem union_fragment_well_keyed {vs : List Json} (h : ∀ v ∈ vs, v.wellKeyed = true) :
    (Json.obj (unionFragment vs)).wellKeyed = true := by
  match vs with
  | [] => decide
  | [v] => exact Json.well_keyed_fields_or_empty (h v (by simp))
  | v::w::rest =>
    have hmany : unionFragment (v::w::rest) = [("anyOf", .arr (v::w::rest))] := rfl
    rwa [hmany, Json.well_keyed_single, Json.well_keyed_arr]

theorem literal_well_keyed (values : List Scalar) : (literal values).schema.wellKeyed = true := by
  simp only [literal]
  split
  · exact Json.well_keyed_single _ _
  · have hvalues : (Json.arr ((values.filter (!·.isNull)).map Scalar.toJson)).wellKeyed = true := by
      rw [Json.well_keyed_arr]
      intro v hv
      obtain ⟨s, -, rfl⟩ := List.mem_map.mp hv
      exact Json.well_keyed_to_json s
    have htype : ∀ ts, (literalType ts).wellKeyed = true := by
      intro ts
      unfold literalType
      split
      · rfl
      · exact Json.well_keyed_strs ts
    rw [schema, Json.well_keyed_pair (by decide), htype, hvalues]
    rfl

end Resolution

namespace DeclaredType

theorem resolve_well_keyed {a : DeclaredType} (h : a.wellKeyed = true) :
    a.resolve.schema.wellKeyed = true := by
  induction a using induct with
  | primitive kind => exact Json.well_keyed_single _ _
  | array a ih =>
    rw [resolve, Resolution.schema, Resolution.plain, Json.well_keyed_pair (by decide)]
    exact ih (by simpa [wellKeyed] using h)
  | objectMap a _ =>
    rw [resolve]
    exact Json.well_keyed_single _ _
  | tuple as ih =>
    rw [wellKeyed, each_well_keyed_iff] at h
    rw [resolve, Resolution.schema, Resolution.plain, Json.well_keyed_pair (by decide),
      resolve_each_eq_map, Bool.and_eq_true, Json.well_keyed_arr]
    refine ⟨rfl, fun v hv => ?_⟩
    obtain ⟨a, ha, rfl⟩ := List.mem_map.mp hv
    exact ih a ha (h a ha)
  | union as ih =>
    rw [wellKeyed, each_well_keyed_iff] at h
    rw [resolve, resolve_members_eq_map]
    apply Resolution.union_fragment_well_keyed
    intro v hv
    obtain ⟨m, hm, rfl⟩ := List.mem_map.mp (distinct_subset hv)
    obtain ⟨a, ha, rfl⟩ := List.mem_map.mp hm
    have ha := List.mem_of_mem_filter ha
    exact ih a ha (h a ha)
  | literal values =>
    rw [resolve]
    exact Resolution.literal_well_keyed values
  | enumRef names =>
    rw [resolve, Resolution.schema, Resolution.plain, Json.well_keyed_pair (by decide),
      Json.well_keyed_strs]
    rfl
  | annotated a items ih =>
    rw [resolve_annotated]
    exact ih (by simpa [wellKeyed] using h)
  | schema value =>
    rw [resolve]
    exact Json.well_keyed_fields_or_empty (by simpa [wellKeyed] using h)
  | unknown => decide

end DeclaredType

end ToolSpec
