import ToolSpec.Proofs.DeclaredType.Alternatives

/-!
# Types inside types

Where a type lies inside another one as an element, a member of a tuple or an alternative, the schema
of the outer one holds an equal schema. A union may have collapsed to that alternative, or lists an
earlier one with an equal schema in its stead. The values of a map leave no schema.
-/

set_option autoImplicit false

namespace ToolSpec

/-- The schema itself, one for elements, or an alternative, at any depth. -/
inductive SchemaPart : Json → Json → Prop
  | here (v : Json) : SchemaPart v v
  | item {items : List Json} {v w : Json} : v ∈ items → SchemaPart v w → SchemaPart (.arr items) w
  | under {fs : Fields Json} {key : String} {v w : Json} : key ∈ ["items", "anyOf"] →
      fs.lookup key = some v → SchemaPart v w → SchemaPart (.obj fs) w

theorem SchemaPart.of_same {u v w : Json} (hu : u.wellKeyed = true) (hv : v.wellKeyed = true)
    (h : u.same v = true) (hw : SchemaPart v w) : ∃ w', SchemaPart u w' ∧ w'.same w = true := by
  induction hw generalizing u with
  | here v => exact ⟨u, .here u, h⟩
  | @item items v w hmem _ ih =>
    cases u with
    | arr us =>
      rw [Json.well_keyed_arr] at hu hv
      have hequal := (Json.same_arr us items).mp h
      obtain ⟨i, hi, rfl⟩ := List.getElem_of_mem hmem
      have hi' : i < us.length := hequal.length_eq ▸ hi
      have hx : us[i] ∈ us := List.getElem_mem hi'
      obtain ⟨w', hw', hsame'⟩ := ih (hu _ hx) (hv _ hmem) (hequal.get hi' hi)
      exact ⟨w', .item hx hw', hsame'⟩
    | _ => simp [Json.same] at h
  | @under fs key v w hkey hlookup _ ih =>
    cases u with
    | obj us =>
      obtain ⟨hnu, hvu⟩ := (Json.well_keyed_obj us).mp hu
      obtain ⟨hnv, hvv⟩ := (Json.well_keyed_obj fs).mp hv
      have hmem := Fields.mem_of_lookup hlookup
      obtain ⟨x, hx, hsame⟩ := Json.same_obj_right hnu hnv h hmem
      obtain ⟨w', hw', hsame'⟩ :=
        ih (hvu key x (Fields.mem_of_lookup hx)) (hvv key v hmem) hsame
      exact ⟨w', .under hkey hx hw', hsame'⟩
    | _ => simp [Json.same] at h

theorem SchemaPart.well_keyed {v w : Json} (h : SchemaPart v w) (hv : v.wellKeyed = true) :
    w.wellKeyed = true := by
  induction h with
  | here => exact hv
  | item hmem _ ih => exact ih ((Json.well_keyed_arr _).mp hv _ hmem)
  | under _ hlookup _ ih =>
    exact ih (((Json.well_keyed_obj _).mp hv).2 _ _ (Fields.mem_of_lookup hlookup))

namespace DeclaredType

/-- The second type is the first one, or lies inside it where its schema counts. -/
inductive Part : DeclaredType → DeclaredType → Prop
  | here (a : DeclaredType) : Part a a
  | layer {a b : DeclaredType} (items : List MetadataItem) : Part a b → Part (.annotated a items) b
  | element {a b : DeclaredType} : Part a b → Part (.array a) b
  | member {as : List DeclaredType} {a b : DeclaredType} : a ∈ as → Part a b → Part (.tuple as) b
  | alternative {as : List DeclaredType} {a b : DeclaredType} : a ∈ as → a.isNull = false →
      Part a b → Part (.union as) b

theorem part_union_fragment {vs : List Json} {v : Json} (hobject : ∀ v ∈ vs, v.isObject = true)
    (hv : v ∈ vs) {w : Json} (hw : SchemaPart v w) :
    SchemaPart (.obj (Resolution.unionFragment vs)) w := by
  match vs with
  | [u] =>
    obtain rfl := List.mem_singleton.mp hv
    rw [Resolution.unionFragment, Json.obj_fields_or_empty (hobject v hv)]
    exact hw
  | u::u'::rest => exact .under (by simp) List.lookup_cons_self (.item hv hw)

theorem Part.schema {a b : DeclaredType} (h : a.Part b) (ha : a.wellKeyed = true) :
    ∃ w, SchemaPart a.resolve.schema w ∧ w.same b.resolve.schema = true := by
  induction h with
  | here a => exact ⟨_, .here _, Json.same_refl (resolve_well_keyed ha)⟩
  | layer items _ ih =>
    rw [resolve_annotated]
    exact ih ha
  | @element a b _ ih =>
    obtain ⟨w, hw, hsame⟩ := ih ha
    have hitems : (array a).resolve.fragment.lookup "items" = some a.resolve.schema := by
      rw [resolve]
      rfl
    exact ⟨w, .under (by simp) hitems hw, hsame⟩
  | @member as a b hmem _ ih =>
    rw [wellKeyed, each_well_keyed_iff] at ha
    obtain ⟨w, hw, hsame⟩ := ih (ha a hmem)
    have hitems : (tuple as).resolve.fragment.lookup "items" =
        some (.arr (as.map fun a => a.resolve.schema)) := by
      rw [resolve, resolve_each_eq_map]
      rfl
    exact ⟨w, .under (by simp) hitems (.item (List.mem_map_of_mem hmem) hw), hsame⟩
  | @alternative as a b hmem hnull _ ih =>
    rw [wellKeyed, each_well_keyed_iff] at ha
    obtain ⟨w, hw, hsame⟩ := ih (ha a hmem)
    have hlisted : a.resolve.schema ∈ alternatives as :=
      List.mem_map_of_mem (List.mem_filter.mpr ⟨hmem, by simp [hnull]⟩)
    -- The union keeps this alternative or one with an equal schema.
    obtain ⟨u, hu, hkept⟩ := exists_distinct (r := Json.same) hlisted
    have hobject : ∀ v ∈ distinct Json.same (alternatives as), v.isObject = true :=
      fun v hv => is_object_alternatives (distinct_subset hv)
    have hunion : (DeclaredType.union as).resolve.schema =
        .obj (Resolution.unionFragment (distinct Json.same (alternatives as))) :=
      congrArg Json.obj (union_fragment as)
    rw [hunion]
    rcases hkept with rfl | hequal
    · exact ⟨w, part_union_fragment hobject hu hw, hsame⟩
    · obtain ⟨w', hw', hsame'⟩ := SchemaPart.of_same
        (alternatives_well_keyed ha (distinct_subset hu)) (alternatives_well_keyed ha hlisted)
        hequal hw
      exact ⟨w', part_union_fragment hobject hu hw', Json.same_trans hsame' hsame⟩

theorem Part.lookup {a b : DeclaredType} (h : a.Part b) (ha : a.wellKeyed = true)
    (hb : b.wellKeyed = true) :
    ∃ w, SchemaPart a.resolve.schema w ∧
      ∀ key y, b.resolve.fragment.lookup key = some y →
        ∃ x, w.get? key = some x ∧ x.same y = true := by
  obtain ⟨w, hw, hsame⟩ := h.schema ha
  refine ⟨w, hw, fun key y hy => ?_⟩
  have hkeyed := hw.well_keyed (resolve_well_keyed ha)
  cases w with
  | obj fs =>
    exact Json.same_obj_right ((Json.well_keyed_obj fs).mp hkeyed).1
      ((Json.well_keyed_obj _).mp (resolve_well_keyed hb)).1 hsame (Fields.mem_of_lookup hy)
  | _ => simp [Resolution.schema, Json.same] at hsame

end DeclaredType

end ToolSpec
