import ToolSpec.Proofs.DeclaredType.Keys
import ToolSpec.Schema.Nullable
import ToolSpec.Signature.Basic

/-!
# Assembled parameters

Inserting a property decides its own schema and whether its name is required, and leaves every
other name alone, so that the last declaration of a name counts. Assembled objects hold every key
once if the JSON that the declarations carry does.
-/

set_option autoImplicit false

namespace ToolSpec

namespace Fields

theorem nodup_keys_insert_all {α : Type} (entries : Fields α) {fs : Fields α}
    (hn : (keys fs).Nodup) : (keys (insertAll entries fs)).Nodup := by
  induction entries generalizing fs with
  | nil => exact hn
  | cons e rest ih => exact ih (nodup_keys_insert e.1 e.2 hn)

theorem mem_insert_all {α : Type} {entries : Fields α} {key : String} {v : α} {fs : Fields α}
    (h : (key, v) ∈ insertAll entries fs) : (key, v) ∈ entries ∨ (key, v) ∈ fs := by
  induction entries generalizing fs with
  | nil => exact .inr h
  | cons e rest ih =>
    change (key, v) ∈ insertAll rest (insert e.1 e.2 fs) at h
    rcases ih h with h | h
    · exact .inl (List.mem_cons_of_mem e h)
    · rcases mem_insert h with h | h
      · exact .inl (h ▸ List.mem_cons_self)
      · exact .inr h

end Fields

theorem Nullable.required_names_of_strs {fs : Fields Json} {names : List String}
    (h : fs.lookup "required" = some (.strs names)) : requiredNames fs = names := by
  rw [requiredNames, h]
  simp [Json.strs, List.filterMap_map, Function.comp_def, Json.str?]

namespace ObjectSchema

/-- Every required name is that of a property, and no two properties share a name. -/
structure Sound (s : ObjectSchema) : Prop where
  distinct : (Fields.keys s.properties).Nodup
  known : ∀ name ∈ s.required, name ∈ Fields.keys s.properties

theorem sound_empty : empty.Sound := ⟨.nil, by simp [empty]⟩

theorem lookup_insert (s : ObjectSchema) (p : Property) (name : String) :
    (s.insert p).properties.lookup name =
      if name = p.name then some p.schema else s.properties.lookup name :=
  Fields.lookup_insert p.name name p.schema s.properties

/-- A name that no property has is not required either, so that it may be removed unseen. -/
theorem required_insert {s : ObjectSchema} (hs : s.Sound) (p : Property) :
    (s.insert p).required =
      s.required.filter (· ≠ p.name) ++ if p.required then [p.name] else [] := by
  rw [insert]
  split
  · rfl
  · rename_i hnew
    have hfresh : ∀ name ∈ s.required, name ≠ p.name := by
      rintro name hreq rfl
      exact hnew (Fields.has_iff.mpr (hs.known _ hreq))
    rw [List.filter_eq_self.mpr (by simpa using hfresh)]

theorem mem_required_insert {s : ObjectSchema} (hs : s.Sound) (p : Property) (name : String) :
    name ∈ (s.insert p).required ↔
      if name = p.name then p.required = true else name ∈ s.required := by
  have hown : name ∈ (if p.required then [p.name] else []) ↔
      name = p.name ∧ p.required = true := by
    cases p.required <;> simp
  rw [required_insert hs, List.mem_append, hown]
  by_cases hn : name = p.name <;> simp [hn]

theorem sound_insert {s : ObjectSchema} (hs : s.Sound) (p : Property) : (s.insert p).Sound := by
  refine ⟨Fields.nodup_keys_insert p.name p.schema hs.distinct, fun name hreq => ?_⟩
  rw [Fields.mem_keys_iff, lookup_insert]
  rw [mem_required_insert hs] at hreq
  by_cases hn : name = p.name
  · exact ⟨p.schema, by rw [if_pos hn]⟩
  · rw [if_neg hn] at hreq ⊢
    exact Fields.mem_keys_iff.mp (hs.known name hreq)

theorem sound_insert_all {s : ObjectSchema} (hs : s.Sound) (ps : List Property) :
    (s.insertAll ps).Sound := by
  induction ps generalizing s with
  | nil => exact hs
  | cons p ps ih => exact ih (sound_insert hs p)

theorem insert_all_of_not_mem {s : ObjectSchema} (hs : s.Sound) {ps : List Property} {name : String}
    (h : name ∉ ps.map Property.name) :
    (s.insertAll ps).properties.lookup name = s.properties.lookup name ∧
      (name ∈ (s.insertAll ps).required ↔ name ∈ s.required) := by
  induction ps generalizing s with
  | nil => exact ⟨rfl, .rfl⟩
  | cons p ps ih =>
    simp only [List.map_cons, List.mem_cons, not_or] at h
    obtain ⟨hlookup, hreq⟩ := ih (sound_insert hs p) h.2
    rw [lookup_insert, if_neg h.1] at hlookup
    rw [mem_required_insert hs, if_neg h.1] at hreq
    exact ⟨hlookup, hreq⟩

theorem insert_all_last {s : ObjectSchema} (hs : s.Sound) (before : List Property)
    {after : List Property} {p : Property} (h : p.name ∉ after.map Property.name) :
    (s.insertAll (before ++ p::after)).properties.lookup p.name = some p.schema ∧
      (p.name ∈ (s.insertAll (before ++ p::after)).required ↔ p.required = true) := by
  have hbefore := sound_insert_all hs before
  have hafter := insert_all_of_not_mem (sound_insert hbefore p) h
  rw [lookup_insert, if_pos rfl, mem_required_insert hbefore, if_pos rfl] at hafter
  rw [insert_all_append]
  exact hafter

theorem mem_properties {s : ObjectSchema} {ps : List Property} {name : String} {v : Json}
    (h : (name, v) ∈ (s.insertAll ps).properties) :
    (∃ p ∈ ps, v = p.schema) ∨ (name, v) ∈ s.properties := by
  induction ps generalizing s with
  | nil => exact .inr h
  | cons p ps ih =>
    change (name, v) ∈ ((s.insert p).insertAll ps).properties at h
    rcases ih h with ⟨q, hq, hv⟩ | h
    · exact .inl ⟨q, List.mem_cons_of_mem p hq, hv⟩
    · rcases Fields.mem_insert h with h | h
      · obtain ⟨-, rfl⟩ := Prod.mk.inj h
        exact .inl ⟨p, List.mem_cons_self, rfl⟩
      · exact .inr h

theorem required_names_to_json (s : ObjectSchema) :
    Nullable.requiredNames s.toJson.fieldsOrEmpty = s.required :=
  Nullable.required_names_of_strs rfl

end ObjectSchema

def MetadataItem.wellKeyed : MetadataItem → Bool
  | .extra fields => (Json.obj fields).wellKeyed
  | _ => true

namespace ParameterSpec

def wellKeyed (p : ParameterSpec) : Bool :=
  p.type.wellKeyed && p.type.metadata.all (·.wellKeyed) && p.default.all (·.wellKeyed) &&
    p.enum.all (·.all (·.wellKeyed))

theorem nodup_compile {p : ParameterSpec} (h : p.type.wellKeyed = true) :
    (Fields.keys (Fields.insertAll p.overlay p.type.resolve.fragment)).Nodup :=
  Fields.nodup_keys_insert_all _ ((Json.well_keyed_obj _).mp (DeclaredType.resolve_well_keyed h)).1

theorem constraints_well_keyed {k : Keywords} {key : String} {v : Json}
    (h : (key, v) ∈ k.constraints) : v.wellKeyed = true := by
  have hbound : ∀ {b : Option Bound} {w : Json}, b.bind Bound.keyword? = some w →
      w.wellKeyed = true := by
    intro b w hw
    obtain ⟨b, -, hb⟩ := Option.bind_eq_some_iff.mp hw
    cases b with
    | int n =>
      obtain rfl := Option.some.inj hb
      rfl
    | float x =>
      obtain ⟨y, -, rfl⟩ := Option.map_eq_some_iff.mp hb
      rfl
  simp only [Keywords.constraints, List.mem_append, List.mem_map, Option.mem_toList,
    Prod.mk.injEq] at h
  rcases h with (((((⟨w, hw, -, rfl⟩ | ⟨w, hw, -, rfl⟩) | ⟨w, hw, -, rfl⟩) | ⟨w, hw, -, rfl⟩) |
    ⟨n, -, -, rfl⟩) | ⟨n, -, -, rfl⟩) | ⟨s, -, -, rfl⟩
  · exact hbound hw
  · exact hbound hw
  · exact hbound hw
  · exact hbound hw
  · rfl
  · rfl
  · rfl

theorem overlay_well_keyed {p : ParameterSpec} (h : p.wellKeyed = true) {key : String} {v : Json}
    (hv : (key, v) ∈ p.overlay) : v.wellKeyed = true := by
  simp only [wellKeyed, Bool.and_eq_true, List.all_eq_true] at h
  obtain ⟨⟨⟨-, hmetadata⟩, hdefault⟩, henum⟩ := h
  simp only [overlay, List.mem_append, List.mem_map, Option.mem_toList,
    Prod.mk.injEq, List.mem_flatten, List.mem_filterMap] at hv
  rcases hv with ((((⟨t, -, -, rfl⟩ | ⟨vs, hvs, -, rfl⟩) | hv) | hv) | ⟨w, hw, -, rfl⟩) |
    ⟨fields, ⟨item, hitem, hfields⟩, hv⟩
  · rfl
  · rw [Json.well_keyed_arr]
    simpa [hvs] using henum
  · exact constraints_well_keyed hv
  · split at hv <;> simp_all [Json.wellKeyed]
  · simpa [hw] using hdefault
  · have hkeyed := hmetadata item hitem
    cases item <;> simp only [MetadataItem.extra?, reduceCtorEq] at hfields
    obtain rfl := Option.some.inj hfields
    exact ((Json.well_keyed_obj _).mp hkeyed).2 key v hv

theorem compile_well_keyed {p : ParameterSpec} (h : p.wellKeyed = true) :
    p.compile.schema.wellKeyed = true := by
  have htype : p.type.wellKeyed = true := by
    simp only [wellKeyed, Bool.and_eq_true] at h
    exact h.1.1.1
  rw [compile, Json.well_keyed_obj]
  refine ⟨nodup_compile htype, fun key v hv => ?_⟩
  rcases Fields.mem_insert_all hv with hv | hv
  · exact overlay_well_keyed h hv
  · exact ((Json.well_keyed_obj _).mp (DeclaredType.resolve_well_keyed htype)).2 key v hv

end ParameterSpec

namespace Parameter

def wellKeyed (p : Parameter) : Bool :=
  p.type.wellKeyed && p.type.metadata.all (·.wellKeyed) && p.default.all (·.wellKeyed)

theorem allowed_well_keyed {a : DeclaredType} (h : a.wellKeyed = true) {vs : List Json}
    (hvs : allowed a = some vs) : ∀ v ∈ vs, v.wellKeyed = true := by
  simp only [allowed, Option.or_eq_some_iff, Option.map_eq_some_iff] at hvs
  rcases hvs with ⟨names, -, rfl⟩ | ⟨-, ⟨ss, -, rfl⟩ | ⟨-, hlisted⟩⟩
  · intro v hv
    obtain ⟨name, -, rfl⟩ := List.mem_map.mp hv
    rfl
  · intro v hv
    obtain ⟨s, -, rfl⟩ := List.mem_map.mp hv
    exact Json.well_keyed_to_json s
  · obtain ⟨e, he, hvs⟩ := Option.bind_eq_some_iff.mp hlisted
    have hkeyed := Json.well_keyed_of_lookup (DeclaredType.resolve_well_keyed h) he
    cases e <;> simp only [Json.items?, reduceCtorEq] at hvs
    obtain rfl := Option.some.inj hvs
    exact (Json.well_keyed_arr _).mp hkeyed

theorem spec_well_keyed {p : Parameter} (h : p.wellKeyed = true) (docs : Docstring)
    (placeholders : Bool) : (p.spec docs placeholders).wellKeyed = true := by
  have htype : p.type.wellKeyed = true := by
    simp only [wellKeyed, Bool.and_eq_true] at h
    exact h.1.1
  rw [ParameterSpec.wellKeyed, Bool.and_eq_true]
  refine ⟨h, ?_⟩
  cases hvs : allowed p.type with
  | none => simp [spec, hvs]
  | some vs => simpa [spec, hvs] using allowed_well_keyed htype hvs

end Parameter

namespace Signature

def wellKeyed (s : Signature) : Bool := s.parameters.all (·.wellKeyed)

theorem assemble_well_keyed {s : Signature} (h : s.wellKeyed = true) (o : Options) :
    (Json.obj (s.compile o).assemble.parameters.properties).wellKeyed = true := by
  rw [Json.well_keyed_obj]
  refine ⟨(ObjectSchema.sound_insert_all ObjectSchema.sound_empty _).distinct, fun name v hv => ?_⟩
  rcases ObjectSchema.mem_properties hv with ⟨p, hp, rfl⟩ | hv
  · obtain ⟨q, hq, rfl⟩ := List.mem_map.mp hp
    obtain ⟨parameter, hparameter, rfl⟩ := List.mem_map.mp hq
    have hkeyed := List.all_eq_true.mp h parameter hparameter
    exact ParameterSpec.compile_well_keyed (Parameter.spec_well_keyed hkeyed _ _)
  · simp [ObjectSchema.empty] at hv

end Signature

end ToolSpec
