import ToolSpec.Proofs.Schema.Bounds
import ToolSpec.Schema.Strict

/-!
# What a verdict is made from

The verdict of a schema on a value depends on verdicts of the schemas inside it: those of branches
on the value itself, and those of item schemas on the items. Every verdict is reached from smaller
schemas, so that a property of verdicts can be shown along the way they are made.
-/

set_option autoImplicit false

namespace ToolSpec

def Json.schemas : Json → List Json
  | .arr items => items
  | s => [s]

theorem Json.eq_arr_of_items {v : Json} {items : List Json} (h : v.items? = some items) :
    v = .arr items := by
  cases v <;> simp_all [items?]

theorem Json.schemas_of_unlisted {s : Json} (h : s.items? = none) : s.schemas = [s] := by
  cases s <;> simp_all [items?, schemas]

theorem Json.size_of_schemas {s t : Json} (h : t ∈ s.schemas) : sizeOf t ≤ sizeOf s := by
  cases s with
  | arr items =>
    have hmem : t ∈ items := h
    have hitem := List.sizeOf_lt_of_mem hmem
    rw [Json.arr.sizeOf_spec]
    omega
  | _ => exact Nat.le_of_eq (congrArg sizeOf (List.mem_singleton.mp h))

theorem Json.well_keyed_schemas {s t : Json} (hs : s.wellKeyed = true) (h : t ∈ s.schemas) :
    t.wellKeyed = true := by
  cases s with
  | arr items => exact (Json.well_keyed_arr items).mp hs t h
  | _ => rwa [List.mem_singleton.mp h]

/-- A verdict that another one is made from; `(s, v)` stands for the verdict of `s` on `v`. -/
inductive Consults : Json × Json → Json × Json → Prop
  | branch {fs : Fields Json} {key : String} {bs : List Json} {b v : Json} :
      key ∈ ["anyOf", "oneOf", "allOf"] → fs.lookup key = some (.arr bs) → b ∈ bs →
      Consults (.obj fs, v) (b, v)
  | item {fs : Fields Json} {s v : Json} {vs : List Json} :
      fs.lookup "items" = some s → s.items? = none → v ∈ vs → Consults (.obj fs, .arr vs) (s, v)
  | position {fs : Fields Json} {ss vs : List Json} {s v : Json} :
      fs.lookup "items" = some (.arr ss) → (s, v) ∈ ss.zip vs → Consults (.obj fs, .arr vs) (s, v)

namespace Consults

variable {s v t w : Json}

theorem under {fs : Fields Json} (h : Consults (.obj fs, v) (t, w)) :
    ∃ key ∈ Strict.schemaKeys, ∃ u, fs.lookup key = some u ∧ t ∈ u.schemas := by
  cases h with
  | branch hkey hbs hb =>
    have hkeys : ∀ key ∈ ["anyOf", "oneOf", "allOf"], key ∈ Strict.schemaKeys := by decide
    exact ⟨_, hkeys _ hkey, _, hbs, hb⟩
  | item ht hunlisted =>
    exact ⟨_, by decide, _, ht, by simp [Json.schemas_of_unlisted hunlisted]⟩
  | position hss hmem => exact ⟨_, by decide, _, hss, (List.of_mem_zip hmem).1⟩

theorem exists_obj (h : Consults (s, v) (t, w)) : ∃ fs, s = .obj fs := by
  cases h <;> exact ⟨_, rfl⟩

theorem size_of_lt (h : Consults (s, v) (t, w)) : sizeOf t < sizeOf s := by
  obtain ⟨fs, rfl⟩ := h.exists_obj
  obtain ⟨key, -, u, hu, ht⟩ := h.under
  have hfield := List.sizeOf_lt_of_mem (Fields.mem_of_lookup hu)
  have hschema := Json.size_of_schemas ht
  simp only [Prod.mk.sizeOf_spec] at hfield
  rw [Json.obj.sizeOf_spec]
  omega

theorem induct {motive : Json → Json → Prop}
    (step : ∀ s v, (∀ t w, Consults (s, v) (t, w) → motive t w) → motive s v) :
    ∀ s v, motive s v
  | s, v => step s v fun t w _ => induct step t w
termination_by s => sizeOf s
decreasing_by exact size_of_lt ‹_›

theorem well_keyed (h : Consults (s, v) (t, w)) (hs : s.wellKeyed = true) : t.wellKeyed = true := by
  obtain ⟨fs, rfl⟩ := h.exists_obj
  obtain ⟨key, -, u, hu, ht⟩ := h.under
  exact Json.well_keyed_schemas (Json.well_keyed_of_lookup hs hu) ht

theorem object_free (h : Consults (s, v) (t, w)) (hv : v.objectFree = true) :
    w.objectFree = true := by
  cases h with
  | branch => exact hv
  | item _ _ hmem => exact (Json.object_free_arr _).mp hv w hmem
  | position _ hmem => exact (Json.object_free_arr _).mp hv w (List.of_mem_zip hmem).2

end Consults

namespace Reading

variable (r : Reading)

theorem positional_map (ss vs : List Json) :
    positional (ss.map r.accepts) vs = (ss.zip vs).all fun (s, v) => r.accepts s v := by
  induction ss generalizing vs with
  | nil => rfl
  | cons s ss ih =>
    cases vs with
    | nil => rfl
    | cons v vs => simp [positional, ih]

theorem meets_one_of (bs : List Json) (v : Json) :
    r.meets "oneOf" (.arr bs) v = true ↔ bs.countP (r.accepts · v) = 1 := by
  simp [meets, keyword, Json.items?, List.countP_map, Function.comp_def]

theorem meets_all_of (bs : List Json) (v : Json) :
    r.meets "allOf" (.arr bs) v = bs.all (r.accepts · v) := by
  simp [meets, keyword, Json.items?, Function.comp_def]

theorem meets_positions (ss vs : List Json) :
    r.meets "items" (.arr ss) (.arr vs) = (ss.zip vs).all fun (s, v) => r.accepts s v := by
  simp [meets, keyword, Json.items?, ← positional_map]

theorem meets_items {s : Json} (hs : s.items? = none) (vs : List Json) :
    r.meets "items" s (.arr vs) = vs.all (r.accepts s) := by
  cases s <;> simp_all [meets, keyword, Json.items?]

theorem meets_items_of_not_array {v : Json} (hv : v.items? = none) (s : Json) :
    r.meets "items" s v = true := by
  cases s <;> simp [meets, keyword, hv]

theorem meets_unlisted {key : String} (h : key ∈ ["anyOf", "oneOf", "allOf"]) {s : Json}
    (hs : s.items? = none) (v : Json) : r.meets key s v = true := by
  simp only [List.mem_cons, List.not_mem_nil, or_false] at h
  rcases h with rfl | rfl | rfl <;> cases s <;> simp_all [meets, keyword, Json.items?]

end Reading

end ToolSpec
