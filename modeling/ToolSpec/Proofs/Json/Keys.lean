import Mathlib.Data.List.Nodup
import ToolSpec.Json.Basic

/-!
# Distinct keys

An object holds every key once. Then a lookup finds exactly the entries that are there, removing a
key leaves the other entries up to their order, and each operation on fields is described by its
lookups. `wellKeyed` asks this of all objects inside a value.
-/

set_option autoImplicit false

namespace ToolSpec

namespace Fields

variable {α β : Type}

theorem mem_of_lookup {key : String} {v : α} {fs : Fields α} (h : fs.lookup key = some v) :
    (key, v) ∈ fs := by
  obtain ⟨l, r, rfl, _⟩ := List.lookup_eq_some_iff.mp h
  simp

theorem lookup_of_mem {key : String} {v : α} {fs : Fields α} (hn : (keys fs).Nodup)
    (h : (key, v) ∈ fs) : fs.lookup key = some v := by
  induction fs with
  | nil => simp at h
  | cons e rest ih =>
    obtain ⟨k, w⟩ := e
    obtain ⟨hk, hr⟩ := List.nodup_cons.mp hn
    rcases List.mem_cons.mp h with he | hm
    · obtain ⟨rfl, rfl⟩ := Prod.mk.inj he
      simp
    · have hne : key ≠ k := by
        rintro rfl
        have hm' : key ∈ keys rest := List.mem_map_of_mem hm
        exact hk hm'
      rw [lookup_cons_ite, if_neg hne]
      exact ih hr hm

theorem lookup_eq_some {key : String} {v : α} {fs : Fields α} (hn : (keys fs).Nodup) :
    fs.lookup key = some v ↔ (key, v) ∈ fs :=
  ⟨mem_of_lookup, lookup_of_mem hn⟩

theorem mem_keys_iff {key : String} {fs : Fields α} :
    key ∈ keys fs ↔ ∃ v, fs.lookup key = some v := by
  constructor
  · intro h
    cases hl : fs.lookup key with
    | some v => exact ⟨v, rfl⟩
    | none =>
      obtain ⟨e, he, rfl⟩ := List.mem_map.mp h
      have hne := List.lookup_eq_none_iff.mp hl e he
      simp at hne
  · rintro ⟨v, h⟩
    exact List.mem_map_of_mem (mem_of_lookup h)

theorem has_iff {key : String} {fs : Fields α} : has key fs = true ↔ key ∈ keys fs := by
  rw [mem_keys_iff, has, Option.isSome_iff_exists]

theorem keys_map_value (g : String → α → β) (fs : Fields α) :
    keys (fs.map fun (k, v) => (k, g k v)) = keys fs := by
  simp [keys, Function.comp_def]

theorem map_value_eq_self {g : String → α → α} {fs : Fields α}
    (h : ∀ k v, (k, v) ∈ fs → g k v = v) : (fs.map fun (k, v) => (k, g k v)) = fs := by
  induction fs with
  | nil => rfl
  | cons e rest ih =>
    obtain ⟨k, v⟩ := e
    have hrest := ih fun k v hv => h k v (List.mem_cons_of_mem _ hv)
    simp [hrest, h k v List.mem_cons_self]

theorem lookup_map_value (g : String → α → β) (key : String) (fs : Fields α) :
    (fs.map fun (k, v) => (k, g k v)).lookup key = (fs.lookup key).map (g key) := by
  induction fs with
  | nil => rfl
  | cons e rest ih =>
    obtain ⟨k, v⟩ := e
    by_cases h : key = k
    · subst h; simp
    · simpa [lookup_cons_ite, h] using ih

theorem lookup_filter_key (p : String → Bool) (key : String) (fs : Fields α) :
    (fs.filter fun (k, _) => p k).lookup key = if p key then fs.lookup key else none := by
  induction fs with
  | nil => simp
  | cons e rest ih =>
    obtain ⟨k, v⟩ := e
    by_cases hp : p k = true <;> by_cases h : key = k
    · subst h; simp [hp]
    · simp [hp, lookup_cons_ite, h, ih]
    · subst h; simpa [hp] using ih
    · simp [hp, lookup_cons_ite, h, ih]

theorem nodup_keys_filter {fs : Fields α} (p : String × α → Bool) (hn : (keys fs).Nodup) :
    (keys (fs.filter p)).Nodup :=
  hn.sublist (List.filter_sublist.map Prod.fst)

theorem nodup_keys_insert {fs : Fields α} (key : String) (v : α) (hn : (keys fs).Nodup) :
    (keys (insert key v fs)).Nodup := by
  by_cases h : key ∈ keys fs
  · rwa [keys_insert_of_mem v h]
  · rw [keys_insert_of_not_mem v h]
    exact List.nodup_append.mpr ⟨hn, List.nodup_singleton key, by
      rintro a ha b hb rfl
      exact h (List.mem_singleton.mp hb ▸ ha)⟩

theorem mem_insert {key k : String} {v w : α} {fs : Fields α} (h : (k, w) ∈ insert key v fs) :
    (k, w) = (key, v) ∨ (k, w) ∈ fs := by
  induction fs with
  | nil => simpa [insert] using h
  | cons e rest ih =>
    obtain ⟨k', v'⟩ := e
    by_cases hk : k' = key
    · simp only [insert, hk, if_true, List.mem_cons] at h
      rcases h with h | h <;> simp [h]
    · simp only [insert, hk, if_false, List.mem_cons] at h
      rcases h with h | h
      · simp [h]
      · rcases ih h with h | h <;> simp [h]

theorem insert_lookup {key : String} {v : α} {fs : Fields α} (h : fs.lookup key = some v) :
    insert key v fs = fs := by
  induction fs with
  | nil => simp at h
  | cons e rest ih =>
    obtain ⟨k, w⟩ := e
    by_cases hk : k = key
    · subst hk
      simp_all [insert]
    · rw [lookup_cons_ite, if_neg (Ne.symm hk)] at h
      simp [insert, hk, ih h]

theorem erase_of_not_mem {key : String} {fs : Fields α} (h : key ∉ keys fs) :
    erase key fs = fs := by
  induction fs with
  | nil => rfl
  | cons e rest ih =>
    obtain ⟨k, v⟩ := e
    simp only [keys, List.map_cons, List.mem_cons, not_or] at h ih
    rw [erase, if_neg (Ne.symm h.1), ih h.2]

theorem filter_insert {p : String → Bool} {key : String} (v : α) (fs : Fields α)
    (h : p key = false) :
    (insert key v fs).filter (fun (k, _) => p k) = fs.filter fun (k, _) => p k := by
  induction fs with
  | nil => simp [insert, h]
  | cons e rest ih =>
    obtain ⟨k, w⟩ := e
    by_cases hk : k = key
    · subst hk; simp [insert, h]
    · by_cases hp : p k = true <;> simp [insert, hk, hp, ih]

/-- The order of the other entries is all that erasing a key changes. -/
theorem erase_perm {fs : Fields α} (key : String) (hn : (keys fs).Nodup) :
    (erase key fs).Perm (fs.filter fun (k, _) => k ≠ key) := by
  induction fs with
  | nil => exact .nil
  | cons e rest ih =>
    obtain ⟨k, v⟩ := e
    obtain ⟨hk, hr⟩ := List.nodup_cons.mp hn
    by_cases h : k = key
    · subst h
      have hrest : (rest.filter fun (k', _) => k' ≠ k) = rest := by
        apply List.filter_eq_self.mpr
        intro e he
        have hm : e.1 ∈ keys rest := List.mem_map_of_mem he
        have hne : e.1 ≠ k := by
          rintro rfl
          exact hk hm
        simpa using hne
      have hmoved : (erase k ((k, v)::rest)).Perm rest := by
        rcases List.eq_nil_or_concat rest with rfl | ⟨l, e, rfl⟩
        · simp [erase]
        · simpa [erase] using (List.perm_append_singleton e l).symm
      rw [List.filter_cons_of_neg (by simp), hrest]
      exact hmoved
    · simpa [erase, h] using (ih hr).cons (k, v)

theorem nodup_keys_erase {fs : Fields α} (key : String) (hn : (keys fs).Nodup) :
    (keys (erase key fs)).Nodup :=
  ((erase_perm key hn).map Prod.fst).nodup_iff.mpr (nodup_keys_filter _ hn)

theorem mem_erase {key k : String} {v : α} {fs : Fields α} (hn : (keys fs).Nodup) :
    (k, v) ∈ erase key fs ↔ (k, v) ∈ fs ∧ k ≠ key := by
  rw [(erase_perm key hn).mem_iff]
  simp

theorem lookup_erase {fs : Fields α} (hn : (keys fs).Nodup) (key k : String) :
    (erase key fs).lookup k = if k = key then none else fs.lookup k := by
  apply Option.ext
  intro v
  rw [lookup_eq_some (nodup_keys_erase key hn), mem_erase hn]
  by_cases h : k = key <;> simp [h, lookup_eq_some hn]

end Fields

namespace Json

theorem induct {motive : Json → Prop} (null : motive .null) (bool : ∀ b, motive (.bool b))
    (num : ∀ n, motive (.num n)) (str : ∀ s, motive (.str s))
    (arr : ∀ items, (∀ v ∈ items, motive v) → motive (.arr items))
    (obj : ∀ fields : Fields Json, (∀ k v, (k, v) ∈ fields → motive v) → motive (.obj fields)) :
    ∀ v, motive v
  | .null => null
  | .bool b => bool b
  | .num n => num n
  | .str s => str s
  | .arr items => arr items fun v _ => induct null bool num str arr obj v
  | .obj fields => obj fields fun _ v _ => induct null bool num str arr obj v
termination_by v => sizeOf v
decreasing_by
  · have := List.sizeOf_lt_of_mem ‹v ∈ items›
    simp only [Json.arr.sizeOf_spec]
    omega
  · have := List.sizeOf_lt_of_mem ‹(_, v) ∈ fields›
    simp only [Prod.mk.sizeOf_spec, Json.obj.sizeOf_spec] at this ⊢
    omega

mutual

/-- Every object in the value holds each key once. -/
def wellKeyed : Json → Bool
  | .arr items => eachWellKeyed items
  | .obj fields => decide (Fields.keys fields).Nodup && valuesWellKeyed fields
  | _ => true

def eachWellKeyed : List Json → Bool
  | [] => true
  | v::rest => wellKeyed v && eachWellKeyed rest

def valuesWellKeyed : List (String × Json) → Bool
  | [] => true
  | (_, v)::rest => wellKeyed v && valuesWellKeyed rest

end

theorem each_well_keyed_iff (items : List Json) :
    eachWellKeyed items = true ↔ ∀ v ∈ items, v.wellKeyed = true := by
  induction items with
  | nil => simp [eachWellKeyed]
  | cons v rest ih => simp [eachWellKeyed, ih]

theorem values_well_keyed_iff (fs : Fields Json) :
    valuesWellKeyed fs = true ↔ ∀ k v, (k, v) ∈ fs → v.wellKeyed = true := by
  induction fs with
  | nil => simp [valuesWellKeyed]
  | cons e rest ih =>
    obtain ⟨k, v⟩ := e
    simp only [valuesWellKeyed, Bool.and_eq_true, ih, List.mem_cons, Prod.mk.injEq]
    constructor
    · rintro ⟨hv, hr⟩ k' v' (⟨-, rfl⟩ | h)
      · exact hv
      · exact hr k' v' h
    · intro h
      exact ⟨h k v (.inl ⟨rfl, rfl⟩), fun k' v' h' => h k' v' (.inr h')⟩

theorem well_keyed_arr (items : List Json) :
    (Json.arr items).wellKeyed = true ↔ ∀ v ∈ items, v.wellKeyed = true := by
  rw [wellKeyed, each_well_keyed_iff]

theorem well_keyed_obj (fs : Fields Json) :
    (Json.obj fs).wellKeyed = true ↔
      (Fields.keys fs).Nodup ∧ ∀ k v, (k, v) ∈ fs → v.wellKeyed = true := by
  rw [wellKeyed, Bool.and_eq_true, decide_eq_true_iff, values_well_keyed_iff]

theorem well_keyed_insert {fs : Fields Json} (hs : (Json.obj fs).wellKeyed = true) (key : String)
    {v : Json} (hv : v.wellKeyed = true) :
    (Json.obj (Fields.insert key v fs)).wellKeyed = true := by
  obtain ⟨hn, hvalues⟩ := (well_keyed_obj fs).mp hs
  rw [well_keyed_obj]
  refine ⟨Fields.nodup_keys_insert key v hn, fun k w hw => ?_⟩
  rcases Fields.mem_insert hw with he | hw
  · obtain ⟨-, rfl⟩ := Prod.mk.inj he
    exact hv
  · exact hvalues k w hw

theorem well_keyed_filter {fs : Fields Json} (hs : (Json.obj fs).wellKeyed = true)
    (p : String × Json → Bool) : (Json.obj (fs.filter p)).wellKeyed = true := by
  obtain ⟨hn, hvalues⟩ := (well_keyed_obj fs).mp hs
  rw [well_keyed_obj]
  exact ⟨Fields.nodup_keys_filter p hn, fun k w hw => hvalues k w (List.mem_of_mem_filter hw)⟩

theorem well_keyed_append {items : List Json} {v : Json} (hs : (Json.arr items).wellKeyed = true)
    (hv : v.wellKeyed = true) : (Json.arr (items ++ [v])).wellKeyed = true := by
  rw [well_keyed_arr] at hs ⊢
  intro w hw
  rcases List.mem_append.mp hw with hw | hw
  · exact hs w hw
  · rwa [List.mem_singleton.mp hw]

theorem well_keyed_of_lookup {key : String} {v : Json} {fs : Fields Json}
    (hs : (Json.obj fs).wellKeyed = true) (h : fs.lookup key = some v) : v.wellKeyed = true :=
  ((well_keyed_obj fs).mp hs).2 key v (Fields.mem_of_lookup h)

end Json

end ToolSpec
