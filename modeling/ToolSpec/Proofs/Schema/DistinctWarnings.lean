import ToolSpec.Proofs.Json.Pointer
import ToolSpec.Proofs.Schema.Warnings

/-!
# Warnings without repetition

Every warning names the place of its object, and the warnings of a child lie beneath its key. Since
children have keys of their own, nothing is reported twice.
-/

set_option autoImplicit false

namespace ToolSpec.Strict

variable {fs : Fields Json} {place : Place} {w : Warning}

def placeOf? : Warning → Option Place
  | .keywordDropped place _ | .formatDropped place _ | .minItemsDropped place _
  | .remoteRefDropped place _ | .allOfRefsDropped place _ => some place
  | _ => none

theorem Reported.place_of (h : Reported place fs w) : placeOf? w = some place := by
  cases h <;> rfl

theorem Reported.place_eq {p q : Place} {gs : Fields Json} (h : Reported p fs w)
    (h' : Reported q gs w) : p = q :=
  Option.some.inj (h.place_of.symm.trans h'.place_of)

/-- Reported about some object at the place or further down. -/
def Beneath (place : Place) (w : Warning) : Prop := ∃ p fs, Reported (place ++ p) fs w

theorem Reported.not_beneath {key : String} (h : Reported place fs w) :
    ¬ Beneath (place ++ [key]) w := by
  rintro ⟨p, gs, hr⟩
  have hplace := h.place_eq hr
  simp at hplace

theorem Beneath.key_eq {k l : String} (hk : Beneath (place ++ [k]) w)
    (hl : Beneath (place ++ [l]) w) : k = l := by
  obtain ⟨p, fs, hp⟩ := hk
  obtain ⟨q, gs, hq⟩ := hl
  have hplace := hp.place_eq hq
  rw [List.append_assoc, List.append_assoc, List.append_cancel_left_eq] at hplace
  exact (List.cons.inj hplace).1

theorem beneath_of_mem_warnings {s : Json} (hs : s.wellKeyed = true)
    (h : w ∈ warnings place s) : Beneath place w := by
  obtain ⟨p, fs, -, hr⟩ := (mem_warnings hs place).mp h
  exact ⟨p, fs, hr⟩

theorem nodup_flat_map_beneath {α : Type} {l : List α} (key : α → String) {f : α → List Warning}
    (hkeys : (l.map key).Nodup) (hbeneath : ∀ a ∈ l, ∀ w ∈ f a, Beneath (place ++ [key a]) w)
    (hf : ∀ a ∈ l, (f a).Nodup) : (l.flatMap f).Nodup := by
  rw [List.nodup_flatMap]
  refine ⟨hf, (List.pairwise_map.mp hkeys).imp_of_mem ?_⟩
  intro a b ha hb hne w hwa hwb
  exact hne ((hbeneath a ha w hwa).key_eq (hbeneath b hb w hwb))

theorem nodup_own_warnings (place : Place) (fs : Fields Json) : (ownWarnings place fs).Nodup := by
  have hkeywords : ((droppedKeywords.filter (Fields.has · fs)).map
      (Warning.keywordDropped place)).Nodup := by
    apply List.Nodup.map
    · intro k l h
      exact (Warning.keywordDropped.inj h).2
    · exact List.Nodup.filter _ (by decide)
  have hformat : ((dropped? "format" isKeptFormat fs).toList.map
      (Warning.formatDropped place)).Nodup := by
    cases dropped? "format" isKeptFormat fs <;> simp
  have hminItems : ((dropped? "minItems" isKeptMinItems fs).toList.map
      (Warning.minItemsDropped place)).Nodup := by
    cases dropped? "minItems" isKeptMinItems fs <;> simp
  refine (hkeywords.append hformat ?_).append hminItems ?_
  · intro w hkeyword hw
    obtain ⟨key, -, rfl⟩ := List.mem_map.mp hkeyword
    simp at hw
  · intro w hw hminItem
    obtain ⟨v, -, rfl⟩ := List.mem_map.mp hminItem
    simp at hw

theorem nodup_ref_warnings (place : Place) (fs : Fields Json) : (refWarnings place fs).Nodup := by
  have hremote : ((dropped? "$ref" (!isRemote ·) fs).toList.map
      (Warning.remoteRefDropped place)).Nodup := by
    cases dropped? "$ref" (!isRemote ·) fs <;> simp
  refine hremote.append ?_ ?_
  · split
    · dsimp only
      split <;> simp
    · exact .nil
  · intro w hw hparts
    obtain ⟨v, -, rfl⟩ := List.mem_map.mp hw
    split at hparts
    · dsimp only at hparts
      split at hparts <;> simp at hparts
    · cases hparts

def childWarnings (place : Place) (fs : Fields Json) (key : String) : List Warning :=
  if key ∈ mapKeys then namedWarnings place key fs else keyWarnings place key fs

theorem warnings_obj (place : Place) (fs : Fields Json) :
    warnings place (.obj fs) =
      ownWarnings place fs ++ (mapKeys ++ schemaKeys).flatMap (childWarnings place fs) ++
        refWarnings place (formFields fs) := by
  simp [warnings, childWarnings, mapKeys, schemaKeys]

theorem beneath_of_mem_child_warnings (hs : (Json.obj fs).wellKeyed = true) {key : String}
    (h : w ∈ childWarnings place fs key) : Beneath (place ++ [key]) w := by
  rw [childWarnings] at h
  split at h
  · obtain ⟨values, hvalues, name, v, hv, h⟩ := (mem_named_warnings hs key).mp h
    have hkeyed := Json.well_keyed_of_lookup (Json.well_keyed_of_lookup hs hvalues) hv
    obtain ⟨p, gs, hr⟩ := beneath_of_mem_warnings hkeyed h
    exact ⟨name::p, gs, by simpa using hr⟩
  · obtain ⟨v, hv, h⟩ := (mem_key_warnings key).mp h
    exact beneath_of_mem_warnings (Json.well_keyed_of_lookup hs hv) h

theorem nodup_item_warnings {items : List Json} (hs : (Json.arr items).wellKeyed = true)
    (h : ∀ v ∈ items, ∀ place, (warnings place v).Nodup) : (itemWarnings place 0 items).Nodup := by
  have hmem : ∀ e ∈ items.zipIdx, e.1 ∈ items := fun e he =>
    List.mem_of_getElem? (List.mem_zipIdx_iff_getElem?.mp he)
  rw [item_warnings_eq_flat_map]
  apply nodup_flat_map_beneath _ (Json.nodup_indices items)
  · intro e he w hw
    exact beneath_of_mem_warnings ((Json.well_keyed_arr items).mp hs e.1 (hmem e he)) hw
  · exact fun e he => h e.1 (hmem e he) _

theorem nodup_value_warnings {values : Fields Json} (hs : (Json.obj values).wellKeyed = true)
    (h : ∀ name v, (name, v) ∈ values → ∀ place, (warnings place v).Nodup) :
    (valueWarnings place values).Nodup := by
  obtain ⟨hn, hvalues⟩ := (Json.well_keyed_obj values).mp hs
  rw [value_warnings_eq_flat_map]
  apply nodup_flat_map_beneath _ hn
  · exact fun e he w hw => beneath_of_mem_warnings (hvalues e.1 e.2 he) hw
  · exact fun e he => h e.1 e.2 he _

theorem nodup_child_warnings (hs : (Json.obj fs).wellKeyed = true) (key : String)
    (hnamed : key ∈ mapKeys → ∀ values, fs.lookup key = some (.obj values) →
      ∀ name v, (name, v) ∈ values → ∀ place, (warnings place v).Nodup)
    (hunder : key ∉ mapKeys → ∀ v, fs.lookup key = some v → ∀ place, (warnings place v).Nodup) :
    (childWarnings place fs key).Nodup := by
  rw [childWarnings]
  split
  · rename_i hkey
    rw [named_warnings_eq]
    cases hv : fs.lookup key with
    | none => exact .nil
    | some v =>
      cases v with
      | obj values =>
        exact nodup_value_warnings (Json.well_keyed_of_lookup hs hv) (hnamed hkey values hv)
      | _ => exact .nil
  · rename_i hkey
    rw [key_warnings_eq]
    cases hv : fs.lookup key with
    | none => exact .nil
    | some v => exact hunder hkey v hv _

theorem nodup_warnings_obj (hs : (Json.obj fs).wellKeyed = true)
    (h : ∀ key ∈ mapKeys ++ schemaKeys, (childWarnings place fs key).Nodup) :
    (warnings place (.obj fs)).Nodup := by
  have hchildren : ((mapKeys ++ schemaKeys).flatMap (childWarnings place fs)).Nodup := by
    apply nodup_flat_map_beneath id (by decide)
    · exact fun key _ w hw => beneath_of_mem_child_warnings hs hw
    · exact h
  have hapart : ∀ w, Reported place fs w →
      w ∉ (mapKeys ++ schemaKeys).flatMap (childWarnings place fs) := by
    intro w hr hw
    obtain ⟨key, -, hw⟩ := List.mem_flatMap.mp hw
    exact hr.not_beneath (beneath_of_mem_child_warnings hs hw)
  rw [warnings_obj]
  refine ((nodup_own_warnings place fs).append hchildren ?_).append
    (nodup_ref_warnings place (formFields fs)) ?_
  · exact fun w hown => hapart w ((reported_iff hs).mpr (.inl hown))
  · intro w hw href
    rcases List.mem_append.mp hw with hown | hchild
    · rcases mem_own_warnings.mp hown with ⟨_, _, _, rfl⟩ | ⟨_, _, _, rfl⟩ | ⟨_, _, _, rfl⟩ <;>
        simp [mem_ref_warnings hs] at href
    · exact hapart w ((reported_iff hs).mpr (.inr href)) hchild

theorem nodup_warnings {s : Json} (hs : s.wellKeyed = true) (place : Place) :
    (warnings place s).Nodup := by
  induction s using induct generalizing place with
  | leaf v hitems hfields =>
    rw [warnings_leaf hitems hfields]
    exact .nil
  | arr items ih =>
    rw [warnings]
    apply nodup_item_warnings hs
    exact fun v hv => ih v hv ((Json.well_keyed_arr items).mp hs v hv)
  | obj fs hnamed hunder =>
    apply nodup_warnings_obj hs
    intro key hkey
    apply nodup_child_warnings hs
    · intro hmap values hvalues name v hv
      have hkeyed := (Json.well_keyed_obj values).mp (Json.well_keyed_of_lookup hs hvalues)
      exact hnamed key hmap values (Fields.mem_of_lookup hvalues) name v hv (hkeyed.2 name v hv)
    · intro hmap v hv
      have hschema : key ∈ schemaKeys := (List.mem_append.mp hkey).resolve_left hmap
      exact hunder key hschema v (Fields.mem_of_lookup hv) (Json.well_keyed_of_lookup hs hv)

end ToolSpec.Strict
