import Mathlib.Data.List.Perm.Subperm
import ToolSpec.Proofs.Json.Keys

/-!
# Equality of JSON values

`same` compares objects by looking the fields of the left one up in the right one. With distinct
keys on both sides that is an equivalence; transitivity needs no condition.
-/

set_option autoImplicit false

namespace ToolSpec

theorem Binary64.same_trans {x y z : Binary64} (hxy : x.same y = true) (hyz : y.same z = true) :
    x.same z = true := by
  simp only [same, Bool.or_eq_true, Bool.and_eq_true, decide_eq_true_eq] at *
  rcases hxy with ⟨hx, hy⟩ | rfl
  · rcases hyz with ⟨-, hz⟩ | rfl
    · exact .inl ⟨hx, hz⟩
    · exact .inl ⟨hx, hy⟩
  · exact hyz

namespace Number

theorem same_refl (a : Number) : a.same a = true := by
  cases a <;> simp [same, Binary64.same_refl]

theorem same_comm (a b : Number) : a.same b = b.same a := by
  cases a <;> cases b <;> simp [same, eq_comm, Binary64.same_comm]

theorem same_trans {a b c : Number} (hab : a.same b = true) (hbc : b.same c = true) :
    a.same c = true := by
  cases a <;> cases b <;> cases c <;> simp only [same, decide_eq_true_eq, reduceCtorEq] at *
  · exact hab.trans hbc
  · exact Binary64.same_trans hab hbc

end Number

namespace Json

theorem same_items_iff (as bs : List Json) :
    sameItems as bs = true ↔ List.Forall₂ (fun a b => a.same b = true) as bs := by
  induction as generalizing bs with
  | nil => cases bs <;> simp [sameItems]
  | cons a as ih => cases bs <;> simp [sameItems, ih]

theorem same_fields_iff (as bs : Fields Json) :
    sameFields as bs = true ↔
      ∀ k a, (k, a) ∈ as → ∃ b, bs.lookup k = some b ∧ a.same b = true := by
  induction as with
  | nil => simp [sameFields]
  | cons e as ih =>
    obtain ⟨k, a⟩ := e
    have hhead : sameFields ((k, a)::as) bs = true ↔
        (∃ b, bs.lookup k = some b ∧ a.same b = true) ∧ sameFields as bs = true := by
      cases h : bs.lookup k <;> simp [sameFields, h]
    rw [hhead, ih]
    constructor
    · rintro ⟨ha, hr⟩ k' a' h
      rcases List.mem_cons.mp h with he | h
      · obtain ⟨rfl, rfl⟩ := Prod.mk.inj he
        exact ha
      · exact hr k' a' h
    · intro h
      exact ⟨h k a List.mem_cons_self, fun k' a' h' => h k' a' (List.mem_cons_of_mem _ h')⟩

theorem same_arr (as bs : List Json) :
    (Json.arr as).same (.arr bs) = true ↔ List.Forall₂ (fun a b => a.same b = true) as bs := by
  rw [same, same_items_iff]

theorem same_obj (as bs : Fields Json) :
    (Json.obj as).same (.obj bs) = true ↔ as.length = bs.length ∧
      ∀ k a, (k, a) ∈ as → ∃ b, bs.lookup k = some b ∧ a.same b = true := by
  rw [same, Bool.and_eq_true, decide_eq_true_eq, same_fields_iff]

theorem same_refl {v : Json} (h : v.wellKeyed = true) : v.same v = true := by
  induction v using Json.induct with
  | num n => exact Number.same_refl n
  | arr items ih =>
    rw [well_keyed_arr] at h
    rw [same_arr, List.forall₂_same]
    exact fun v hv => ih v hv (h v hv)
  | obj fields ih =>
    obtain ⟨hn, hvalues⟩ := (well_keyed_obj fields).mp h
    rw [same_obj]
    exact ⟨rfl, fun k v hv => ⟨v, Fields.lookup_of_mem hn hv, ih k v hv (hvalues k v hv)⟩⟩
  | _ => simp [same]

theorem same_trans {a b c : Json} (hab : a.same b = true) (hbc : b.same c = true) :
    a.same c = true := by
  induction a using Json.induct generalizing b c with
  | null => cases b <;> cases c <;> simp_all [same]
  | bool => cases b <;> cases c <;> simp_all [same]
  | num =>
    cases b <;> cases c <;> simp only [same, reduceCtorEq] at *
    exact Number.same_trans hab hbc
  | str => cases b <;> cases c <;> simp_all [same]
  | arr as ih =>
    cases b with
    | arr bs =>
      cases c with
      | arr cs =>
        rw [same_arr] at hab hbc ⊢
        induction hab generalizing cs with
        | nil => exact hbc
        | cons hd _ ihs =>
          cases hbc with
          | cons hd' tl' =>
            exact .cons (ih _ List.mem_cons_self hd hd')
              (ihs (fun v h => ih v (List.mem_cons_of_mem _ h)) _ tl')
      | _ => simp [same] at hbc
    | _ => simp [same] at hab
  | obj as ih =>
    cases b with
    | obj bs =>
      cases c with
      | obj cs =>
        rw [same_obj] at hab hbc ⊢
        refine ⟨hab.1.trans hbc.1, fun k a h => ?_⟩
        obtain ⟨b, hb, hs⟩ := hab.2 k a h
        obtain ⟨c, hc, hs'⟩ := hbc.2 k b (Fields.mem_of_lookup hb)
        exact ⟨c, hc, ih k a h hs hs'⟩
      | _ => simp [same] at hbc
    | _ => simp [same] at hab

/-- Equally many distinct keys on both sides: what has every key of the left has no other. -/
theorem keys_perm {as bs : Fields Json} (ha : (Fields.keys as).Nodup)
    (h : (Json.obj as).same (.obj bs) = true) : (Fields.keys as).Perm (Fields.keys bs) := by
  obtain ⟨hl, hf⟩ := (same_obj as bs).mp h
  apply (List.subperm_of_subset ha ?_).perm_of_length_le
  · simp [Fields.keys, hl]
  · intro k hk
    obtain ⟨e, he, rfl⟩ := List.mem_map.mp hk
    obtain ⟨b, hb, -⟩ := hf e.1 e.2 he
    exact Fields.mem_keys_iff.mpr ⟨b, hb⟩

theorem same_obj_right {as bs : Fields Json} (ha : (Fields.keys as).Nodup)
    (hb : (Fields.keys bs).Nodup) (h : (Json.obj as).same (.obj bs) = true) {k : String}
    {b : Json} (hk : (k, b) ∈ bs) : ∃ a, as.lookup k = some a ∧ a.same b = true := by
  have hm : k ∈ Fields.keys as := (keys_perm ha h).mem_iff.mpr (List.mem_map_of_mem hk)
  obtain ⟨a, hka⟩ := Fields.mem_keys_iff.mp hm
  obtain ⟨b', hb', hs⟩ := ((same_obj as bs).mp h).2 k a (Fields.mem_of_lookup hka)
  have he : b' = b := Option.some.inj (hb'.symm.trans (Fields.lookup_of_mem hb hk))
  exact ⟨a, hka, he ▸ hs⟩

theorem same_symm {a b : Json} (ha : a.wellKeyed = true) (hb : b.wellKeyed = true)
    (h : a.same b = true) : b.same a = true := by
  induction a using Json.induct generalizing b with
  | null => cases b <;> simp_all [same]
  | bool => cases b <;> simp_all [same]
  | num =>
    cases b <;> simp only [same, reduceCtorEq] at *
    rwa [Number.same_comm]
  | str => cases b <;> simp_all [same]
  | arr as ih =>
    cases b with
    | arr bs =>
      rw [same_arr] at h ⊢
      rw [well_keyed_arr] at ha hb
      induction h with
      | nil => exact .nil
      | cons hd _ ihs =>
        exact .cons
          (ih _ List.mem_cons_self (ha _ List.mem_cons_self) (hb _ List.mem_cons_self) hd)
          (ihs (fun v h => ih v (List.mem_cons_of_mem _ h))
            (fun v h => ha v (List.mem_cons_of_mem _ h))
            (fun v h => hb v (List.mem_cons_of_mem _ h)))
    | _ => simp [same] at h
  | obj as ih =>
    cases b with
    | obj bs =>
      obtain ⟨hna, hva⟩ := (well_keyed_obj as).mp ha
      obtain ⟨hnb, hvb⟩ := (well_keyed_obj bs).mp hb
      refine (same_obj bs as).mpr ⟨((same_obj as bs).mp h).1.symm, fun k b hk => ?_⟩
      obtain ⟨a, hka, hs⟩ := same_obj_right hna hnb h hk
      have hm := Fields.mem_of_lookup hka
      exact ⟨a, hka, ih k a hm (hva k a hm) (hvb k b hk) hs⟩
    | _ => simp [same] at h

theorem same_congr {a b : Json} (ha : a.wellKeyed = true) (hb : b.wellKeyed = true)
    (h : a.same b = true) (v : Json) : a.same v = b.same v :=
  Bool.eq_iff_iff.mpr ⟨same_trans (same_symm ha hb h), same_trans h⟩

end Json

end ToolSpec
