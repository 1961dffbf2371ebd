import ToolSpec.Proofs.Json.Equality
import ToolSpec.Proofs.Schema.Acceptance

/-!
# Equal schemas accept the same values

With values compared as the alternatives of a union are, it makes no difference to any value which
of two equal schemas it is judged by. So one of them may be left out.
-/

set_option autoImplicit false

namespace ToolSpec

open Json

def Reading.parts (r : Reading) (s : Json) : List (Json → Bool) :=
  (s.items?.getD []).map r.accepts

namespace EqualSchemas

theorem any_congr {as bs : List Json} {p : Json → Bool}
    (h : List.Forall₂ (fun a b => p a = p b) as bs) : as.any p = bs.any p := by
  induction h with
  | nil => rfl
  | cons hd _ ih => simp [hd, ih]

theorem str_congr {a b : Json} (h : a.same b = true) : a.str? = b.str? := by
  cases a <;> cases b <;> simp_all [same, str?]

theorem pairs {as bs : List Json} (ha : ∀ a ∈ as, a.wellKeyed = true)
    (hb : ∀ b ∈ bs, b.wellKeyed = true)
    (h : List.Forall₂ (fun a b => a.same b = true) as bs) :
    List.Forall₂ (fun a b => a ∈ as ∧ a.wellKeyed = true ∧ b.wellKeyed = true ∧ a.same b = true)
      as bs := by
  rw [List.forall₂_and_left, List.forall₂_and_left]
  refine ⟨fun _ h => h, ha, ?_⟩
  induction h with
  | nil => exact .nil
  | cons hd _ ih =>
    exact .cons ⟨hb _ List.mem_cons_self, hd⟩
      (ih (fun a h => ha a (List.mem_cons_of_mem _ h)) fun b h => hb b (List.mem_cons_of_mem _ h))

theorem keyword_congr {s t : Json} (hs : s.wellKeyed = true) (ht : t.wellKeyed = true)
    (h : s.same t = true) (key : String) (whole : Json → Bool) (parts : List (Json → Bool))
    (v : Json) :
    Reading.exact.keyword key s whole parts v = Reading.exact.keyword key t whole parts v := by
  have hconst : Reading.exact.equal s v = Reading.exact.equal t v := same_congr hs ht h v
  cases s with
  | arr as =>
    cases t with
    | arr bs =>
      have hitems := (same_arr as bs).mp h
      have hpairs := pairs ((well_keyed_arr as).mp hs) ((well_keyed_arr bs).mp ht) hitems
      have htypes : as.any (fun n => n.str?.any (v.isOfType Reading.exact.integral ·)) =
          bs.any (fun n => n.str?.any (v.isOfType Reading.exact.integral ·)) :=
        any_congr (hitems.imp fun a b hab => by rw [str_congr hab])
      have hvalues : as.any (Reading.exact.equal · v) = bs.any (Reading.exact.equal · v) :=
        any_congr (hpairs.imp fun a b hab => same_congr hab.2.1 hab.2.2.1 hab.2.2.2 v)
      unfold Reading.keyword
      split <;> simp_all
    | _ => simp [same] at h
  | str a =>
    obtain rfl : t = .str a := by cases t <;> simp_all [same]
    rfl
  | _ =>
    cases t <;> simp only [same, reduceCtorEq] at h
    all_goals
      unfold Reading.keyword
      split <;> simp_all

theorem same_accepts {s t : Json} (hs : s.wellKeyed = true) (ht : t.wellKeyed = true)
    (h : s.same t = true) :
    Reading.exact.accepts s = Reading.exact.accepts t ∧
      Reading.exact.parts s = Reading.exact.parts t := by
  induction s using Json.induct generalizing t with
  | arr as ih =>
    cases t with
    | arr bs =>
      have hpairs := pairs ((well_keyed_arr as).mp hs) ((well_keyed_arr bs).mp ht)
        ((same_arr as bs).mp h)
      refine ⟨rfl, ?_⟩
      simp only [Reading.parts, items?, Option.getD_some]
      rw [← List.forall₂_eq_eq_eq, List.forall₂_map_left_iff, List.forall₂_map_right_iff]
      exact hpairs.imp fun a b hab => (ih a hab.1 hab.2.1 hab.2.2.1 hab.2.2.2).1
    | _ => simp [same] at h
  | obj fs ih =>
    cases t with
    | obj gs =>
      obtain ⟨hnf, hvf⟩ := (well_keyed_obj fs).mp hs
      obtain ⟨hng, hvg⟩ := (well_keyed_obj gs).mp ht
      have hmeets : ∀ k a b v, (k, a) ∈ fs → (k, b) ∈ gs → a.same b = true →
          Reading.exact.meets k a v = Reading.exact.meets k b v := by
        intro k a b v ha hb hab
        have hak := hvf k a ha
        have hbk := hvg k b hb
        obtain ⟨hwhole, hparts⟩ := ih k a ha hak hbk hab
        simp only [Reading.parts] at hparts
        rw [Reading.meets, Reading.meets, hwhole, hparts]
        exact keyword_congr hak hbk hab k _ _ v
      refine ⟨?_, rfl⟩
      funext v
      rw [Bool.eq_iff_iff, Reading.accepts_iff_lookup _ hnf, Reading.accepts_iff_lookup _ hng]
      refine and_congr_left fun _ => ⟨fun hall k b hb => ?_, fun hall k a ha => ?_⟩
      · have hkb := Fields.mem_of_lookup hb
        obtain ⟨a, ha, hab⟩ := same_obj_right hnf hng h hkb
        rw [← hmeets k a b v (Fields.mem_of_lookup ha) hkb hab]
        exact hall k a ha
      · have hka := Fields.mem_of_lookup ha
        obtain ⟨b, hb, hab⟩ := ((same_obj fs gs).mp h).2 k a hka
        rw [hmeets k a b v hka (Fields.mem_of_lookup hb) hab]
        exact hall k b hb
    | _ => simp [same] at h
  | bool a => cases t <;> simp_all [same]
  | _ =>
    cases t <;> simp only [same, reduceCtorEq] at h
    all_goals exact ⟨rfl, rfl⟩

end EqualSchemas

end ToolSpec
