import Mathlib.Data.List.Induction
import Mathlib.Data.List.Perm.Basic
import ToolSpec.DeclaredType.Resolution

/-!
# First occurrences

`distinct` keeps a subsequence in which every element of the list has an equal one. A property that
does not tell equal elements apart therefore holds of some element before and after alike. What is
kept are the first occurrences, so that one more equal element changes nothing, and another order of
the list changes no more than their order.
-/

set_option autoImplicit false

namespace ToolSpec

variable {α : Type} {r : α → α → Bool}

theorem distinct_from_sublist (seen vs : List α) : (distinctFrom r seen vs).Sublist vs := by
  induction vs generalizing seen with
  | nil => exact .slnil
  | cons v rest ih =>
    unfold distinctFrom
    split
    · exact (ih seen).cons v
    · exact (ih (seen ++ [v])).cons_cons v

theorem distinct_subset {vs : List α} {v : α} (h : v ∈ distinct r vs) : v ∈ vs :=
  (distinct_from_sublist [] vs).mem h

theorem exists_distinct_from (seen : List α) {vs : List α} {v : α} (h : v ∈ vs) :
    ∃ w, (w ∈ seen ∨ w ∈ distinctFrom r seen vs) ∧ (w = v ∨ r w v = true) := by
  induction vs generalizing seen with
  | nil => simp at h
  | cons u rest ih =>
    unfold distinctFrom
    split
    · rename_i hseen
      rcases List.mem_cons.mp h with rfl | h
      · obtain ⟨w, hw, he⟩ := List.any_eq_true.mp hseen
        exact ⟨w, .inl hw, .inr he⟩
      · exact ih seen h
    · rcases List.mem_cons.mp h with rfl | h
      · exact ⟨v, .inr List.mem_cons_self, .inl rfl⟩
      · obtain ⟨w, hw, he⟩ := ih (seen ++ [u]) h
        refine ⟨w, ?_, he⟩
        simp only [List.mem_append, List.mem_singleton, or_assoc] at hw
        simpa [List.mem_cons] using hw

theorem exists_distinct {vs : List α} {v : α} (h : v ∈ vs) :
    ∃ w ∈ distinct r vs, w = v ∨ r w v = true := by
  obtain ⟨w, hw, he⟩ := exists_distinct_from (r := r) [] h
  exact ⟨w, by simpa [distinct] using hw, he⟩

theorem any_distinct {vs : List α} {p : α → Bool}
    (hp : ∀ a ∈ vs, ∀ b ∈ vs, r a b = true → p a = p b) :
    (distinct r vs).any p = vs.any p := by
  rw [Bool.eq_iff_iff, List.any_eq_true, List.any_eq_true]
  constructor
  · rintro ⟨v, hv, h⟩
    exact ⟨v, distinct_subset hv, h⟩
  · rintro ⟨v, hv, h⟩
    obtain ⟨w, hw, rfl | he⟩ := exists_distinct (r := r) hv
    · exact ⟨w, hw, h⟩
    · exact ⟨w, hw, by rwa [hp w (distinct_subset hw) v hv he]⟩

theorem distinct_from_append (seen us vs : List α) :
    distinctFrom r seen (us ++ vs) =
      distinctFrom r seen us ++ distinctFrom r (seen ++ distinctFrom r seen us) vs := by
  induction us generalizing seen with
  | nil => simp [distinctFrom]
  | cons u us ih =>
    rw [List.cons_append, distinctFrom, distinctFrom]
    split
    · exact ih seen
    · rw [ih, List.append_assoc, List.singleton_append, List.cons_append]

theorem distinct_append (us vs : List α) :
    distinct r (us ++ vs) = distinct r us ++ distinctFrom r (distinct r us) vs := by
  rw [distinct, distinct_from_append, List.nil_append]
  rfl

theorem distinct_concat (vs : List α) (v : α) :
    distinct r (vs ++ [v]) =
      distinct r vs ++ if (distinct r vs).any (r · v) then [] else [v] := by
  rw [distinct_append]
  rfl

theorem distinct_of_forall_eq {vs : List α} {v : α} (hrefl : r v v = true) (hne : vs ≠ [])
    (h : ∀ u ∈ vs, u = v) : distinct r vs = [v] := by
  induction vs using List.reverseRecOn with
  | nil => contradiction
  | append_singleton vs u ih =>
    obtain rfl : u = v := h u (by simp)
    rw [distinct_concat]
    by_cases hvs : vs = []
    · rw [hvs]
      rfl
    · rw [ih hvs fun w hw => h w (List.mem_append_left _ hw)]
      simp [hrefl]

theorem distinct_insert (htrans : ∀ u v w, r u v = true → r v w = true → r u w = true)
    {before : List α} {a b : α} (ha : a ∈ before) (hab : r a b = true) (after : List α) :
    distinct r (before ++ b::after) = distinct r (before ++ after) := by
  have hseen : (distinct r before).any (r · b) = true := by
    obtain ⟨w, hw, rfl | hwa⟩ := exists_distinct (r := r) ha
    · exact List.any_eq_true.mpr ⟨w, hw, hab⟩
    · exact List.any_eq_true.mpr ⟨w, hw, htrans w a b hwa hab⟩
  rw [distinct_append, distinct_append, distinctFrom, if_pos hseen]

/-- The second list holds the first occurrence of every element of the first one, once and in the
order of the first one. -/
structure Firsts (r : α → α → Bool) (vs firsts : List α) : Prop where
  covers : ∀ v ∈ vs, ∃ w ∈ firsts, r w v = true
  first : ∀ w ∈ firsts, vs.find? (r · w) = some w
  ordered : firsts.Pairwise fun w w' => vs.findIdx (r · w) < vs.findIdx (r · w')
  apart : firsts.Pairwise fun w w' => r w w' = false

namespace Firsts

variable {vs firsts : List α} {v : α}

theorem mem (h : Firsts r vs firsts) {w : α} (hw : w ∈ firsts) : w ∈ vs :=
  List.mem_of_find?_eq_some (h.first w hw)

theorem find_idx_lt (h : Firsts r vs firsts) {w : α} (hw : w ∈ firsts) :
    vs.findIdx (r · w) < vs.length :=
  List.findIdx_lt_length.mpr ⟨w, h.mem hw, List.find?_some (p := (r · w)) (h.first w hw)⟩

theorem find_idx_concat (h : Firsts r vs firsts) {w : α} (hw : w ∈ firsts) :
    (vs ++ [v]).findIdx (r · w) = vs.findIdx (r · w) := by
  rw [List.findIdx_append, if_pos (h.find_idx_lt hw)]

theorem ordered_concat (h : Firsts r vs firsts) :
    firsts.Pairwise fun w w' =>
      (vs ++ [v]).findIdx (r · w) < (vs ++ [v]).findIdx (r · w') := by
  apply h.ordered.imp_of_mem
  intro w w' hw hw' hlt
  rwa [h.find_idx_concat hw, h.find_idx_concat hw']

theorem first_concat (h : Firsts r vs firsts) {w : α} (hw : w ∈ firsts) :
    (vs ++ [v]).find? (r · w) = some w := by
  rw [List.find?_append, h.first w hw, Option.some_or]

theorem concat_known (h : Firsts r vs firsts) (hv : ∃ w ∈ firsts, r w v = true) :
    Firsts r (vs ++ [v]) firsts where
  covers u hu := by
    rcases List.mem_append.mp hu with hu | hu
    · exact h.covers u hu
    · rwa [List.mem_singleton.mp hu]
  first _ hw := h.first_concat hw
  ordered := h.ordered_concat
  apart := h.apart

theorem concat_new (h : Firsts r vs firsts) (hrefl : r v v = true)
    (htrans : ∀ u v w, r u v = true → r v w = true → r u w = true)
    (hv : ∀ w ∈ firsts, r w v = false) : Firsts r (vs ++ [v]) (firsts ++ [v]) := by
  have hnone : ∀ u ∈ vs, r u v = false := by
    intro u hu
    obtain ⟨w, hw, hwu⟩ := h.covers u hu
    rw [← Bool.not_eq_true]
    intro huv
    exact absurd (htrans w u v hwu huv) (by simp [hv w hw])
  have hlast : vs.length ≤ (vs ++ [v]).findIdx (r · v) := by
    rw [List.findIdx_append, if_neg]
    · exact Nat.le_add_left _ _
    · simpa [List.findIdx_lt_length] using hnone
  refine ⟨fun u hu => ?_, fun w hw => ?_, ?_, ?_⟩
  · rcases List.mem_append.mp hu with hu | hu
    · obtain ⟨w, hw, hwu⟩ := h.covers u hu
      exact ⟨w, List.mem_append_left _ hw, hwu⟩
    · obtain rfl := List.mem_singleton.mp hu
      exact ⟨u, by simp, hrefl⟩
  · rcases List.mem_append.mp hw with hw | hw
    · exact h.first_concat hw
    · obtain rfl := List.mem_singleton.mp hw
      have hold : vs.find? (r · w) = none := by simpa using hnone
      simp [List.find?_append, hold, hrefl]
  · rw [List.pairwise_append]
    refine ⟨h.ordered_concat, List.pairwise_singleton _ _, fun w hw u hu => ?_⟩
    obtain rfl := List.mem_singleton.mp hu
    rw [h.find_idx_concat hw]
    exact Nat.lt_of_lt_of_le (h.find_idx_lt hw) hlast
  · rw [List.pairwise_append]
    refine ⟨h.apart, List.pairwise_singleton _ _, fun w hw u hu => ?_⟩
    obtain rfl := List.mem_singleton.mp hu
    exact hv w hw

end Firsts

theorem distinct_firsts {vs : List α} (hrefl : ∀ v ∈ vs, r v v = true)
    (htrans : ∀ u v w, r u v = true → r v w = true → r u w = true) :
    Firsts r vs (distinct r vs) := by
  induction vs using List.reverseRecOn with
  | nil => exact ⟨by simp, by simp [distinct, distinctFrom], .nil, .nil⟩
  | append_singleton vs v ih =>
    have h := ih fun u hu => hrefl u (List.mem_append_left _ hu)
    rw [distinct_concat]
    split
    · rename_i hknown
      rw [List.append_nil]
      exact h.concat_known (List.any_eq_true.mp hknown)
    · rename_i hnew
      exact h.concat_new (hrefl v (by simp)) htrans (by simpa using hnew)

theorem unmatched_of_apart {P : α → Prop}
    (hsymm : ∀ u v, P u → P v → r u v = true → r v u = true)
    (htrans : ∀ u v w, r u v = true → r v w = true → r u w = true)
    (before after : List α) {u v : α} (hu : ∀ w ∈ before ++ u::after, P w) (hv : P v)
    (hapart : (before ++ u::after).Pairwise fun w w' => r w w' = false) (huv : r u v = true) :
    ∀ w ∈ before ++ after, r w v = false := by
  intro w hw
  rw [← Bool.not_eq_true]
  intro hwv
  obtain ⟨-, hafter, hbefore⟩ := List.pairwise_append.mp hapart
  have hP : P u := hu u (by simp)
  rcases List.mem_append.mp hw with hw | hw
  · have hne : r w u = false := hbefore w hw u List.mem_cons_self
    exact absurd (htrans w v u hwv (hsymm u v hP hv huv)) (by simp [hne])
  · have hne : r u w = false := (List.pairwise_cons.mp hafter).1 w hw
    have hPw : P w := hu w (by simp [hw])
    exact absurd (htrans u v w huv (hsymm w v hPw hv hwv)) (by simp [hne])

theorem exists_perm_of_covers {P : α → Prop}
    (hsymm : ∀ u v, P u → P v → r u v = true → r v u = true)
    (htrans : ∀ u v w, r u v = true → r v w = true → r u w = true) {us vs : List α}
    (hu : ∀ u ∈ us, P u) (hv : ∀ v ∈ vs, P v)
    (hus : us.Pairwise fun u u' => r u u' = false) (hvs : vs.Pairwise fun v v' => r v v' = false)
    (huv : ∀ u ∈ us, ∃ v ∈ vs, r u v = true) (hvu : ∀ v ∈ vs, ∃ u ∈ us, r u v = true) :
    ∃ ws, us.Perm ws ∧ List.Forall₂ (fun w v => r w v = true) ws vs := by
  induction vs generalizing us with
  | nil =>
    cases us with
    | nil => exact ⟨[], .nil, .nil⟩
    | cons u us => simpa using huv u List.mem_cons_self
  | cons v vs ih =>
    -- The pair of `v` and its match may be left out: no other element matches one of the two.
    obtain ⟨u, hmem, hmatch⟩ := hvu v List.mem_cons_self
    obtain ⟨before, after, rfl⟩ := List.append_of_mem hmem
    have hPu := hu u hmem
    have hPv := hv v List.mem_cons_self
    have hsub : (before ++ after).Sublist (before ++ u::after) :=
      .append (.refl before) (List.sublist_cons_self u after)
    have hrest := unmatched_of_apart hsymm htrans before after hu hPv hus hmatch
    have hothers := unmatched_of_apart hsymm htrans [] vs hv hPu hvs (hsymm u v hPu hPv hmatch)
    have huv' : ∀ w ∈ before ++ after, ∃ v' ∈ vs, r w v' = true := by
      intro w hw
      obtain ⟨v', hv', h⟩ := huv w (hsub.mem hw)
      rcases List.mem_cons.mp hv' with rfl | hv'
      · exact absurd h (by simp [hrest w hw])
      · exact ⟨v', hv', h⟩
    have hvu' : ∀ v' ∈ vs, ∃ w ∈ before ++ after, r w v' = true := by
      intro v' hv'
      have hmem' := List.mem_cons_of_mem v hv'
      obtain ⟨w, hw, h⟩ := hvu v' hmem'
      rcases List.mem_cons.mp (List.perm_middle.mem_iff.mp hw) with rfl | hw
      · exact absurd (hsymm w v' hPu (hv v' hmem') h) (by simp [hothers v' hv'])
      · exact ⟨w, hw, h⟩
    obtain ⟨ws, hperm, hws⟩ := ih (fun w h => hu w (hsub.mem h))
      (fun w h => hv w (List.mem_cons_of_mem v h)) (hus.sublist hsub)
      (List.pairwise_cons.mp hvs).2 huv' hvu'
    exact ⟨u::ws, List.perm_middle.trans (hperm.cons u), .cons hmatch hws⟩

theorem distinct_perm {P : α → Prop} (hrefl : ∀ u, P u → r u u = true)
    (hsymm : ∀ u v, P u → P v → r u v = true → r v u = true)
    (htrans : ∀ u v w, r u v = true → r v w = true → r u w = true) {us vs : List α}
    (h : us.Perm vs) (hP : ∀ u ∈ us, P u) :
    ∃ ws, (distinct r us).Perm ws ∧ List.Forall₂ (fun w v => r w v = true) ws (distinct r vs) := by
  have hPv : ∀ v ∈ vs, P v := fun v hv => hP v (h.mem_iff.mpr hv)
  have hus := distinct_firsts (fun u hu => hrefl u (hP u hu)) htrans
  have hvs := distinct_firsts (fun v hv => hrefl v (hPv v hv)) htrans
  apply exists_perm_of_covers hsymm htrans (fun u hu => hP u (hus.mem hu))
    (fun v hv => hPv v (hvs.mem hv)) hus.apart hvs.apart
  · intro u hu
    obtain ⟨v, hv, hmatch⟩ := hvs.covers u (h.mem_iff.mp (hus.mem hu))
    exact ⟨v, hv, hsymm v u (hPv v (hvs.mem hv)) (hP u (hus.mem hu)) hmatch⟩
  · exact fun v hv => hus.covers v (h.mem_iff.mpr (hvs.mem hv))

end ToolSpec
