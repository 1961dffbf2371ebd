import Mathlib.Algebra.Order.Ring.Nat
import ToolSpec.Json.Binary64

/-!
# Integers as floats

An integer is rounded at the scale that leaves it a full mantissa. Rounding up may reach the next
power of two, which has a full mantissa at the next scale. So every integer of up to 1023 bits has a
nearest float that is finite.
-/

set_option autoImplicit false

namespace ToolSpec

/-- At a scale that is `k` below its binary logarithm, an integer has `k + 1` binary digits. -/
theorem scaled_quotient_bounds {n : Nat} (hn : n ≠ 0) (k : Nat) {scale : Int}
    (hscale : scale = (n.log2 : Int) - k) :
    0 < (scaledQuotient n 1 scale).2 ∧
      2^k*(scaledQuotient n 1 scale).2 ≤ (scaledQuotient n 1 scale).1 ∧
      (scaledQuotient n 1 scale).1 < 2^(k+1)*(scaledQuotient n 1 scale).2 := by
  have hlow : 2^n.log2 ≤ n := Nat.log2_self_le hn
  have hhigh : n < 2^(n.log2+1) := Nat.lt_log2_self
  rcases Nat.le_total k n.log2 with hk | hk
  · obtain ⟨j, hj⟩ := Nat.exists_eq_add_of_le hk
    have hquotient : scaledQuotient n 1 scale = (n, 2^j) := by
      have hpos : 0 ≤ scale := by omega
      have hnat : scale.toNat = j := by omega
      rw [scaledQuotient, if_pos hpos, hnat, Nat.one_shiftLeft]
    rw [hquotient, ← Nat.pow_add, ← Nat.pow_add, ← hj, show k+1+j = n.log2+1 by omega]
    exact ⟨Nat.two_pow_pos j, hlow, hhigh⟩
  · obtain ⟨j, hj⟩ := Nat.exists_eq_add_of_le hk
    have hquotient : scaledQuotient n 1 scale = (n*2^j, 1) := by
      rcases Nat.eq_zero_or_pos j with hzero | hpos
      · have hscale : scale = 0 := by omega
        simp [scaledQuotient, hscale, hzero]
      · have hneg : ¬ 0 ≤ scale := by omega
        have hnat : (-scale).toNat = j := by omega
        rw [scaledQuotient, if_neg hneg, hnat, Nat.shiftLeft_eq]
    have hstep : k+1 = n.log2+1+j := by omega
    rw [hquotient, Nat.mul_one, Nat.mul_one, hstep, hj, Nat.pow_add, Nat.pow_add _ (n.log2+1)]
    exact ⟨Nat.one_pos, Nat.mul_le_mul_right _ hlow,
      Nat.mul_lt_mul_of_pos_right hhigh (Nat.two_pow_pos j)⟩

theorem div_half_even_bounds {num den low high : Nat} (hden : 0 < den) (hlow : low*den ≤ num)
    (hhigh : num < high*den) : low ≤ divHalfEven num den ∧ divHalfEven num den ≤ high := by
  have hq : low ≤ num/den := (Nat.le_div_iff_mul_le hden).mpr hlow
  have hq' : num/den < high := (Nat.div_lt_iff_lt_mul hden).mpr hhigh
  unfold divHalfEven
  dsimp only
  split
  · omega
  · split <;> omega

namespace FloatFormat

theorem scale_of_int {n : Nat} (hn : n ≠ 0) (f : FloatFormat)
    (hmin : f.minScale ≤ (n.log2 : Int) - f.precision) :
    f.scaleOf n 1 = (n.log2 : Int) - f.precision + 1 := by
  have hlow : max f.minScale ((n.log2 : Int) - Nat.log2 1 - f.precision) =
      (n.log2 : Int) - f.precision := by
    have hone : Nat.log2 1 = 0 := by decide
    omega
  obtain ⟨hden, hfull, -⟩ := scaled_quotient_bounds hn f.precision rfl
  have hlimit : ¬ (scaledQuotient n 1 ((n.log2 : Int) - f.precision)).1 /
      (scaledQuotient n 1 ((n.log2 : Int) - f.precision)).2 < f.mantissaLimit := by
    rw [mantissaLimit, Nat.one_shiftLeft, Nat.not_lt]
    exact (Nat.le_div_iff_mul_le hden).mpr hfull
  rw [scaleOf, hlow]
  exact if_neg hlimit

theorem round_double {n : Nat} (hn : n ≠ 0) (hsize : n.log2 ≤ 1022) :
    ∃ m s, double.round n 1 = some (m, s) ∧ Canonical m s ∧ m ≠ 0 := by
  have hscale : double.scaleOf n 1 = (n.log2 : Int) - 52 := by
    have hprecision : double.precision = 53 := rfl
    have hmin : double.minScale = -1074 := rfl
    rw [scale_of_int hn double (by omega), hprecision]
    omega
  obtain ⟨hden, hlow, hhigh⟩ := scaled_quotient_bounds hn 52 hscale
  obtain ⟨hfull, hlimit⟩ := div_half_even_bounds hden hlow hhigh
  rw [round, if_neg hn]
  dsimp only
  generalize double.scaleOf n 1 = scale at *
  generalize divHalfEven (scaledQuotient n 1 scale).1 (scaledQuotient n 1 scale).2 = m at *
  have hmax : double.mantissaLimit = 2^53 := rfl
  have hrange : double.maxScale = 971 := rfl
  rw [hmax, hrange]
  by_cases hcarry : m = 2^53
  · rw [if_pos hcarry]
    refine ⟨m/2, scale+1, if_pos (by omega), ?_⟩
    simp only [Canonical, fullMantissa]
    omega
  · rw [if_neg hcarry]
    refine ⟨m, scale, if_pos (by omega), ?_⟩
    simp only [Canonical, fullMantissa]
    omega

end FloatFormat

theorem Binary64.exists_of_int {n : Int} (hn : n ≠ 0) (h : n.natAbs.log2 ≤ 1022) :
    ∃ x, ofInt? n = some x ∧ x.isZero = false := by
  obtain ⟨m, s, hround, hcanonical, hpos⟩ :=
    FloatFormat.round_double (Int.natAbs_ne_zero.mpr hn) h
  refine ⟨⟨n < 0, m, s, hcanonical⟩, ?_, by simp [isZero, hpos]⟩
  rw [ofInt?, ofQuotient?, hround]
  exact dif_pos hcanonical

theorem Double.of_int_finite {n : Int} {x : Binary64} (h : Binary64.ofInt? n = some x) :
    ofInt n = .finite x := by
  rw [Binary64.ofInt?] at h
  rw [ofInt, ofQuotient, h]

end ToolSpec
