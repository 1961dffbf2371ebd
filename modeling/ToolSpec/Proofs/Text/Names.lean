import ToolSpec.Text.Blank
import ToolSpec.Text.WordChar

/-!
# Names

A name is an ASCII letter or `_` followed by word characters. None of these is a blank or one of the
signs that stand around a name.
-/

set_option autoImplicit false

namespace ToolSpec.Text

def IsName : Line → Prop
  | [] => False
  | c::rest => isNameStart c = true ∧ ∀ d ∈ rest, isWordChar d = true

instance (s : Line) : Decidable (IsName s) :=
  match s with
  | [] => inferInstanceAs (Decidable False)
  | c::rest =>
    decidable_of_iff (isNameStart c = true ∧ rest.all isWordChar = true) (by simp [IsName])

def blankCodes : List Nat :=
  [9, 10, 11, 12, 13, 0x20, 0x85, 0xA0, 0x1680, 0x2000, 0x2001, 0x2002, 0x2003, 0x2004, 0x2005,
    0x2006, 0x2007, 0x2008, 0x2009, 0x200A, 0x2028, 0x2029, 0x202F, 0x205F, 0x3000]

theorem mem_blank_codes {c : Char} (h : isBlank c = true) : c.toNat ∈ blankCodes := by
  simp only [isBlank, Bool.or_eq_true, Bool.and_eq_true, decide_eq_true_eq] at h
  simp only [blankCodes, List.mem_cons, List.not_mem_nil]
  omega

theorem blank_not_word {c : Char} (h : isBlank c = true) : isWordChar c = false := by
  have hcodes : ∀ n ∈ blankCodes, isWordChar (Char.ofNat n) = false := by decide +kernel
  have hc := hcodes c.toNat (mem_blank_codes h)
  rwa [Char.ofNat_toNat] at hc

theorem word_not_blank {c : Char} (h : isWordChar c = true) : isBlank c = false := by
  cases hc : isBlank c with
  | false => rfl
  | true =>
    rw [blank_not_word hc] at h
    contradiction

theorem to_nat_lt_of_is_alpha {c : Char} (h : c.isAlpha = true) : c.toNat < 128 := by
  have hletter : (decide ('A'.val ≤ c.val ∧ c.val ≤ 'Z'.val) ||
      (decide ('a'.val ≤ c.val) && decide (c.val ≤ 'z'.val))) = true := h
  simp only [Bool.or_eq_true, Bool.and_eq_true, decide_eq_true_eq, UInt32.le_iff_toNat_le]
    at hletter
  have hcode : c.toNat = c.val.toNat := rfl
  have hlast : 'Z'.val.toNat = 90 ∧ 'z'.val.toNat = 122 := ⟨rfl, rfl⟩
  omega

theorem name_start_word {c : Char} (h : isNameStart c = true) : isWordChar c = true := by
  simp only [isNameStart, Bool.or_eq_true, decide_eq_true_eq] at h
  rcases h with h | rfl
  · rw [isWordChar, if_pos (to_nat_lt_of_is_alpha h), Char.isAlphanum, h]
    rfl
  · decide

theorem word_ne {c d : Char} (hc : isWordChar c = true) (hd : isWordChar d = false) : c ≠ d := by
  rintro rfl
  rw [hc] at hd
  contradiction

namespace IsName

variable {n : Line}

theorem ne_nil (h : IsName n) : n ≠ [] := by
  rintro rfl
  exact h

theorem word (h : IsName n) : ∀ c ∈ n, isWordChar c = true := by
  cases n with
  | nil => exact h.elim
  | cons c rest => exact List.forall_mem_cons.mpr ⟨name_start_word h.1, h.2⟩

theorem exists_cons (h : IsName n) : ∃ c rest, n = c::rest ∧ isWordChar c = true := by
  cases n with
  | nil => exact h.elim
  | cons c rest => exact ⟨c, rest, rfl, name_start_word h.1⟩

theorem not_mem (h : IsName n) {c : Char} (hc : isWordChar c = false) : c ∉ n :=
  fun hmem => word_ne (h.word c hmem) hc rfl

end IsName

end ToolSpec.Text
