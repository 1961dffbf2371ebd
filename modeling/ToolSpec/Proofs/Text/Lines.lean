import Mathlib.Data.List.Forall2
import Mathlib.Data.List.Induction
import Mathlib.Data.List.TakeWhile
import ToolSpec.Text.Blank

/-!
# Lines of a text

Two lines are alike if they show the same text at the same indentation, and shifted if they show it
at indentations some bytes apart. Lines that are joined to a text and split again are alike, one by
one: a carriage return at the end of a line goes, and so does the last line if it is empty. A text
without the blanks at its end has alike lines, but for blank ones at the end.
-/

set_option autoImplicit false

namespace ToolSpec.Text

variable {s b l : Line}

theorem ne_of_not_mem {d : Char} (h : d ∉ s) : ∀ c ∈ s, decide (c ≠ d) = true := by
  intro c hc
  have hne : c ≠ d := fun heq => h (heq ▸ hc)
  simpa using hne

theorem trim_end_eq_nil (hb : ∀ c ∈ b, isBlank c = true) : trimEnd b = [] := by
  induction b with
  | nil => rfl
  | cons c b ih =>
    obtain ⟨hc, hb⟩ := List.forall_mem_cons.mp hb
    rw [trimEnd, ih hb]
    simp [hc]

theorem trim_end_append_blanks (s : Line) (hb : ∀ c ∈ b, isBlank c = true) :
    trimEnd (s++b) = trimEnd s := by
  induction s with
  | nil => rw [List.nil_append, trim_end_eq_nil hb, trimEnd]
  | cons c s ih => rw [List.cons_append, trimEnd, ih, trimEnd]

theorem trim_end_append (s : Line) (hl : trimEnd l ≠ []) : trimEnd (s++l) = s ++ trimEnd l := by
  induction s with
  | nil => rfl
  | cons c s ih =>
    rw [List.cons_append, trimEnd, ih]
    cases h : s ++ trimEnd l with
    | nil => exact absurd (List.append_eq_nil_iff.mp h).2 hl
    | cons d kept => simp [h]

theorem trim_end_of_solid (h : ∀ c ∈ s, isBlank c = false) : trimEnd s = s := by
  induction s with
  | nil => rfl
  | cons c s ih =>
    obtain ⟨hc, hs⟩ := List.forall_mem_cons.mp h
    rw [trimEnd, ih hs]
    cases s <;> simp [hc]

theorem length_trim_end_le (s : Line) : (trimEnd s).length ≤ s.length := by
  induction s with
  | nil => exact le_refl _
  | cons c s ih =>
    rw [trimEnd]
    cases h : trimEnd s with
    | nil => by_cases hc : isBlank c = true <;> simp [hc]
    | cons d kept =>
      rw [h] at ih
      exact Nat.succ_le_succ ih

theorem skip_blanks_of_blanks (hb : ∀ c ∈ b, isBlank c = true) : skipBlanks b = [] :=
  List.dropWhile_eq_nil_iff.mpr hb

theorem trim_append_blanks (s : Line) (hb : ∀ c ∈ b, isBlank c = true) :
    trim (s++b) = trim s := by
  rw [trim, skipBlanks, List.dropWhile_append]
  by_cases hs : skipBlanks s = []
  · have hempty : (s.dropWhile isBlank).isEmpty = true := by rw [List.isEmpty_iff]; exact hs
    rw [if_pos hempty, trim, hs]
    exact congrArg trimEnd (skip_blanks_of_blanks hb)
  · have hkept : ¬ (s.dropWhile isBlank).isEmpty = true := by rwa [List.isEmpty_iff]
    rw [if_neg hkept, trim_end_append_blanks _ hb]
    rfl

theorem indent_append (b : Line) (hs : trim s ≠ []) : indent (s++b) = indent s := by
  have hlong : ¬ (s.takeWhile isBlank).length = s.length := by
    intro hlength
    apply hs
    have hall : ∀ c ∈ s, isBlank c = true :=
      List.takeWhile_eq_self_iff.mp ((List.takeWhile_prefix isBlank).eq_of_length hlength)
    rw [trim, skip_blanks_of_blanks hall, trimEnd]
  rw [indent, leadingBlanks, List.takeWhile_append, if_neg hlong]
  rfl

theorem trim_append (hb : ∀ c ∈ b, isBlank c = true) (l : Line) : trim (b++l) = trim l :=
  congrArg trimEnd (List.dropWhile_append_of_pos hb)

theorem indent_spaces (k : Nat) (l : Line) : indent (List.replicate k ' ' ++ l) = indent l + k := by
  induction k with
  | zero => rfl
  | succ k ih =>
    have hcons (s : Line) : indent (' '::s) = 1 + indent s := by
      simp [indent, leadingBlanks, is_blank_space, Char.utf8Size]
    rw [List.replicate_succ, List.cons_append, hcons, ih]
    omega

theorem skip_blanks_of_trimmed (h : trim s = s) : skipBlanks s = s := by
  have hlength := length_trim_end_le (skipBlanks s)
  rw [← trim, h] at hlength
  exact (List.dropWhile_suffix isBlank).eq_of_length_le hlength

theorem trim_end_of_trimmed (h : trim s = s) : trimEnd s = s := by
  rwa [trim, skip_blanks_of_trimmed h] at h

theorem skip_blanks_of_indent (h : indent s = 0) : skipBlanks s = s := by
  cases s with
  | nil => rfl
  | cons c s =>
    cases hc : isBlank c with
    | false => simp [skipBlanks, hc]
    | true =>
      have hsize : 0 < c.utf8Size := c.utf8Size_pos
      have hsum : indent (c::s) = c.utf8Size + indent s := by simp [indent, leadingBlanks, hc]
      omega

theorem exists_trim_end (s : Line) : ∃ b, (∀ c ∈ b, isBlank c = true) ∧ trimEnd s ++ b = s := by
  induction s with
  | nil => exact ⟨[], by simp, rfl⟩
  | cons c s ih =>
    obtain ⟨b, hb, hs⟩ := ih
    rw [trimEnd]
    split
    · rename_i hnil
      rw [hnil, List.nil_append] at hs
      subst hs
      split
      · rename_i hc
        exact ⟨c::b, List.forall_mem_cons.mpr ⟨hc, hb⟩, rfl⟩
      · exact ⟨b, hb, rfl⟩
    · exact ⟨b, hb, congrArg (c::·) hs⟩

theorem blanks_of_trim_end (h : trimEnd s = []) : ∀ c ∈ s, isBlank c = true := by
  obtain ⟨b, hb, hs⟩ := exists_trim_end s
  rw [h, List.nil_append] at hs
  rwa [← hs]

theorem trim_of_trim_end (h : trimEnd s = []) : trim s = [] := by
  rw [trim, skip_blanks_of_blanks (blanks_of_trim_end h), trimEnd]

theorem not_mem_trim_end {c : Char} (h : c ∉ l) : c ∉ trimEnd l := by
  obtain ⟨b, -, hl⟩ := exists_trim_end l
  rw [← hl, List.mem_append, not_or] at h
  exact h.1

/-- Blank lines are alike whatever their blanks. -/
def Alike (l l' : Line) : Prop := trim l = trim l' ∧ (trim l ≠ [] → indent l = indent l')

theorem Alike.refl (l : Line) : Alike l l := ⟨rfl, fun _ => rfl⟩

/-- The second line shows the text of the first `k` bytes deeper. -/
def Shifted (k : Nat) (l l' : Line) : Prop :=
  trim l' = trim l ∧ (trim l ≠ [] → indent l' = indent l + k)

theorem Alike.shifted {l l' : Line} (h : Alike l l') : Shifted 0 l l' :=
  ⟨h.1.symm, fun hl => (h.2 hl).symm⟩

theorem alike_trim_end (l : Line) : Alike l (trimEnd l) := by
  obtain ⟨b, hb, hl⟩ := exists_trim_end l
  have htrim : trim l = trim (trimEnd l) := by
    conv_lhs => rw [← hl]
    exact trim_append_blanks _ hb
  refine ⟨htrim, fun h => ?_⟩
  rw [htrim] at h
  conv_lhs => rw [← hl]
  exact indent_append b h

theorem alike_return (l : Line) : Alike (l ++ ['\r']) l := by
  have htrim : trim (l ++ ['\r']) = trim l := trim_append_blanks l (by simp [isBlank])
  refine ⟨htrim, fun h => indent_append _ ?_⟩
  rwa [htrim] at h

theorem lines_cons {c : Char} (hc : c ≠ '\n') (hr : c = '\r' → s.head? ≠ some '\n') :
    lines (c::s) = match lines s with
      | [] => [[c]]
      | first::more => (c::first)::more := by
  have hplain : ∀ rest, c = '\r' → s = '\n'::rest → False := by
    rintro rest hcr rfl
    exact hr hcr rfl
  exact lines.eq_4 c s hc hplain

theorem lines_single (hl : '\n' ∉ l) (hne : l ≠ []) : lines l = [l] := by
  induction l with
  | nil => contradiction
  | cons c s ih =>
    rw [List.mem_cons, not_or] at hl
    obtain ⟨hc, hs⟩ := hl
    rw [lines_cons (Ne.symm hc) fun _ h => hs (List.mem_of_head? h)]
    by_cases hempty : s = []
    · subst hempty
      rfl
    · rw [ih hs hempty]

/-- A line feed ends a line and takes the carriage return before it. -/
theorem lines_append (hl : '\n' ∉ l) (rest : Line) :
    ∃ l', (l = l' ∨ l = l' ++ ['\r']) ∧ lines (l ++ '\n'::rest) = l'::lines rest := by
  induction l with
  | nil => exact ⟨[], .inl rfl, rfl⟩
  | cons c s ih =>
    rw [List.mem_cons, not_or] at hl
    obtain ⟨hc, hs⟩ := hl
    by_cases hreturn : c = '\r' ∧ s = []
    · obtain ⟨rfl, rfl⟩ := hreturn
      exact ⟨[], .inr rfl, rfl⟩
    · obtain ⟨l', hl', hlines⟩ := ih hs
      have hnext : c = '\r' → (s ++ '\n'::rest).head? ≠ some '\n' := by
        intro hcr
        cases s with
        | nil => exact absurd ⟨hcr, rfl⟩ hreturn
        | cons d s => simpa using Ne.symm (List.ne_of_not_mem_cons hs)
      refine ⟨c::l', ?_, ?_⟩
      · rcases hl' with rfl | rfl
        · exact .inl rfl
        · exact .inr rfl
      · rw [List.cons_append, lines_cons (Ne.symm hc) hnext, hlines]

theorem join_lines_cons (l next : Line) (rest : List Line) :
    joinLines (l::next::rest) = l ++ '\n'::joinLines (next::rest) := by
  rw [joinLines, List.intercalate_cons_cons, List.append_assoc]
  rfl

theorem exists_join_lines_cons (l : Line) (ls : List Line) :
    ∃ rest, joinLines (l::ls) = l++rest := by
  cases ls with
  | nil => exact ⟨[], by simp [joinLines]⟩
  | cons next ls => exact ⟨'\n'::joinLines (next::ls), join_lines_cons l next ls⟩

theorem join_lines_concat {ls : List Line} (hne : ls ≠ []) (l : Line) :
    joinLines (ls ++ [l]) = joinLines ls ++ '\n'::l := by
  induction ls with
  | nil => contradiction
  | cons first ls ih =>
    cases ls with
    | nil => simp [joinLines, List.intercalate_cons_cons]
    | cons next ls =>
      rw [List.cons_append, List.cons_append, join_lines_cons, join_lines_cons, ← List.cons_append,
        ih (List.cons_ne_nil next ls)]
      simp

theorem join_lines_split_on (s : List Char) : joinLines (s.splitOn '\n') = s :=
  List.intercalate_splitOn '\n'

theorem newline_not_mem_of_cons {c : Char} {first : Line} {more : List Line} (hc : c ≠ '\n')
    (hrest : ∀ l ∈ first::more, '\n' ∉ l) : ∀ l ∈ (c::first)::more, '\n' ∉ l := by
  intro l h
  rcases List.mem_cons.mp h with rfl | h
  · exact List.not_mem_cons_of_ne_of_not_mem hc.symm (hrest first List.mem_cons_self)
  · exact hrest l (List.mem_cons_of_mem first h)

theorem newline_not_mem_split_on {s : List Char} {l : Line} (h : l ∈ s.splitOn '\n') :
    '\n' ∉ l := by
  induction s generalizing l with
  | nil =>
    obtain rfl : l = [] := by simpa using h
    exact List.not_mem_nil
  | cons c s ih =>
    rw [List.splitOn_cons_eq_if_modifyHead] at h
    obtain ⟨first, more, hsplit⟩ := List.exists_cons_of_ne_nil (List.splitOn_ne_nil '\n' s)
    by_cases hc : c = '\n'
    · rw [if_pos (by simpa using hc)] at h
      rcases List.mem_cons.mp h with rfl | h
      · exact List.not_mem_nil
      · exact ih h
    · rw [if_neg (by simpa using hc), hsplit, List.modifyHead_cons] at h
      rw [hsplit] at ih
      exact newline_not_mem_of_cons hc (fun _ => ih) l h

theorem newline_not_mem_lines {s : List Char} {l : Line} (h : l ∈ lines s) : '\n' ∉ l := by
  fun_induction lines s generalizing l with
  | case1 => simp at h
  | case2 rest ih =>
    rcases List.mem_cons.mp h with rfl | h
    · exact List.not_mem_nil
    · exact ih h
  | case3 rest ih =>
    rcases List.mem_cons.mp h with rfl | h
    · exact List.not_mem_nil
    · exact ih h
  | case4 c rest hc hreturn hempty ih =>
    obtain rfl := List.mem_singleton.mp h
    simpa using Ne.symm hc
  | case5 c rest hc hreturn first more hrest ih =>
    rw [hrest] at ih
    exact newline_not_mem_of_cons hc (fun _ => ih) l h

theorem lines_join_lines {ls : List Line} (h : ∀ l ∈ ls, '\n' ∉ l) :
    ∃ ls', List.Forall₂ Alike ls ls' ∧
      (lines (joinLines ls) = ls' ∨ lines (joinLines ls) ++ [[]] = ls') := by
  induction ls with
  | nil => exact ⟨[], .nil, .inl rfl⟩
  | cons l rest ih =>
    obtain ⟨hl, hrest⟩ := List.forall_mem_cons.mp h
    cases rest with
    | nil =>
      refine ⟨[l], .cons (.refl l) .nil, ?_⟩
      rw [joinLines, List.intercalate_singleton]
      by_cases hne : l = []
      · subst hne
        exact .inr rfl
      · exact .inl (lines_single hl hne)
    | cons next rest =>
      obtain ⟨ls', halike, hsplit⟩ := ih hrest
      obtain ⟨l', hfirst, hlines⟩ := lines_append hl (joinLines (next::rest))
      have hfirst : Alike l l' := by
        rcases hfirst with rfl | rfl
        · exact .refl l
        · exact alike_return l'
      refine ⟨l'::ls', .cons hfirst halike, ?_⟩
      rw [join_lines_cons, hlines]
      rcases hsplit with h | h
      · exact .inl (congrArg (l'::·) h)
      · exact .inr (congrArg (l'::·) h)

theorem exists_lines_trim_end {ls : List Line} (h : ∀ l ∈ ls, '\n' ∉ l) :
    ∃ kept blanks, trimEnd (joinLines ls) = joinLines kept ∧ (∀ l ∈ kept, '\n' ∉ l) ∧
      (∀ l ∈ blanks, trim l = []) ∧ List.Forall₂ Alike ls (kept++blanks) := by
  induction ls using List.reverseRecOn with
  | nil => exact ⟨[], [], rfl, by simp, by simp, .nil⟩
  | append_singleton ls l ih =>
    obtain ⟨hls, hlast⟩ := List.forall_mem_append.mp h
    have hl : '\n' ∉ trimEnd l := not_mem_trim_end (hlast l List.mem_cons_self)
    by_cases hempty : ls = []
    · subst hempty
      exact ⟨[trimEnd l], [], by simp [joinLines], by simpa using hl, by simp,
        .cons (alike_trim_end l) .nil⟩
    rw [join_lines_concat hempty]
    by_cases hblank : trimEnd l = []
    · obtain ⟨kept, blanks, hkept, hplain, hblanks, halike⟩ := ih hls
      have hend : ∀ c ∈ '\n'::l, isBlank c = true :=
        List.forall_mem_cons.mpr ⟨is_blank_newline, blanks_of_trim_end hblank⟩
      refine ⟨kept, blanks ++ [l], ?_, hplain, ?_, ?_⟩
      · rw [trim_end_append_blanks _ hend, hkept]
      · rw [List.forall_mem_append, List.forall_mem_singleton]
        exact ⟨hblanks, trim_of_trim_end hblank⟩
      · rw [← List.append_assoc]
        exact List.rel_append halike (.cons (.refl l) .nil)
    · have hbreak : trimEnd ('\n'::l) = '\n'::trimEnd l := by
        rw [← List.singleton_append, trim_end_append _ hblank, List.singleton_append]
      refine ⟨ls ++ [trimEnd l], [], ?_, ?_, by simp, ?_⟩
      · rw [trim_end_append _ (by simp [hbreak]), hbreak, join_lines_concat hempty]
      · rw [List.forall_mem_append, List.forall_mem_singleton]
        exact ⟨hls, hl⟩
      · rw [List.append_nil]
        exact List.rel_append (List.forall₂_same.mpr fun l _ => .refl l)
          (.cons (alike_trim_end l) .nil)

end ToolSpec.Text
