import ToolSpec.Docstring.Entry
import ToolSpec.Proofs.Text.Lines
import ToolSpec.Proofs.Text.Names

/-!
# Documented parameters

What a docstring says of a parameter: its name and a description of one or more lines. The readers
of names and sentences give these parts back, and a description collects the lines one by one.
-/

set_option autoImplicit false

namespace ToolSpec.Docstring
open ToolSpec.Text

/-- The first line of the description may be empty, the others not. -/
structure Documented where
  name : Line
  first : Line
  more : List Line
  isName : IsName name
  isSentence : trim first = first ∧ '\n' ∉ first
  isText : ∀ t ∈ more, trim t = t ∧ '\n' ∉ t ∧ t ≠ []

def spoken (texts : List Line) : Line := List.intercalate [' '] (texts.filter (· ≠ []))

def Documented.param (d : Documented) : String × String :=
  (String.ofList d.name, String.ofList (spoken (d.first::d.more)))

variable {n s t : Line}

theorem split_name_append (hn : IsName n) {rest : Line}
    (hrest : ∀ c ∈ rest.head?, isWordChar c = false) : splitName? (n++rest) = some (n, rest) := by
  have hstop : rest.takeWhile isWordChar = [] ∧ rest.dropWhile isWordChar = rest := by
    cases rest with
    | nil => exact ⟨rfl, rfl⟩
    | cons d rest =>
      have hd : isWordChar d = false := hrest d rfl
      simp [hd]
  cases n with
  | nil => exact hn.elim
  | cons c n =>
    rw [List.cons_append, splitName?, if_pos hn.1, List.takeWhile_append_of_pos hn.2,
      List.dropWhile_append_of_pos hn.2, hstop.1, hstop.2, List.append_nil]

theorem split_name_cons (hn : IsName n) {c : Char} (hc : isWordChar c = false) (rest : Line) :
    splitName? (n ++ c::rest) = some (n, c::rest) := by
  apply split_name_append hn
  rintro d ⟨⟩
  exact hc

theorem skip_blanks_name (hn : IsName n) (rest : Line) : skipBlanks (n++rest) = n++rest := by
  obtain ⟨c, s, rfl, hc⟩ := hn.exists_cons
  simp [skipBlanks, word_not_blank hc]

theorem drop_stars_name (hn : IsName n) (rest : Line) : dropStars (n++rest) = n++rest := by
  obtain ⟨c, s, rfl, hc⟩ := hn.exists_cons
  have hstar : c ≠ '*' := word_ne hc (by decide)
  simp [dropStars, hstar]

theorem drop_stars_star_name (hn : IsName n) (rest : Line) :
    dropStars ('*'::(n++rest)) = n++rest := by
  obtain ⟨c, s, rfl, hc⟩ := hn.exists_cons
  have hstar : c ≠ '*' := word_ne hc (by decide)
  simp [dropStars, hstar]

theorem sentence_trimmed (ht : trim t = t) (hline : '\n' ∉ t) :
    sentence? t = some (String.ofList t) := by
  rw [sentence?, skip_blanks_of_trimmed ht]
  simp [hline, trim_end_of_trimmed ht]

theorem sentence_space (ht : trim t = t) (hline : '\n' ∉ t) :
    sentence? (' '::t) = some (String.ofList t) := by
  rw [← sentence_trimmed ht hline]
  rfl

def described (name : Line) (texts : List Line) : Entry :=
  ⟨String.ofList name, String.ofList (spoken texts)⟩

theorem intercalate_concat {texts : List Line} (hne : texts ≠ []) (t : Line) :
    List.intercalate [' '] (texts ++ [t]) = List.intercalate [' '] texts ++ ' '::t := by
  induction texts with
  | nil => contradiction
  | cons s texts ih =>
    cases texts with
    | nil => simp [List.intercalate_cons_cons]
    | cons s' texts =>
      rw [List.cons_append, List.cons_append, List.intercalate_cons_cons, ← List.cons_append,
        ih (List.cons_ne_nil s' texts), List.intercalate_cons_cons]
      simp

theorem intercalate_ne_nil {texts : List Line} (hne : texts ≠ []) (h : ∀ s ∈ texts, s ≠ []) :
    List.intercalate [' '] texts ≠ [] := by
  cases texts with
  | nil => contradiction
  | cons s texts =>
    have hs : s ≠ [] := h s List.mem_cons_self
    cases texts with
    | nil => simpa using hs
    | cons s' texts => simp [List.intercalate_cons_cons, hs]

theorem continued_congr {l l' : Line} (h : trim l = trim l') :
    Entry.continued l = Entry.continued l' := by
  funext e
  rw [Entry.continued, Entry.continued, h]

theorem continued_described (name : Line) (texts : List Line) {l : Line} (hl : trim l ≠ []) :
    (described name texts).continued l = described name (texts ++ [trim l]) := by
  have hlast : [trim l].filter (· ≠ []) = [trim l] := by simp [hl]
  have hwords : ∀ w ∈ texts.filter (· ≠ []), w ≠ [] := by simp
  rw [described, described, spoken, spoken, List.filter_append, hlast]
  generalize texts.filter (· ≠ []) = words at hwords ⊢
  by_cases hempty : words = []
  · subst hempty
    simp [Entry.continued]
  · have hspoken : String.ofList (List.intercalate [' '] words) ≠ "" := by
      simpa using intercalate_ne_nil hempty hwords
    rw [Entry.continued, if_neg hspoken, intercalate_concat hempty]
    simp [String.ofList_append, String.append_assoc]

theorem described_line (name : Line) (texts : List Line) (l : Line) :
    (if trim l = [] then described name texts else (described name texts).continued l) =
      described name (texts ++ [trim l]) := by
  by_cases hl : trim l = []
  · rw [if_pos hl, hl]
    simp [described, spoken]
  · rw [if_neg hl, continued_described name texts hl]

theorem described_single (name t : Line) :
    described name [t] = ⟨String.ofList name, String.ofList t⟩ := by
  by_cases ht : t = [] <;> simp [described, spoken, ht]

def Documented.entry (d : Documented) : Entry := described d.name (d.first::d.more)

theorem Documented.texts_filter (d : Documented) {ls : List Line} (h : ls.map trim = d.more) :
    (ls.map trim).filter (· ≠ []) = d.more := by
  rw [h, List.filter_eq_self]
  exact fun t ht => by simpa using (d.isText t ht).2.2

theorem Documented.trim_mem (d : Documented) {ls : List Line} (h : ls.map trim = d.more) :
    ∀ l ∈ ls, trim l ∈ d.more := by
  intro l hl
  rw [← h]
  exact List.mem_map_of_mem hl

end ToolSpec.Docstring
