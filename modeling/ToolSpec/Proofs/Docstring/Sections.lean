import ToolSpec.Proofs.Docstring.ArgsBlock
import ToolSpec.Proofs.Docstring.FieldTags
import ToolSpec.Proofs.Docstring.HeadedList

/-!
# Sections apart

A line at the left margin ends every argument block and every tag, and a line that starts with `#`
ends every list. Whatever was open before such a line is complete, and the line itself is read as if
it were the first one. A docstring that falls in two parts there documents what its parts document.
-/

set_option autoImplicit false

namespace ToolSpec.Docstring
open ToolSpec.Text

namespace Scanner

variable {σ : Type} {r : Scanner σ} {Closing : Line → Prop} {ls : List Line}

/-- A blank line adds nothing to what a state holds, and a closing line leaves nothing of it to what
follows. -/
structure ClosedBy (r : Scanner σ) (Closing : Line → Prop) : Prop where
  start : r.finish r.start = []
  blank : ∀ s {l}, trim l = [] → r.run s [l] = r.finish s
  closing : ∀ s {l}, trim l ≠ [] → Closing l → ∀ ls,
    r.run s (l::ls) = r.finish s ++ r.run r.start (l::ls)

theorem run_closing (hr : r.ClosedBy Closing) (s : σ)
    (h : ∀ l ∈ ls.find? (trim · ≠ []), Closing l) :
    r.run s ls = r.finish s ++ r.run r.start ls := by
  induction ls generalizing s with
  | nil => rw [run, run, hr.start, List.append_nil]
  | cons l ls ih =>
    by_cases hl : trim l = []
    -- The blank line may change the state, so the rest is read from any state by induction.
    · have hrest : ∀ l ∈ ls.find? (trim · ≠ []), Closing l := by
        simpa [hl] using h
      have hskip : ∀ s, r.run s (l::ls) = r.finish s ++ r.run r.start ls := by
        intro s
        rw [← hr.blank s hl, run, ih _ hrest, ← List.append_assoc]
        rfl
      rw [hskip, hskip r.start, hr.start, List.nil_append]
    · have hclosing : Closing l := h l (by simp [hl])
      exact hr.closing s hl hclosing ls

theorem entries_append (hr : r.ClosedBy Closing) (xs : List Line) {ys : List Line}
    (h : ∀ l ∈ ys.find? (trim · ≠ []), Closing l) :
    r.entries (xs++ys) = r.entries xs ++ r.entries ys := by
  rw [entries, run_append, run_closing hr _ h, ← List.append_assoc, ← run_eq_through]
  rfl

end Scanner

theorem ArgsBlock.closed_by_margin : ArgsBlock.scanner.ClosedBy (indent · = 0) where
  start := rfl
  blank := fun s _ => run_blank s
  closing := by
    intro s l hl hmargin ls
    cases s with
    | outside => rfl
    | inside header level current =>
      have hstep : scanner.step (.inside header level current) l =
          (enter l, scanner.finish (.inside header level current)) := by
        simp [scanner, step, finish, hl, hmargin]
      rw [Scanner.run, hstep]
      rfl

theorem FieldTags.closed_by_margin : FieldTags.scanner.ClosedBy (indent · = 0) where
  start := rfl
  blank := fun s _ => run_blank s
  closing := by
    intro s l _ hmargin ls
    have hstart : scanner.start = ⟨none, 0⟩ := rfl
    cases htag : tag? (trim l) with
    | some e => simp [Scanner.run, scanner, step, htag]
    | none =>
      have hended : isMark (trim l) = true ∨ indent l ≤ s.tagIndent := by
        rw [hmargin]
        exact .inr (Nat.zero_le _)
      rw [hstart, Scanner.run, Scanner.run, step_ended htag hended, step_untagged htag,
        run_closed s.tagIndent 0]
      rfl

theorem HeadedList.closed_by_hash : HeadedList.scanner.ClosedBy (isHashed <| trim ·) where
  start := rfl
  blank := fun s _ => run_blank s
  closing := by
    intro s l _ hhashed ls
    rw [Scanner.run, Scanner.run, step_hashed hhashed, step_hashed hhashed]
    rfl

def Layout.Closing : Layout → Line → Prop
  | .argsBlock, l => indent l = 0
  | .fieldTags, l => indent l = 0
  | .headedList, l => HeadedList.isHashed (trim l) = true

theorem Layout.entries_append (layout : Layout) (xs : List Line) {ys : List Line}
    (h : ∀ l ∈ ys.find? (trim · ≠ []), layout.Closing l) :
    layout.entries (xs++ys) = layout.entries xs ++ layout.entries ys := by
  cases layout with
  | argsBlock => exact Scanner.entries_append ArgsBlock.closed_by_margin xs h
  | fieldTags => exact Scanner.entries_append FieldTags.closed_by_margin xs h
  | headedList => exact Scanner.entries_append HeadedList.closed_by_hash xs h

/-- Two parts of a text document together what each of them documents alone, if the second one has
nothing but blank lines before a closing line. -/
theorem sections_apart (layout : Layout) {xs ys : List Line}
    (h : ∀ l ∈ ys.find? (trim · ≠ []), layout.Closing l) :
    extract layout [] (xs++ys) = extract layout [] xs ++ extract layout [] ys := by
  simp only [extract_eq_entries, List.nil_append, layout.entries_append xs h]

/-- An entry of each layout is open where the second part begins with a blank line and a heading. -/
theorem open_entries_apart :
    let xs := ["# Args", "* a - p", "Args:", "  b: q", "  :param c: r"].map String.toList
    let ys := ["\t", "# Params", "- d: s", "  t", "Args:", " e: u", ":arg f: v"].map String.toList
    (∀ l ∈ ys.find? (trim · ≠ []), Layout.argsBlock.Closing l) ∧
      (∀ l ∈ ys.find? (trim · ≠ []), Layout.fieldTags.Closing l) ∧
      (∀ l ∈ ys.find? (trim · ≠ []), Layout.headedList.Closing l) ∧
      extract .argsBlock [] (xs++ys) = [⟨"b", "q :param c: r"⟩] ++ [⟨"e", "u"⟩] ∧
      extract .fieldTags [] (xs++ys) = [⟨"c", "r"⟩] ++ [⟨"f", "v"⟩] ∧
      extract .headedList [] (xs++ys) =
        [⟨"a", "p Args: b: q :param c: r"⟩] ++ [⟨"d", "s t Args: e: u :arg f: v"⟩] := by
  intro xs ys
  have hargs : ∀ l ∈ ys.find? (trim · ≠ []), Layout.argsBlock.Closing l := by
    intro l hl
    obtain rfl : l = "# Params".toList := (Option.mem_some.mp hl).symm
    rfl
  have htags : ∀ l ∈ ys.find? (trim · ≠ []), Layout.fieldTags.Closing l := hargs
  have hlist : ∀ l ∈ ys.find? (trim · ≠ []), Layout.headedList.Closing l := by
    intro l hl
    obtain rfl : l = "# Params".toList := (Option.mem_some.mp hl).symm
    rfl
  refine ⟨hargs, htags, hlist, ?_, ?_, ?_⟩
  · rw [sections_apart .argsBlock hargs]
    decide
  · rw [sections_apart .fieldTags htags]
    decide
  · rw [sections_apart .headedList hlist]
    decide

end ToolSpec.Docstring
