import ToolSpec.Proofs.Docstring.ArgsBlock
import ToolSpec.Proofs.Docstring.FieldTags
import ToolSpec.Proofs.Docstring.HeadedList

/-!
# Uniform indentation

No layout compares an indentation with a fixed column, only with that of an earlier line. A text
that is moved to the right as a whole is therefore read in step with the text itself, and a
docstring says the same at any depth of the code that it documents.
-/

set_option autoImplicit false

namespace ToolSpec.Docstring
open ToolSpec.Text

def indented (k pad : Nat) (l : Line) : Line :=
  List.replicate (if trim l = [] then pad else k) ' ' ++ l

def indentedLines (k : Nat) (pad : Nat → Nat) (ls : List Line) : List Line :=
  ls.mapIdx fun i l => indented k (pad i) l

/-- A text with each of its lines behind `k` spaces. A blank line stands behind spaces of its own,
`pad i` of them if it is the line number `i`. -/
def indentedText (k : Nat) (pad : Nat → Nat) (text : String) : String :=
  String.ofList (joinLines (indentedLines k pad (text.toList.splitOn '\n')))

variable {k : Nat} {ls ls' : List Line}

theorem shifted_indented (k pad : Nat) (l : Line) : Shifted k l (indented k pad l) := by
  have hspaces : ∀ n, ∀ c ∈ List.replicate n ' ', isBlank c = true := by
    intro n c hc
    rw [List.eq_of_mem_replicate hc]
    exact is_blank_space
  refine ⟨trim_append (hspaces _) l, fun hl => ?_⟩
  rw [indented, if_neg hl, indent_spaces]

theorem shifted_indented_lines (k : Nat) (pad : Nat → Nat) (ls : List Line) :
    List.Forall₂ (Shifted k) ls (indentedLines k pad ls) := by
  induction ls generalizing pad with
  | nil => exact .nil
  | cons l ls ih =>
    rw [indentedLines, List.mapIdx_cons]
    exact .cons (shifted_indented k (pad 0) l) (ih fun i => pad (i+1))

theorem newline_not_mem_indented {pad : Nat} {l : Line} (h : '\n' ∉ l) :
    '\n' ∉ indented k pad l := by
  simp [indented, h]

theorem newline_not_mem_indented_lines (k : Nat) (pad : Nat → Nat) (h : ∀ l ∈ ls, '\n' ∉ l) :
    ∀ l ∈ indentedLines k pad ls, '\n' ∉ l := by
  intro l hl
  obtain ⟨i, hi, rfl⟩ := List.mem_mapIdx.mp hl
  exact newline_not_mem_indented (h _ (List.getElem_mem hi))

namespace Scanner

variable {σ : Type} {r : Scanner σ} {shift : Nat → σ → σ}

theorem run_shifted (hr : r.Shifts shift) (s : σ) (h : List.Forall₂ (Shifted k) ls ls') :
    r.run (shift k s) ls' = r.run s ls := by
  induction h generalizing s with
  | nil => exact hr.finish k s
  | cons hl _ ih => rw [run, run, hr.step s hl, ih]

theorem entries_shifted (hr : r.Shifts shift) (h : List.Forall₂ (Shifted k) ls ls') :
    r.entries ls' = r.entries ls := by
  rw [entries, ← hr.start k, run_shifted hr r.start h, entries]

end Scanner

theorem Layout.entries_shifted (layout : Layout) (h : List.Forall₂ (Shifted k) ls ls') :
    layout.entries ls' = layout.entries ls := by
  cases layout with
  | argsBlock => exact Scanner.entries_shifted ArgsBlock.shifts h
  | fieldTags => exact Scanner.entries_shifted FieldTags.shifts h
  | headedList => exact Scanner.entries_shifted HeadedList.shifts h

theorem Layout.entries_lines (layout : Layout) (h : ∀ l ∈ ls, '\n' ∉ l) :
    layout.entries (lines (joinLines ls)) = layout.entries ls := by
  cases layout with
  | argsBlock => exact Scanner.entries_lines ArgsBlock.sees_text h
  | fieldTags => exact Scanner.entries_lines FieldTags.sees_text h
  | headedList => exact Scanner.entries_lines HeadedList.sees_text h

theorem entries_of_shifted (style : DocstringStyle) (h : List.Forall₂ (Shifted k) ls ls') :
    entriesOf style ls' = entriesOf style ls :=
  List.flatMap_congr fun layout _ => layout.entries_shifted h

theorem entries_of_lines (style : DocstringStyle) (h : ∀ l ∈ ls, '\n' ∉ l) :
    entriesOf style (lines (joinLines ls)) = entriesOf style ls :=
  List.flatMap_congr fun layout _ => layout.entries_lines h

theorem summary_of_shifted (h : List.Forall₂ (Shifted k) ls ls') :
    summaryOf ls' = summaryOf ls := by
  have htrim : ls'.map trim = ls.map trim := by
    induction h with
    | nil => rfl
    | cons hl _ ih => rw [List.map_cons, List.map_cons, hl.1, ih]
  rw [summaryOf, summaryOf, htrim]

theorem summary_of_lines (h : ∀ l ∈ ls, '\n' ∉ l) :
    summaryOf (lines (joinLines ls)) = summaryOf ls := by
  obtain ⟨ls', halike, hsplit⟩ := lines_join_lines h
  have hsame : summaryOf ls' = summaryOf ls :=
    summary_of_shifted (halike.imp fun _ _ hl => hl.shifted)
  have hlast (ls : List Line) : summaryOf (ls ++ [[]]) = summaryOf ls := by
    have hempty : trim [] = [] := rfl
    simp [summaryOf, hempty]
  rcases hsplit with rfl | rfl
  · exact hsame
  · rwa [hlast] at hsame

theorem parse_join_lines (style : DocstringStyle) (h : ∀ l ∈ ls, '\n' ∉ l) :
    parse style (String.ofList (joinLines ls)) =
      ⟨summaryOf ls, firstWins (entriesOf style ls)⟩ := by
  rw [parse_eq, String.toList_ofList, summary_of_lines h, entries_of_lines style h]

/-- A docstring says the same, in the same order, if its lines are moved to the right by the same
number of spaces, whatever spaces are put on its blank lines. -/
theorem parse_indented (style : DocstringStyle) (k : Nat) (pad : Nat → Nat) (text : String) :
    parse style (indentedText k pad text) = parse style text := by
  have hlines : ∀ l ∈ text.toList.splitOn '\n', '\n' ∉ l := fun _ => newline_not_mem_split_on
  have hshifted := shifted_indented_lines k pad (text.toList.splitOn '\n')
  have htext := parse_join_lines style hlines
  rw [join_lines_split_on, String.ofList_toList] at htext
  rw [indentedText, parse_join_lines style (newline_not_mem_indented_lines k pad hlines),
    summary_of_shifted hshifted, entries_of_shifted style hshifted, htext]

/-- The last line feed is followed by an empty line. -/
example : indentedText 2 (fun i => i) "Args:\n\n  a: b\r\n" = "  Args:\n \n    a: b\r\n   " := by
  decide

end ToolSpec.Docstring
