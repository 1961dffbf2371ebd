import ToolSpec.Proofs.Docstring.Indentation
import ToolSpec.Proofs.Docstring.Sections

/-!
# Trailing blanks

Blank lines at the end of a text complete nothing that the end of the text would not complete. A
docstring therefore says the same without the blanks at its end, and without those at the end of any
of its lines.
-/

set_option autoImplicit false

namespace ToolSpec.Docstring
open ToolSpec.Text

variable {ls ls' blanks : List Line}

namespace Scanner

variable {σ : Type} {r : Scanner σ} {Closing : Line → Prop}

theorem run_blanks (hr : r.ClosedBy Closing) (s : σ) (h : ∀ l ∈ blanks, trim l = []) :
    r.run s blanks = r.finish s := by
  induction blanks generalizing s with
  | nil => rfl
  | cons l blanks ih =>
    obtain ⟨hl, hrest⟩ := List.forall_mem_cons.mp h
    rw [← hr.blank s hl, run, run, ih _ hrest]
    rfl

theorem entries_append_blanks (hr : r.ClosedBy Closing) (ls : List Line)
    (h : ∀ l ∈ blanks, trim l = []) : r.entries (ls++blanks) = r.entries ls := by
  rw [entries, run_append, run_blanks hr _ h, ← run_eq_through, entries]

end Scanner

theorem Layout.entries_append_blanks (layout : Layout) (ls : List Line)
    (h : ∀ l ∈ blanks, trim l = []) : layout.entries (ls++blanks) = layout.entries ls := by
  cases layout with
  | argsBlock => exact Scanner.entries_append_blanks ArgsBlock.closed_by_margin ls h
  | fieldTags => exact Scanner.entries_append_blanks FieldTags.closed_by_margin ls h
  | headedList => exact Scanner.entries_append_blanks HeadedList.closed_by_hash ls h

theorem entries_of_append_blanks (style : DocstringStyle) (ls : List Line)
    (h : ∀ l ∈ blanks, trim l = []) : entriesOf style (ls++blanks) = entriesOf style ls :=
  List.flatMap_congr fun layout _ => layout.entries_append_blanks ls h

theorem summary_of_append_blanks (ls : List Line) (h : ∀ l ∈ blanks, trim l = []) :
    summaryOf (ls++blanks) = summaryOf ls := by
  have hnone : (blanks.map trim).find? (· ≠ []) = none := by simpa using h
  rw [summaryOf, List.map_append, List.find?_append, hnone, Option.or_none, summaryOf]

theorem parse_alike (style : DocstringStyle) (h : List.Forall₂ Alike ls ls')
    (hls : ∀ l ∈ ls, '\n' ∉ l) (hls' : ∀ l ∈ ls', '\n' ∉ l) :
    parse style (String.ofList (joinLines ls')) = parse style (String.ofList (joinLines ls)) := by
  have hshifted : List.Forall₂ (Shifted 0) ls ls' := h.imp fun _ _ hl => hl.shifted
  rw [parse_join_lines style hls, parse_join_lines style hls', summary_of_shifted hshifted,
    entries_of_shifted style hshifted]

theorem parse_trim_end (style : DocstringStyle) (h : ∀ l ∈ ls, '\n' ∉ l) :
    parse style (String.ofList (trimEnd (joinLines ls))) =
      parse style (String.ofList (joinLines ls)) := by
  obtain ⟨kept, blanks, htrim, hkept, hblanks, halike⟩ := exists_lines_trim_end h
  have hshifted : List.Forall₂ (Shifted 0) ls (kept++blanks) := halike.imp fun _ _ hl => hl.shifted
  rw [htrim, parse_join_lines style hkept, parse_join_lines style h,
    ← summary_of_append_blanks kept hblanks, ← entries_of_append_blanks style kept hblanks,
    summary_of_shifted hshifted, entries_of_shifted style hshifted]

theorem parse_map_trim_end (style : DocstringStyle) (h : ∀ l ∈ ls, '\n' ∉ l) :
    parse style (String.ofList (trimEnd (joinLines (ls.map trimEnd)))) =
      parse style (String.ofList (joinLines ls)) := by
  have hkept : ∀ l ∈ ls.map trimEnd, '\n' ∉ l := by
    intro l hl
    obtain ⟨l', hl', rfl⟩ := List.mem_map.mp hl
    exact not_mem_trim_end (h l' hl')
  have halike : List.Forall₂ Alike ls (ls.map trimEnd) :=
    List.forall₂_map_right_iff.mpr (List.forall₂_same.mpr fun l _ => alike_trim_end l)
  rw [parse_trim_end style hkept, parse_alike style halike h hkept]

end ToolSpec.Docstring
