import ToolSpec.Declaration.Basic
import ToolSpec.Proofs.Docstring.TrailingBlanks

/-!
# Documentation comments

A text that stands in the documentation comments of an item, line by line, comes out of them without
the blanks at the ends of its lines and at its own end, and otherwise as it is: with its relative
indentation, as long as the first line begins at the margin. So it says what it says by itself.
-/

set_option autoImplicit false

namespace ToolSpec.Declaration
open ToolSpec.Text ToolSpec.Docstring

def docComment (l : Line) : String := String.ofList (' '::l)

/-- The lines of a text, with or without an empty one behind a final line feed. -/
def HasLines (text : String) (ls : List Line) : Prop :=
  lines text.toList = ls ∨ text.toList.splitOn '\n' = ls

variable {text : String} {ls : List Line}

theorem HasLines.newline_not_mem (h : HasLines text ls) : ∀ l ∈ ls, '\n' ∉ l := by
  rcases h with rfl | rfl
  · exact fun _ => newline_not_mem_lines
  · exact fun _ => newline_not_mem_split_on

theorem HasLines.parse (h : HasLines text ls) (style : DocstringStyle) :
    parse style text = parse style (String.ofList (joinLines ls)) := by
  have hplain := h.newline_not_mem
  rcases h with rfl | rfl
  · rw [parse_join_lines style hplain, parse_eq]
  · rw [join_lines_split_on, String.ofList_toList]

theorem doc_line_comment (l : Line) : docLine (docComment l) = trimEnd l := by
  rw [docLine, docComment, String.toList_ofList]
  rfl

variable {as : List Attribute} {first : Line} {more : List Line}

theorem documentation_text (hmargin : indent first = 0) (hfirst : trim first ≠ [])
    (has : as.filterMap Attribute.doc? = (first::more).map docComment) :
    documentation as =
      some (String.ofList (trimEnd (joinLines ((first::more).map trimEnd)))) := by
  have hlines : docLine ∘ docComment = trimEnd := funext doc_line_comment
  obtain ⟨rest, hrest⟩ := exists_join_lines_cons (trimEnd first) (more.map trimEnd)
  have hkept : trim (trimEnd first) ≠ [] := (alike_trim_end first).1 ▸ hfirst
  have hstart : indent (trimEnd first ++ rest) = 0 := by
    rw [indent_append rest hkept, ← (alike_trim_end first).2 hfirst, hmargin]
  have hnonempty : trimEnd (trimEnd first ++ rest) ≠ [] := by
    intro h
    obtain ⟨hblank, -⟩ := List.forall_mem_append.mp (blanks_of_trim_end h)
    exact hkept (by rw [trim, skip_blanks_of_blanks hblank, trimEnd])
  rw [documentation, has, List.map_map, hlines, List.map_cons, hrest, trim,
    skip_blanks_of_indent hstart]
  split
  · contradiction
  · rfl

/-- If the documentation comments of an item hold a text line by line, with other attributes
anywhere between them, every style reads the documentation of the item as it reads the text. -/
theorem documentation_parse (hlines : HasLines text (first::more)) (hmargin : indent first = 0)
    (hfirst : trim first ≠ [])
    (has : as.filterMap Attribute.doc? = (first::more).map docComment) :
    ∃ documented, documentation as = some documented ∧
      ∀ style, parse style documented = parse style text := by
  refine ⟨_, documentation_text hmargin hfirst has, fun style => ?_⟩
  rw [parse_map_trim_end style hlines.newline_not_mem, hlines.parse style]

/-- Blanks at the ends of lines, blank lines, and a field whose text depends on its indentation. -/
theorem indented_fields_documented :
    let text := "Send.\t\n \nArgs:  \n    to: Where,\r\n      to: or whom.\n" ++
      "    cc (list): Copies.\n  \n"
    let first := "Send.\t".toList
    let more := [" ", "Args:  ", "    to: Where,", "      to: or whom.", "    cc (list): Copies.",
      "  "].map String.toList
    let as : List Attribute := .other "inline"::.doc (docComment first)::.other "doc"::
      (more.map fun l => .doc (docComment l)) ++ [.field []]
    HasLines text (first::more) ∧ indent first = 0 ∧ trim first ≠ [] ∧
      as.filterMap Attribute.doc? = (first::more).map docComment ∧
      ∃ documented, documentation as = some documented ∧
        parse .google documented =
          ⟨"Send.", [("to", "Where, to: or whom."), ("cc", "Copies.")]⟩ := by
  intro text first more as
  have hlines : HasLines text (first::more) := .inl (by decide)
  have hmargin : indent first = 0 := by decide
  have hfirst : trim first ≠ [] := by decide
  have has : as.filterMap Attribute.doc? = (first::more).map docComment := by decide
  obtain ⟨documented, hdocumented, hparse⟩ := documentation_parse hlines hmargin hfirst has
  refine ⟨hlines, hmargin, hfirst, has, documented, hdocumented, ?_⟩
  rw [hparse]
  decide

end ToolSpec.Declaration
