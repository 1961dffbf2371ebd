import ToolSpec.Docstring.ArgsBlock
import ToolSpec.Docstring.FieldTags
import ToolSpec.Docstring.HeadedList
import ToolSpec.Json.Fields

/-!
# Docstrings

A docstring has a summary, its first line that is not blank, and the parameters that its layouts
document. A style selects the layouts to read; the first entry of a name wins.
-/

set_option autoImplicit false

namespace ToolSpec

inductive DocstringStyle
  | auto
  | google
  | sphinx
  | rustdoc
  deriving DecidableEq, Repr

structure Docstring where
  summary : String
  params : Fields String
  deriving DecidableEq

namespace Docstring
open ToolSpec.Text

inductive Layout
  | argsBlock
  | fieldTags
  | headedList
  deriving DecidableEq, Repr

def Layout.entries : Layout → List Line → List Entry
  | .argsBlock => ArgsBlock.scanner.entries
  | .fieldTags => FieldTags.scanner.entries
  | .headedList => HeadedList.scanner.entries

def layouts : DocstringStyle → List Layout
  | .auto => [.argsBlock, .fieldTags, .headedList]
  | .google => [.argsBlock]
  | .sphinx => [.fieldTags]
  | .rustdoc => [.headedList]

def extract : Layout → List Entry → List Line → List Entry
  | .argsBlock => ArgsBlock.scanner.collect ArgsBlock.scanner.start
  | .fieldTags => FieldTags.scanner.collect FieldTags.scanner.start
  | .headedList => HeadedList.scanner.collect HeadedList.scanner.start

/-- Each name keeps its first description. -/
def firstWins : List Entry → Fields String
  | [] => []
  | e::rest => (e.name, e.description)::(firstWins rest).filter (·.1 ≠ e.name)

def summaryOf (ls : List Line) : String :=
  String.ofList (((ls.map trim).find? (· ≠ [])).getD [])

def empty : Docstring := ⟨"", []⟩

def parse (style : DocstringStyle) (text : String) : Docstring :=
  let ls := lines text.toList
  ⟨summaryOf ls, firstWins ((layouts style).foldl (fun found layout => extract layout found ls) [])⟩

def param? (d : Docstring) (name : String) : Option String := d.params.lookup name

theorem extract_eq_entries (layout : Layout) (found : List Entry) (ls : List Line) :
    extract layout found ls = found ++ layout.entries ls := by
  cases layout with
  | argsBlock => exact Scanner.collect_eq_run ..
  | fieldTags => exact Scanner.collect_eq_run ..
  | headedList => exact Scanner.collect_eq_run ..

end Docstring

end ToolSpec
