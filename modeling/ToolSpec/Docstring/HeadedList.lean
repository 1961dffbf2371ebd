import ToolSpec.Docstring.Entry

/-!
# Lists under a heading

Below a heading such as `# Arguments`, each parameter is an item "* `name` - text". Other lines
continue the item before them, a blank line ends it, and the next heading ends the section.
-/

set_option autoImplicit false

namespace ToolSpec.Docstring.HeadedList
open ToolSpec.Text

def headings : List Line :=
  ["Arguments", "Parameters", "Params", "Args"].map String.toList

def isHashed : Line → Bool
  | [] => false
  | c::_ => c = '#'

def isHeading (trimmed : Line) : Bool :=
  isHashed trimmed && isOneOf headings (skipBlanks (trimmed.dropWhile (· = '#')))

def skipTick : Line → Line
  | '\x60'::rest => rest
  | rest => rest

def itemText? (s : Line) : Option String :=
  match skipBlanks s with
  | [] => some ""
  | c::rest => if c = '-' ∨ c = ':' then sentence? rest else none

def item? : Line → Option Entry
  | mark::c::s =>
    if (mark = '*' ∨ mark = '-') ∧ isBlank c then do
      let (name, rest) ← splitName? (skipTick (skipBlanks s))
      pure ⟨String.ofList name, ← itemText? (skipTick rest)⟩
    else none
  | _ => none

inductive State
  | outside
  | inside (current : Option Entry)

def pending : State → List Entry
  | .outside => []
  | .inside current => current.toList

def step (s : State) (line : Line) : State × List Entry :=
  let trimmed := trim line
  if isHashed trimmed then (if isHeading trimmed then .inside none else .outside, pending s)
  else
    match s with
    | .outside => (.outside, [])
    | .inside current =>
      match item? trimmed with
      | some e => (.inside (some e), current.toList)
      | none =>
        if trimmed = [] then (.inside none, current.toList)
        else (.inside (current.map (Entry.continued line)), [])

def scanner : Scanner State := ⟨.outside, step, pending⟩

end ToolSpec.Docstring.HeadedList
