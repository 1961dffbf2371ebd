import ToolSpec.Docstring.Entry

/-!
# Indented argument blocks

A header line such as `Args:` opens a block of deeper lines. The first of them fixes the level of
the entries `name: text` and `name (type): text`; a deeper line, or one that is no entry, continues
the entry before it. Blank lines change nothing, and a line no deeper than the header closes it.
-/

set_option autoImplicit false

namespace ToolSpec.Docstring.ArgsBlock
open ToolSpec.Text

def headers : List Line :=
  ["Args:", "Arguments:", "Parameters:", "Params:", "Keyword Args:", "Keyword Arguments:"].map
    String.toList

def isHeader (trimmed : Line) : Bool := isOneOf headers trimmed

def skipType? : Line → Option Line
  | '('::rest =>
    match rest.dropWhile (· ≠ ')') with
    | _::after => some after
    | [] => none
  | rest => some rest

def entry? (trimmed : Line) : Option Entry := do
  let (name, rest) ← splitName? (dropStars trimmed)
  let rest ← skipType? (skipBlanks rest)
  match skipBlanks rest with
  | ':'::rest => pure ⟨String.ofList name, ← afterColon? rest⟩
  | _ => none

inductive State
  | outside
  | inside (header : Nat) (level : Option Nat) (current : Option Entry)

def enter (line : Line) : State :=
  if isHeader (trim line) then .inside (indent line) none none else .outside

def step : State → Line → State × List Entry
  | .outside, line => (enter line, [])
  | .inside header level current, line =>
    if trim line = [] then (.inside header level current, [])
    else if indent line ≤ header then (enter line, current.toList)
    else
      let first := level.getD (indent line)
      match if indent line ≤ first then entry? (trim line) else none with
      | some e => (.inside header (some first) (some e), current.toList)
      | none => (.inside header (some first) (current.map (Entry.continued line)), [])

def finish : State → List Entry
  | .outside => []
  | .inside _ _ current => current.toList

def scanner : Scanner State := ⟨.outside, step, finish⟩

end ToolSpec.Docstring.ArgsBlock
