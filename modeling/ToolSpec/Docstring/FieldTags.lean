import ToolSpec.Docstring.Entry

/-!
# Field tags

A tag is a line `:param name: text`, with an optional type before the name, or `@param name text`.
Deeper lines continue it. A blank line, a line that starts with `:` or `@`, and a line no deeper
than the tag end it.
-/

set_option autoImplicit false

namespace ToolSpec.Docstring.FieldTags
open ToolSpec.Text

def colonWords : List Line :=
  ["param", "parameter", "arg", "argument", "key", "keyword"].map String.toList

def atWords : List Line := ["param", "parameter", "arg", "argument"].map String.toList

def lastWord (s : Line) : Line :=
  ((trimEnd s).reverse.takeWhile (!isBlank ·)).reverse

def wholeName? (word : Line) : Option Line :=
  match splitName? (dropStars word) with
  | some (name, []) => some name
  | _ => none

def afterWord? (words : List Line) (s : Line) : Option Line :=
  let rest := s.dropWhile Char.isAlpha
  if isOneOf words (s.takeWhile Char.isAlpha) then
    match rest with
    | c::_ => if isBlank c then some rest else none
    | [] => none
  else none

def colonTag? : Line → Option Entry
  | ':'::s => do
    let body ← afterWord? colonWords s
    let name ← wholeName? (lastWord (body.takeWhile (· ≠ ':')))
    match body.dropWhile (· ≠ ':') with
    | _::rest => pure ⟨String.ofList name, ← afterColon? rest⟩
    | [] => none
  | _ => none

/-- What follows the name of an `@` tag. A colon after the name belongs to the tag, unless blanks
before it and text right behind it make it the start of the description. -/
def atText? (s : Line) : Option String :=
  match skipBlanks s with
  | [] => some ""
  | ':'::rest =>
    match rest with
    | [] => some ""
    | c::_ =>
      if isBlank c then sentence? rest
      else if (leadingBlanks s).isEmpty then none
      else sentence? (':'::rest)
  | rest => if (leadingBlanks s).isEmpty then none else sentence? rest

def atTag? : Line → Option Entry
  | '@'::s => do
    let body ← afterWord? atWords s
    let (name, rest) ← splitName? (dropStars (skipBlanks body))
    pure ⟨String.ofList name, ← atText? rest⟩
  | _ => none

def tag? (trimmed : Line) : Option Entry := (colonTag? trimmed).or (atTag? trimmed)

def isMark : Line → Bool
  | [] => true
  | c::_ => c = ':' || c = '@'

structure State where
  current : Option Entry
  tagIndent : Nat

def step (s : State) (line : Line) : State × List Entry :=
  match tag? (trim line) with
  | some e => (⟨some e, indent line⟩, s.current.toList)
  | none =>
    if isMark (trim line) || indent line ≤ s.tagIndent then
      (⟨none, s.tagIndent⟩, s.current.toList)
    else (⟨s.current.map (Entry.continued line), s.tagIndent⟩, [])

def scanner : Scanner State := ⟨⟨none, 0⟩, step, fun s => s.current.toList⟩

end ToolSpec.Docstring.FieldTags
