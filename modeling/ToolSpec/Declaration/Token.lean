import ToolSpec.Declaration.Identifier
import ToolSpec.Json.Reader
import ToolSpec.Json.Text

/-!
# Tokens

What is written in a declaration is read into words, literals, marks and groups between
delimiters. Blanks and comments only set tokens apart, so the spelling of tokens does not depend
on them. Every reading step takes at least one character, and the length of the text serves as
fuel.
-/

set_option autoImplicit false

namespace ToolSpec
open ToolSpec.Text

inductive Token
  | word (id : Identifier)
  | text (content : String)
  | character (c : Char)
  /-- A quoted literal that is no text, behind what opens it. -/
  | bytes (opening content : String)
  | number (digits : String)
  | colons
  | mark (c : Char)
  | group (opening : Char) (inner : List Token)

namespace Token

/-- What follows a block comment of the given depth. Block comments nest. -/
def afterComment : Nat → Line → Line
  | _, [] => []
  | depth, '*' :: '/'::rest => if depth = 0 then rest else afterComment (depth-1) rest
  | depth, '/' :: '*'::rest => afterComment (depth+1) rest
  | depth, _::rest => afterComment depth rest

def isGap (c : Char) : Bool := isBlank c || c = '\u200e' || c = '\u200f'

def skipGaps : Nat → Line → Line
  | 0, s => s
  | fuel+1, s =>
    match s.dropWhile isGap with
    | '/' :: '/'::rest => skipGaps fuel (rest.dropWhile (· ≠ '\n'))
    | '/' :: '*'::rest => skipGaps fuel (afterComment 0 rest)
    | s => s

def charOfHex? (digits : Line) : Option Char :=
  (digits.mapM Json.hexValue?).map fun ds => Char.ofNat (ds.foldl (fun n d => 16*n+d) 0)

def simpleEscape? (c : Char) : Option Char :=
  [('n', '\n'), ('r', '\r'), ('t', '\t'), ('0', '\x00'), ('\\', '\\'), ('"', '"'),
    ('\x27', '\x27')].lookup c

/-- What stands for an escape behind its backslash. A line break takes the blanks after it away. -/
def escape? : Line → Option (Line × Line)
  | '\n'::rest => some ([], rest.dropWhile fun c => c = ' ' || c = '\n' || c = '\r' || c = '\t')
  | 'x'::high::low::rest => (charOfHex? [high, low]).map fun c => ([c], rest)
  | 'u' :: '{'::rest =>
    let digits := rest.takeWhile (· ≠ '}')
    (charOfHex? (digits.filter (· ≠ '_'))).map fun c => ([c], rest.drop (digits.length+1))
  | c::rest => (simpleEscape? c).map fun c => ([c], rest)
  | [] => none

def quoted? : Nat → Line → Option (Line × Line)
  | 0, _ => none
  | _+1, [] => none
  | _+1, '"'::rest => some ([], rest)
  | fuel+1, '\\'::rest => do
    let (here, rest) ← escape? rest
    let (more, rest) ← quoted? fuel rest
    pure (here ++ more, rest)
  | fuel+1, '\r' :: '\n'::rest => (quoted? fuel rest).map fun (more, rest) => ('\n'::more, rest)
  | fuel+1, c::rest => (quoted? fuel rest).map fun (more, rest) => (c::more, rest)

def splitAt? (closing : Line) : Line → Option (Line × Line)
  | [] => none
  | c::rest =>
    if closing.isPrefixOf (c::rest) then some ([], (c::rest).drop closing.length)
    else (splitAt? closing rest).map fun (before, after) => (c::before, after)

/-- A raw text behind its `r`: as many `#` close it as open it, and nothing in it is an escape. -/
def rawQuoted? (s : Line) : Option (Line × Line) :=
  let hashes := s.takeWhile (· = '#')
  match s.drop hashes.length with
  | '"'::rest => splitAt? ('"'::hashes) rest
  | _ => none

/-- A single character behind its opening quote. Without a closing quote it is none. -/
def character? : Line → Option (Char × Line)
  | '\\'::rest =>
    match escape? rest with
    | some ([c], '\x27'::rest) => some (c, rest)
    | _ => none
  | c :: '\x27'::rest => some (c, rest)
  | _ => none

def content? (raw : Bool) (s : Line) : Option (String × Line) :=
  (if raw then rawQuoted? s else quoted? (s.length+1) s).map fun (content, rest) =>
    (String.ofList content, rest.dropWhile Identifier.isNameChar)

def closing (opening : Char) : Char :=
  if opening = '(' then ')' else if opening = '[' then ']' else '}'

def isOpening (c : Char) : Bool := c = '(' || c = '[' || c = '{'

def isClosing (c : Char) : Bool := c = ')' || c = ']' || c = '}'

def takeWord (s : Line) : Line × Line :=
  (s.takeWhile Identifier.isNameChar, s.dropWhile Identifier.isNameChar)

/-- A point with the digits after it, or the signed exponent after a mark of one. Two points, and a
point before a name, are no part of a number. -/
def continueNumber (whole : Line) : Line → Line × Line
  | ['.'] => (whole ++ ['.'], [])
  | sep::d::rest =>
    let afterMark := whole.getLast? = some 'e' || whole.getLast? = some 'E'
    if (sep = '.' || afterMark && (sep = '+' || sep = '-')) && d.isDigit then
      (whole ++ sep::(takeWord (d::rest)).1, (takeWord (d::rest)).2)
    else if sep = '.' && d ≠ '.' && !Identifier.isNameChar d then (whole ++ ['.'], d::rest)
    else (whole, sep::d::rest)
  | s => (whole, s)

def takeNumber (s : Line) : Line × Line :=
  let (whole, rest) := takeWord s
  let (whole, rest) := continueNumber whole rest
  continueNumber whole rest

def literal? : Line → Option (Token × Line)
  | '"'::rest => (content? false rest).map fun (s, rest) => (.text s, rest)
  | '\x27'::rest => (character? rest).map fun (c, rest) => (.character c, rest)
  | 'b' :: '\x27'::rest =>
    (character? rest).map fun (c, rest) => (.bytes "b\x27" (String.singleton c), rest)
  | 'b' :: '"'::rest => (content? false rest).map fun (s, rest) => (.bytes "b" s, rest)
  | 'c' :: '"'::rest => (content? false rest).map fun (s, rest) => (.bytes "c" s, rest)
  | 'b' :: 'r'::rest => (content? true rest).map fun (s, rest) => (.bytes "b" s, rest)
  | 'c' :: 'r'::rest => (content? true rest).map fun (s, rest) => (.bytes "c" s, rest)
  | 'r'::rest => (content? true rest).map fun (s, rest) => (.text s, rest)
  | c::rest =>
    if c.isDigit then
      some (.number (String.ofList (takeNumber (c::rest)).1), (takeNumber (c::rest)).2)
    else none
  | [] => none

def word? : Line → Option (Token × Line)
  | 'r' :: '#'::d::rest =>
    if Identifier.isNameChar d then
      some (.word ⟨true, String.ofList (takeWord (d::rest)).1⟩, (takeWord (d::rest)).2)
    else some (.word (.plain "r"), '#'::d::rest)
  | c::rest =>
    if Identifier.isNameChar c then
      some (.word (.plain (String.ofList (takeWord (c::rest)).1)), (takeWord (c::rest)).2)
    else none
  | [] => none

def first (c : Char) (rest : Line) : Token × Line :=
  if c = ':' ∧ rest.head? = some ':' then (.colons, rest.drop 1)
  else ((literal? (c::rest)).or (word? (c::rest))).getD (.mark c, rest)

def readMany : Nat → Line → List Token × Line
  | 0, s => ([], s)
  | fuel+1, s =>
    match skipGaps s.length s with
    | [] => ([], [])
    | c::rest =>
      if isClosing c then ([], c::rest)
      else if isOpening c then
        let (inner, after) := readMany fuel rest
        let (more, left) := readMany fuel (after.drop 1)
        (.group c inner::more, left)
      else
        let (t, rest) := first c rest
        let (more, left) := readMany fuel rest
        (t::more, left)

def read (s : String) : List Token := (readMany (s.length+1) s.toList).1

mutual

def spelling : Token → String
  | .word id => id.spelling
  | .text content => Json.quote content
  | .character c => "\x27" ++ String.singleton c ++ "\x27"
  | .bytes opening content => opening ++ Json.quote content
  | .number digits => digits
  | .colons => "::"
  | .mark c => String.singleton c
  | .group opening inner =>
    String.singleton opening ++ spellingAll inner ++ String.singleton (closing opening)

def spellingAll : List Token → String
  | [] => ""
  | [t] => spelling t
  | t::rest => spelling t ++ " " ++ spellingAll rest

end

def respell (s : String) : String := spellingAll (read s)

def moreSegments : List Token → List Token × List Token
  | .colons::.word id::rest =>
    let (segments, rest) := moreSegments rest
    (.colons::.word id::segments, rest)
  | ts => ([], ts)

def splitPath : List Token → List Token × List Token
  | .word id::rest =>
    let (segments, rest) := moreSegments rest
    (.word id::segments, rest)
  | ts => moreSegments ts

def parts : List Token → List (List Token)
  | [] => [[]]
  | .mark ','::rest => []::parts rest
  | t::rest =>
    match parts rest with
    | [] => [[t]]
    | p::ps => (t::p)::ps

def isOperand : Token → Bool
  | .word id => !id.isReserved
  | .text _ | .character _ | .bytes _ _ | .number _ => true
  | _ => false

def sideBySide : List Token → Bool
  | t::u::rest => (t.isOperand && u.isOperand) || sideBySide (u::rest)
  | _ => false

/-- What may be an expression: there is something, and neither a comma nor two operands side by side
break it apart. -/
def isExpression (ts : List Token) : Bool :=
  !ts.isEmpty && (parts ts).length = 1 && !sideBySide ts

def arguments (ts : List Token) : List (List Token) :=
  match (parts ts).getLast? with
  | some [] => (parts ts).dropLast
  | _ => parts ts

end Token

end ToolSpec
