import ToolSpec.Json.Basic

/-!
# Reading JSON text

Numbers keep their kind: an integer literal of 64 bits is an integer; a fraction, an exponent, a
wider integer and negative zero make a float. A repeated key keeps its place and takes the last
value. Nesting is bounded by the length of the text, which serves as fuel.
-/

set_option autoImplicit false

namespace ToolSpec.Json

abbrev Rest := List Char

def isSpace (c : Char) : Bool := c = ' ' || c = '\n' || c = '\r' || c = '\t'

def skipSpace (s : Rest) : Rest := s.dropWhile isSpace

def hexValue? (c : Char) : Option Nat :=
  if '0' ≤ c ∧ c ≤ '9' then some (c.toNat-48)
  else if 'a' ≤ c ∧ c ≤ 'f' then some (c.toNat-87)
  else if 'A' ≤ c ∧ c ≤ 'F' then some (c.toNat-55)
  else none

def unit? : Rest → Option (Nat × Rest)
  | a::b::c::d::rest => do
    let a ← hexValue? a
    let b ← hexValue? b
    let c ← hexValue? c
    let d ← hexValue? d
    pure (((a*16+b)*16+c)*16+d, rest)
  | _ => none

def escaped? (s : Rest) : Option (Char × Rest) := do
  let (high, rest) ← unit? s
  if 0xD800 ≤ high ∧ high < 0xDC00 then
    match rest with
    | '\\' :: 'u'::rest =>
      let (low, rest) ← unit? rest
      if 0xDC00 ≤ low ∧ low < 0xE000 then
        pure (Char.ofNat (0x10000+(high-0xD800)*1024+(low-0xDC00)), rest)
      else none
    | _ => none
  else if 0xDC00 ≤ high ∧ high < 0xE000 then none
  else pure (Char.ofNat high, rest)

def simpleEscape? (c : Char) : Option Char :=
  [('"', '"'), ('\\', '\\'), ('/', '/'), ('b', '\x08'), ('f', '\x0c'), ('n', '\n'), ('r', '\r'),
    ('t', '\t')].lookup c

def string? : Nat → List Char → Rest → Option (String × Rest)
  | 0, _, _ => none
  | _, _, [] => none
  | _+1, acc, '"'::rest => some (String.ofList acc.reverse, rest)
  | fuel+1, acc, '\\' :: 'u'::rest => do
    let (c, rest) ← escaped? rest
    string? fuel (c::acc) rest
  | fuel+1, acc, '\\'::c::rest => do
    let c ← simpleEscape? c
    string? fuel (c::acc) rest
  | fuel+1, acc, c::rest => if c.toNat < 32 then none else string? fuel (c::acc) rest

def digits (s : Rest) : List Char × Rest := (s.takeWhile Char.isDigit, s.dropWhile Char.isDigit)

def natOf (ds : List Char) : Nat := ds.foldl (fun n d => 10*n+(d.toNat-48)) 0

def exponent? : Rest → Option (Bool × Int × Rest)
  | c::rest =>
    if c = 'e' ∨ c = 'E' then
      let (sign, rest) : Int × Rest := match rest with
        | '-'::rest => (-1, rest)
        | '+'::rest => (1, rest)
        | rest => (1, rest)
      match digits rest with
      | ([], _) => none
      | (ds, rest) => some (true, sign*natOf ds, rest)
    else some (false, 0, c::rest)
  | [] => some (false, 0, [])

def fraction? : Rest → Option (List Char × Rest)
  | '.'::rest =>
    match digits rest with
    | ([], _) => none
    | (ds, rest) => some (ds, rest)
  | rest => some ([], rest)

/-- The number of an integer literal: an integer if 64 bits hold it. -/
def ofIntLiteral? (negative : Bool) (n : Nat) : Option Number :=
  if negative then
    if 0 < n ∧ Int64.minValue.toInt ≤ -n then some (.int (-n))
    else (Binary64.ofQuotient? true n 1).map .float
  else if n < UInt64.size then some (.int n)
  else (Binary64.ofQuotient? false n 1).map .float

def number? (s : Rest) : Option (Number × Rest) := do
  let (negative, s) := match s with
    | '-'::rest => (true, rest)
    | rest => (false, rest)
  let (whole, s) := digits s
  if whole = [] ∨ (whole.length > 1 ∧ whole.head? = some '0') then none
  let (fraction, s) ← fraction? s
  let (written, exponent, s) ← exponent? s
  if fraction = [] ∧ written = false then
    return (← ofIntLiteral? negative (natOf whole), s)
  else
    let x ← Binary64.ofDecimal? negative (natOf (whole ++ fraction)) (exponent-fraction.length)
    return (.float x, s)

def keyword? (word : String) (v : Json) (s : Rest) : Option (Json × Rest) :=
  if word.toList.isPrefixOf s then some (v, s.drop word.length) else none

mutual

def value? : Nat → Rest → Option (Json × Rest)
  | 0, _ => none
  | fuel+1, s =>
    match skipSpace s with
    | '['::rest =>
      match skipSpace rest with
      | ']'::rest => some (.arr [], rest)
      | rest => elements? fuel [] rest
    | '{'::rest =>
      match skipSpace rest with
      | '}'::rest => some (.obj [], rest)
      | rest => members? fuel [] rest
    | '"'::rest => (string? (rest.length+1) [] rest).map fun (s, rest) => (.str s, rest)
    | 't'::rest => keyword? "true" (.bool true) ('t'::rest)
    | 'f'::rest => keyword? "false" (.bool false) ('f'::rest)
    | 'n'::rest => keyword? "null" .null ('n'::rest)
    | s => (number? s).map fun (n, rest) => (.num n, rest)

def elements? : Nat → List Json → Rest → Option (Json × Rest)
  | 0, _, _ => none
  | fuel+1, done, s => do
    let (v, rest) ← value? fuel s
    match skipSpace rest with
    | ','::rest => elements? fuel (v::done) rest
    | ']'::rest => some (.arr (v::done).reverse, rest)
    | _ => none

def members? : Nat → Fields Json → Rest → Option (Json × Rest)
  | 0, _, _ => none
  | fuel+1, done, s =>
    match skipSpace s with
    | '"'::rest => do
      let (key, rest) ← string? (rest.length+1) [] rest
      match skipSpace rest with
      | ':'::rest =>
        let (v, rest) ← value? fuel rest
        let done := Fields.insert key v done
        match skipSpace rest with
        | ','::rest => members? fuel done rest
        | '}'::rest => some (.obj done, rest)
        | _ => none
      | _ => none
    | _ => none

end

def read? (s : String) : Option Json := do
  let s := s.toList
  let (v, rest) ← value? (s.length+1) s
  if skipSpace rest = [] then some v else none

end ToolSpec.Json
