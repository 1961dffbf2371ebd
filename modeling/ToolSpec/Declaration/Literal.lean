import ToolSpec.Codec.Keywords
import ToolSpec.Declaration.Token

/-!
# Literals

A literal has a value: a text, a truth value, null, a number or a list of literals. Underscores in a
number mean nothing; a fraction, an exponent or a suffix makes it a float, and a suffix may ask for
single precision. Any other expression has the value that it is given where the declaration is
compiled. That value may depend on the kind of value that is asked for, as numbers are converted.
-/

set_option autoImplicit false

namespace ToolSpec
open ToolSpec.Text

/-- A literal value, or the spelling of an expression. A character counts as a text wherever it is
converted to one. -/
inductive Literal
  | value (v : Json)
  | character (c : Char)
  | path (text : String)

/-- The values of expressions that are no literals, by their spelling and the kind of value that is
asked for. Wherever an expression stands, it has the same value of a kind, or none. -/
structure Values where
  bound? : String → Option Bound
  length? : String → Option UInt64
  string? : String → Option String
  bool? : String → Option Bool
  json : String → Json

def Values.empty : Values :=
  ⟨fun _ => none, fun _ => none, fun _ => none, fun _ => none, fun _ => .null⟩

namespace Literal

def read {α : Type} (decode : Json → Option α) (given : String → Option α) : Literal → Option α
  | .value v => decode v
  | .character c => decode (.str (String.singleton c))
  | .path text => given text

def bound? (x : Values) : Literal → Option Bound := read Bound.ofJson? x.bound?

def length? (x : Values) : Literal → Option UInt64 := read Json.uint64? x.length?

def string? (x : Values) : Literal → Option String := read Json.str? x.string?

def bool? (x : Values) : Literal → Option Bool := read Json.bool? x.bool?

def json (x : Values) : Literal → Json
  | .value v => v
  | .character c => .str (String.singleton c)
  | .path text => x.json text

def integerSuffixes : List String :=
  ["", "i8", "i16", "i32", "i64", "i128", "isize", "u8", "u16", "u32", "u64", "u128", "usize"]

def signed (negative : Bool) (n : Nat) : Json := .int (if negative then -n else n)

def base? : Line → Option (Nat × Line)
  | '0' :: 'x'::rest => some (16, rest)
  | '0' :: 'o'::rest => some (8, rest)
  | '0' :: 'b'::rest => some (2, rest)
  | _ => none

def digitsIn (base : Nat) (s : Line) : Nat × Line :=
  let isDigit (c : Char) : Bool := (Json.hexValue? c).any (· < base)
  ((s.takeWhile isDigit).foldl (fun n c => base*n+(Json.hexValue? c).getD 0) 0, s.dropWhile isDigit)

def doubleOf (negative : Bool) (digits : Nat) (exponent : Int) : Double :=
  ((Binary64.ofDecimal? negative digits exponent).map .finite).getD (.infinite negative)

def decimal? (negative : Bool) (s : Line) : Option Json := do
  let (whole, s) := Json.digits s
  let (point, fraction, s) : Bool × Line × Line := match s with
    | '.'::rest => (true, Json.digits rest)
    | s => (false, [], s)
  let (written, exponent, suffix) ← Json.exponent? s
  let suffix := String.ofList suffix
  let x := doubleOf negative (Json.natOf (whole ++ fraction)) (exponent-fraction.length)
  if suffix = "f32" then some (.ofDouble x.toSingle)
  else if suffix = "f64" ∨ (point ∨ written) ∧ suffix = "" then some (.ofDouble x)
  else if ¬ (point ∨ written) ∧ suffix ∈ integerSuffixes then
    some (signed negative (Json.natOf whole))
  else none

def number? (negative : Bool) (digits : String) : Option Json :=
  let s := digits.toList.filter (· ≠ '_')
  match base? s with
  | some (base, s) =>
    let (n, suffix) := digitsIn base s
    if String.ofList suffix ∈ integerSuffixes then some (signed negative n) else none
  | none => decimal? negative s

mutual

def value? : Token → Option Json
  | .text s => some (.str s)
  | .character c => some (.str (String.singleton c))
  | .number digits => number? false digits
  | .word id =>
    if id = .plain "true" then some (.bool true)
    else if id = .plain "false" then some (.bool false)
    else if id = .plain "null" then some .null
    else none
  | .group '[' inner => (values? inner).map .arr
  | _ => none

def values? : List Token → Option (List Json)
  | [] => some []
  | [t] => (value? t).map ([·])
  | [.mark '-', .number digits] => (number? true digits).map ([·])
  | .mark '-'::.number digits::.mark ','::rest => do
    pure ((← number? true digits)::(← values? rest))
  | t::.mark ','::rest => do pure ((← value? t)::(← values? rest))
  | _ => none

end

def ofTokens : List Token → Literal
  | [.character c] => .character c
  | ts =>
    let value := match ts with
      | [t] => value? t
      | [.mark '-', .number digits] => number? true digits
      | _ => none
    (value.map .value).getD (.path (Token.spellingAll ts))

end Literal

end ToolSpec
