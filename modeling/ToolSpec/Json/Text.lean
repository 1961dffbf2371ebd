import ToolSpec.Json.Basic
import ToolSpec.Json.Shortest

/-!
# JSON text

Compact text has no blanks; pretty text indents by two. A float is written plainly if its
scientific exponent lies from -5 to 15, and then always has a fraction. Otherwise the exponent
is written with its sign and without padding.
-/

set_option autoImplicit false

namespace ToolSpec

namespace Decimal

def zeros (n : Nat) : String := String.ofList (List.replicate n '0')

def plain (d : Decimal) : String :=
  let ds := Nat.toDigits 10 d.digits
  let whole := ds.length+d.exponent
  if 0 ≤ d.exponent then String.ofList ds ++ zeros d.exponent.toNat ++ ".0"
  else if 0 < whole then
    String.ofList (ds.take whole.toNat) ++ "." ++ String.ofList (ds.drop whole.toNat)
  else "0." ++ zeros (-whole).toNat ++ String.ofList ds

/-- One digit before the point, which is left out if no digit follows. -/
def exponential (d : Decimal) : String :=
  let ds := Nat.toDigits 10 d.digits
  let fraction := if ds.length ≤ 1 then "" else "." ++ String.ofList (ds.drop 1)
  let sign := if d.scientific < 0 then "-" else "+"
  String.ofList (ds.take 1) ++ fraction ++ "e" ++ sign ++ toString d.scientific.natAbs

def text (d : Decimal) : String :=
  if -5 ≤ d.scientific ∧ d.scientific ≤ 15 then d.plain else d.exponential

end Decimal

def Binary64.text (x : Binary64) : String :=
  (if x.negative then "-" else "") ++ x.shortest.text

def Number.text : Number → String
  | .int n => toString n
  | .float x => x.text

namespace Json

def hexDigit (n : Nat) : Char := (Nat.toDigits 16 n).headD '0'

def escapeChar (c : Char) : List Char :=
  if c = '"' then ['\\', '"']
  else if c = '\\' then ['\\', '\\']
  else if c = '\n' then ['\\', 'n']
  else if c = '\r' then ['\\', 'r']
  else if c = '\t' then ['\\', 't']
  else if c.toNat = 8 then ['\\', 'b']
  else if c.toNat = 12 then ['\\', 'f']
  else if c.toNat < 32 then ['\\', 'u', '0', '0', hexDigit (c.toNat/16), hexDigit (c.toNat%16)]
  else [c]

def quote (s : String) : String :=
  String.ofList ('"'::s.toList.flatMap escapeChar ++ ['"'])

mutual

def text : Json → String
  | .null => "null"
  | .bool true => "true"
  | .bool false => "false"
  | .num n => n.text
  | .str s => quote s
  | .arr items => "[" ++ itemsText items ++ "]"
  | .obj fields => "\x7b" ++ fieldsText fields ++ "\x7d"

def itemsText : List Json → String
  | [] => ""
  | [v] => text v
  | v::rest => text v ++ "," ++ itemsText rest

def fieldsText : List (String × Json) → String
  | [] => ""
  | [(k, v)] => quote k ++ ":" ++ text v
  | (k, v)::rest => quote k ++ ":" ++ text v ++ "," ++ fieldsText rest

end

def newline (depth : Nat) : String := "\n" ++ String.ofList (List.replicate (2*depth) ' ')

mutual

def prettyAt (depth : Nat) : Json → String
  | .arr [] => "[]"
  | .arr items => "[" ++ prettyItems (depth+1) items ++ newline depth ++ "]"
  | .obj [] => "\x7b\x7d"
  | .obj fields => "\x7b" ++ prettyFields (depth+1) fields ++ newline depth ++ "\x7d"
  | v => text v

def prettyItems (depth : Nat) : List Json → String
  | [] => ""
  | [v] => newline depth ++ prettyAt depth v
  | v::rest => newline depth ++ prettyAt depth v ++ "," ++ prettyItems depth rest

def prettyFields (depth : Nat) : List (String × Json) → String
  | [] => ""
  | [(k, v)] => newline depth ++ quote k ++ ": " ++ prettyAt depth v
  | (k, v)::rest =>
    newline depth ++ quote k ++ ": " ++ prettyAt depth v ++ "," ++ prettyFields depth rest

end

def pretty (v : Json) : String := prettyAt 0 v

end Json

end ToolSpec
