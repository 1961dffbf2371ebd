import ToolSpec.Json.Binary64

/-!
# The shortest decimal that reads back

Among the decimals that round to a given number, one with the fewest significant digits is
chosen, and of those the one nearest to the number. On the grid of `n`-digit decimals only the two
neighbours of the number can qualify, so grids of one, two, … digits are tried in turn.
-/

set_option autoImplicit false

namespace ToolSpec

structure Decimal where
  digits : Nat
  exponent : Int
  deriving DecidableEq

/-- The decimals that round to a number lie between two bounds, which qualify themselves exactly
if the mantissa is even. Bounds and value are counted in quarters of the last binary place. -/
structure RoundingInterval where
  low : Nat
  value : Nat
  high : Nat
  closed : Bool
  quarterScale : Int

namespace RoundingInterval

/-- Below a power of two the neighbour is only half as far away. -/
def ofBinary64 (x : Binary64) : RoundingInterval :=
  let low := if x.mantissa = fullMantissa ∧ -1074 < x.scale then 4*x.mantissa-1 else 4*x.mantissa-2
  ⟨low, 4*x.mantissa, 4*x.mantissa+2, x.mantissa%2 = 0, x.scale-2⟩

def onGrid (i : RoundingInterval) (quarters : Nat) (exponent : Int) : Nat × Nat :=
  let (n, d) := scaledQuotient quarters 1 (-i.quarterScale)
  if 0 ≤ exponent then (n, d*Nat.pow 10 exponent.toNat) else (n*Nat.pow 10 (-exponent).toNat, d)

def contains (i : RoundingInterval) (digits : Nat) (exponent : Int) : Bool :=
  let (ln, ld) := i.onGrid i.low exponent
  let (hn, hd) := i.onGrid i.high exponent
  if i.closed then ln ≤ digits*ld && digits*hd ≤ hn else ln < digits*ld && digits*hd < hn

def pick? (i : RoundingInterval) (exponent : Int) : Option Nat :=
  let (n, d) := i.onGrid i.value exponent
  let below := n/d
  match i.contains below exponent, i.contains (below+1) exponent with
  | true, true => some (divHalfEven n d)
  | true, false => some below
  | false, true => some (below+1)
  | false, false => none

end RoundingInterval

def digitCount (n : Nat) : Nat := (Nat.toDigits 10 n).length

namespace Decimal

def trimmed (fuel : Nat) (d : Decimal) : Decimal :=
  match fuel with
  | 0 => d
  | fuel+1 =>
    if d.digits ≠ 0 ∧ d.digits%10 = 0 then trimmed fuel ⟨d.digits/10, d.exponent+1⟩ else d

def scientific (d : Decimal) : Int := d.exponent+digitCount d.digits-1

end Decimal

namespace Binary64

/-- `e` with `10^e ≤ |x| < 10^(e+1)`. Nonzero numbers are above `10^-400`. -/
def decimalExponent (x : Binary64) : Int :=
  let (n, d) := x.quotient
  (digitCount (n*Nat.pow 10 400/d) : Int)-401

/-- The shortest decimal that rounds to the magnitude of `x`; seventeen digits always suffice. -/
def shortest (x : Binary64) : Decimal :=
  if x.isZero then ⟨0, 0⟩
  else
    let i := RoundingInterval.ofBinary64 x
    let e := x.decimalExponent
    let found := (List.range 17).findSome? fun (k : Nat) =>
      (i.pick? (e-k)).map fun digits => Decimal.mk digits (e-k)
    (found.getD ⟨0, 0⟩).trimmed 20

end Binary64

end ToolSpec
