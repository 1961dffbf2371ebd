/-!
# Binary floating-point numbers as exact values

A finite binary64 number is `± mantissa · 2^scale`, with one canonical pair for each magnitude,
so that equal records are equal representations. Rounding takes an exact quotient of naturals to
the nearest representable value, ties to the even mantissa. No machine arithmetic is used.
-/

set_option autoImplicit false

namespace ToolSpec

structure FloatFormat where
  precision : Nat
  minScale : Int
  maxScale : Int

namespace FloatFormat

def single : FloatFormat := ⟨24, -149, 104⟩

def double : FloatFormat := ⟨53, -1074, 971⟩

def mantissaLimit (f : FloatFormat) : Nat := 1 <<< f.precision

end FloatFormat

def divHalfEven (num den : Nat) : Nat :=
  let q := num/den
  let r := num%den
  if 2*r < den then q else if den < 2*r then q+1 else q+q%2

def scaledQuotient (num den : Nat) (scale : Int) : Nat × Nat :=
  if 0 ≤ scale then (num, den <<< scale.toNat) else (num <<< (-scale).toNat, den)

namespace FloatFormat

/-- The scale at which `num / den` has a full mantissa, or the smallest scale if there is none.
The binary logarithms leave two candidates, and the quotient tells them apart. -/
def scaleOf (f : FloatFormat) (num den : Nat) : Int :=
  let low := max f.minScale ((num.log2 : Int)-den.log2-f.precision)
  let (n, d) := scaledQuotient num den low
  if n/d < f.mantissaLimit then low else low+1

def round (f : FloatFormat) (num den : Nat) : Option (Nat × Int) :=
  if num = 0 then some (0, f.minScale)
  else
    let scale := f.scaleOf num den
    let (n, d) := scaledQuotient num den scale
    let m := divHalfEven n d
    let (m, scale) := if m = f.mantissaLimit then (m/2, scale+1) else (m, scale)
    if scale ≤ f.maxScale then some (m, scale) else none

end FloatFormat

def fullMantissa : Nat := 4503599627370496

/-- The one spelling of a magnitude: the mantissa is full unless the scale is the smallest. -/
def Canonical (mantissa : Nat) (scale : Int) : Prop :=
  mantissa < 2*fullMantissa ∧ (fullMantissa ≤ mantissa ∨ scale = -1074) ∧ -1074 ≤ scale ∧
    scale ≤ 971

instance (mantissa : Nat) (scale : Int) : Decidable (Canonical mantissa scale) :=
  inferInstanceAs (Decidable (_ ∧ _))

/-- A finite binary64 number. The two zeros are different records. -/
structure Binary64 where
  negative : Bool
  mantissa : Nat
  scale : Int
  canonical : Canonical mantissa scale
  deriving DecidableEq

namespace Binary64

def zero (negative : Bool) : Binary64 := ⟨negative, 0, -1074, by decide⟩

def ofParts? (negative : Bool) (mantissa : Nat) (scale : Int) : Option Binary64 :=
  if h : Canonical mantissa scale then some ⟨negative, mantissa, scale, h⟩ else none

def isZero (x : Binary64) : Bool := x.mantissa = 0

def same (x y : Binary64) : Bool := (x.isZero && y.isZero) || x = y

def ofQuotient? (negative : Bool) (num den : Nat) : Option Binary64 :=
  (FloatFormat.double.round num den).bind fun (m, s) => ofParts? negative m s

def quotient (x : Binary64) : Nat × Nat := scaledQuotient x.mantissa 1 (-x.scale)

def ofInt? (n : Int) : Option Binary64 := ofQuotient? (n < 0) n.natAbs 1

/-- `± digits · 10^exponent` to the nearest number; none if it overflows. Exponents far outside
the range are decided before any power is taken. -/
def ofDecimal? (negative : Bool) (digits : Nat) (exponent : Int) : Option Binary64 :=
  let size : Int := digits.log2
  if digits = 0 ∨ exponent < 0 ∧ size+3*exponent < -1100 then some (zero negative)
  else if 0 ≤ exponent then
    if 400 < exponent then none else ofQuotient? negative (digits*Nat.pow 10 exponent.toNat) 1
  else ofQuotient? negative digits (Nat.pow 10 (-exponent).toNat)

theorem same_refl (x : Binary64) : x.same x = true := by simp [same]

theorem same_comm (x y : Binary64) : x.same y = y.same x := by
  simp only [same, Bool.and_comm, eq_comm (a := x)]

end Binary64

inductive Double
  | finite (x : Binary64)
  | infinite (negative : Bool)
  | nan
  deriving DecidableEq

namespace Double

def ofQuotient (negative : Bool) (num den : Nat) : Double :=
  match Binary64.ofQuotient? negative num den with
  | some x => finite x
  | none => infinite negative

def ofInt (n : Int) : Double := ofQuotient (n < 0) n.natAbs 1

/-- The value rounded to single precision, which every double can hold exactly. -/
def toSingle : Double → Double
  | finite x =>
    match FloatFormat.single.round x.quotient.1 x.quotient.2 with
    | some (m, s) =>
      let (n, d) := scaledQuotient m 1 (-s)
      ofQuotient x.negative n d
    | none => infinite x.negative
  | x => x

def finite? : Double → Option Binary64
  | finite x => some x
  | _ => none

end Double

end ToolSpec
