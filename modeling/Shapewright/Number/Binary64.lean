/-!
# Finite binary64 numbers

A real number of a document is a finite IEEE 754 binary64 value, kept here as
its sign, mantissa and exponent rather than as a machine word, so that every
question about it is a question about naturals. All arithmetic rounds the exact
rational result once, to the nearest value and to the even mantissa on a tie.

Main definitions:

* `Binary64.ofRatio?` — the nearest value to a quotient of naturals; `none`
  when the magnitude is beyond the largest finite value.
* `Binary64.mul?`, `Binary64.div?`, `Binary64.add?` — correctly rounded
  arithmetic.
* `Binary64.isIntegral` — whether the value has no fractional part.
-/

namespace Shapewright

/-- The finite binary64 number `(-1)^negative * mantissa * 2^exponent`. -/
structure Binary64 where
  negative : Bool
  mantissa : Nat
  exponent : Int
  deriving Repr, DecidableEq, Inhabited

/-- The integer nearest to `num / den`, the even one of two equally near. -/
def roundHalfEven (num den : Nat) : Nat :=
  let quotient := num / den
  let twice := 2 * (num % den)
  if twice < den then quotient
  else if den < twice then quotient + 1
  else quotient + quotient % 2

namespace Binary64

/-- Bits of a full mantissa. -/
def precision : Nat := 53

/-- Exponent of the smallest subnormal value, which is also that of zero. -/
def minExponent : Int := -1074

/-- Largest exponent of a finite value. -/
def maxExponent : Int := 971

/-- A zero of the given sign. -/
def zero (negative : Bool) : Binary64 := ⟨negative, 0, minExponent⟩

def isZero (x : Binary64) : Bool := x.mantissa == 0

def neg (x : Binary64) : Binary64 := { x with negative := !x.negative }

/-- `num / den / 2^exponent` as a quotient of naturals. -/
def scaled (num den : Nat) (exponent : Int) : Nat × Nat :=
  if 0 ≤ exponent then (num, den * Nat.pow 2 exponent.toNat)
  else (num * Nat.pow 2 (-exponent).toNat, den)

/-- The value nearest to `num / den` with the given sign, and `none` when it is
too large to be finite. The first guess at the exponent comes from the bit
lengths and is at most one too small. -/
def ofRatio? (negative : Bool) (num den : Nat) : Option Binary64 :=
  if num = 0 then some (zero negative)
  else
    let guess := max ((num.log2 : Int) - den.log2 - precision) minExponent
    let (n, d) := scaled num den guess
    let exponent := if n / d < Nat.pow 2 precision then guess else guess + 1
    let (n, d) := scaled num den exponent
    let mantissa := roundHalfEven n d
    let (mantissa, exponent) :=
      if mantissa = Nat.pow 2 precision then (Nat.pow 2 (precision - 1), exponent + 1)
      else (mantissa, exponent)
    if maxExponent < exponent then none else some ⟨negative, mantissa, exponent⟩

/-- Numerator of the magnitude; `denominator` is its partner. -/
def numerator (x : Binary64) : Nat := x.mantissa * Nat.pow 2 x.exponent.toNat

def denominator (x : Binary64) : Nat := Nat.pow 2 (-x.exponent).toNat

/-- The value nearest to an integer. -/
def ofInt? (n : Int) : Option Binary64 := ofRatio? (n < 0) n.natAbs 1

def mul? (x y : Binary64) : Option Binary64 :=
  ofRatio? (x.negative != y.negative) (x.numerator * y.numerator) (x.denominator * y.denominator)

/-- Quotient by a nonzero number. -/
def div? (x y : Binary64) : Option Binary64 :=
  ofRatio? (x.negative != y.negative) (x.numerator * y.denominator) (x.denominator * y.numerator)

/-- The signed numerator over `denominator`. -/
def signedNumerator (x : Binary64) : Int :=
  if x.negative then -(x.numerator : Int) else x.numerator

/-- Sum. Two zeros of one sign keep it; any other sum that is exactly zero is positive. -/
def add? (x y : Binary64) : Option Binary64 :=
  let num := x.signedNumerator * y.denominator + y.signedNumerator * x.denominator
  if num = 0 then some (zero (x.negative && y.negative))
  else ofRatio? (num < 0) num.natAbs (x.denominator * y.denominator)

/-- Order of the values; the two zeros are equal. -/
def cmp (x y : Binary64) : Ordering :=
  compare (x.signedNumerator * y.denominator) (y.signedNumerator * x.denominator)

/-- Whether the value is an integer. -/
def isIntegral (x : Binary64) : Bool := x.mantissa % x.denominator == 0

end Binary64
end Shapewright
