import Shapewright.Number.Shortest

/-!
# Reals with infinities

What arithmetic on binary64 numbers yields when nothing is refused: a sum too
large to be finite is infinite, and one that has no value is undefined. The
order puts what is undefined in front of everything, itself included, so that
nothing is equal to it.

Main definitions:

* `Extended.add`, `Extended.neg`, `Extended.magnitude` — arithmetic.
* `Extended.cmp` — the order.
* `Extended.ofDecimal` — the number nearest to a decimal.
-/

namespace Shapewright

/-- A binary64 number of any kind. -/
inductive Extended where
  | finite (value : Binary64)
  | infinite (negative : Bool)
  | undefined
  deriving Repr, DecidableEq, Inhabited

namespace Extended

/-- A rounded magnitude with the given sign; one too large is infinite. -/
def ofRounded (negative : Bool) : Option Binary64 → Extended
  | some x => .finite x
  | none => .infinite negative

def ofInt (n : Int) : Extended := ofRounded (n < 0) (Binary64.ofInt? n)

def neg : Extended → Extended
  | .finite x => .finite x.neg
  | .infinite negative => .infinite (!negative)
  | .undefined => .undefined

def magnitude : Extended → Extended
  | .finite x => .finite { x with negative := false }
  | .infinite _ => .infinite false
  | .undefined => .undefined

/-- Sum. Only numbers of one sign have a sum too large to be finite. -/
def add : Extended → Extended → Extended
  | .finite x, .finite y => ofRounded x.negative (x.add? y)
  | .infinite s, .infinite t => if s = t then .infinite s else .undefined
  | .infinite s, .finite _ => .infinite s
  | .finite _, .infinite s => .infinite s
  | .undefined, _ => .undefined
  | _, .undefined => .undefined

def sub (x y : Extended) : Extended := x.add y.neg

/-- The order. What is undefined is less than everything, on either side of it. -/
def cmp : Extended → Extended → Ordering
  | .undefined, _ => .lt
  | _, .undefined => .gt
  | .finite x, .finite y => x.cmp y
  | .infinite s, .infinite t => if s = t then .eq else if s then .lt else .gt
  | .infinite s, .finite _ => if s then .lt else .gt
  | .finite _, .infinite s => if s then .gt else .lt

/-! ## Decimals -/

/-- A power of ten beyond that of every finite number. -/
def maxPower : Int := 310

/-- A power of ten below that of every number but zero. -/
def minPower : Int := -330

/-- The number nearest to a decimal. -/
def ofDecimal (negative : Bool) (d : Decimal) : Extended :=
  let power := d.exponent + (Decimal.digits d.coefficient).length
  if d.coefficient = 0 ∨ power < minPower then .finite (.zero negative)
  else if maxPower < power then .infinite negative
  else
    ofRounded negative <|
      Binary64.ofRatio? negative (d.coefficient * Nat.pow 10 d.exponent.toNat)
        (Nat.pow 10 (-d.exponent).toNat)

end Extended
end Shapewright
