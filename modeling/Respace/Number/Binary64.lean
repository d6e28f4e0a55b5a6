/-! Binary floating-point numbers of 64 bits, exactly: a finite number is a sign, a significand and a
    power of two, so every operation is arithmetic on natural numbers followed by one rounding. The
    rounding is to the nearest, a tie to the even significand.

    A finite number is in lowest form when its significand has 53 bits, or its exponent is the least. -/

namespace Respace.Number

/-- `n / d` rounded to the nearest whole number, a tie to the even neighbour. -/
def roundDiv (n d : Nat) : Nat :=
  let q := n / d
  let r := n % d
  if 2 * r < d then q
  else if d < 2 * r then q + 1
  else q + q % 2

/-- A floating-point number. -/
inductive Binary64 where
  | finite (negative : Bool) (significand : Nat) (exponent : Int)
  | infinite (negative : Bool)
  | nan
  deriving DecidableEq, Inhabited

namespace Binary64

/-- The least exponent. -/
def minExponent : Int := -1074

/-- The greatest exponent. -/
def maxExponent : Int := 971

def zero (negative : Bool) : Binary64 := finite negative 0 minExponent

/-- `n / d` in units of `2 ^ e`, as a quotient of natural numbers. -/
def inUnits (n d : Nat) (e : Int) : Nat × Nat :=
  if 0 ≤ e then (n, d * Nat.pow 2 e.toNat) else (n * Nat.pow 2 (-e).toNat, d)

/-- The exponent at which `n / d` has a significand of 53 bits, or the least one. -/
def unitExponent (n d : Nat) : Int :=
  let e : Int := (Nat.log2 n : Int) - (Nat.log2 d : Int) - 52
  let (a, b) := inUnits n d e
  max (if a / b < Nat.pow 2 52 then e - 1 else e) minExponent

/-- The number nearest to `n / d`, which is infinite past the greatest finite one. -/
def ofRatio (negative : Bool) (n d : Nat) : Binary64 :=
  if n = 0 then zero negative
  else
    let e := unitExponent n d
    let (a, b) := inUnits n d e
    let m := roundDiv a b
    let (m, e) := if m = Nat.pow 2 53 then (Nat.pow 2 52, e + 1) else (m, e)
    if e > maxExponent then infinite negative else finite negative m e

/-- The number nearest to `digits * 10 ^ e`. Exponents far outside the range are decided without
    computing the power. -/
def ofDecimal (negative : Bool) (digits : Nat) (e : Int) : Binary64 :=
  let size : Int := (Nat.toDigits 10 digits).length + e
  if digits = 0 ∨ size < -400 then zero negative
  else if size > 400 then infinite negative
  else if 0 ≤ e then ofRatio negative (digits * Nat.pow 10 e.toNat) 1
  else ofRatio negative digits (Nat.pow 10 (-e).toNat)

/-- The size of a finite number as a quotient of natural numbers. -/
def magnitude (significand : Nat) (exponent : Int) : Nat × Nat :=
  if 0 ≤ exponent then (significand * Nat.pow 2 exponent.toNat, 1)
  else (significand, Nat.pow 2 (-exponent).toNat)

/-- The quotient of two whole numbers, correctly rounded; none when it is past the greatest finite
    number. The divisor is positive. -/
def quotient? (n : Int) (d : Nat) : Option Binary64 :=
  match ofRatio (n < 0) n.natAbs d with
  | .finite s m e => some (.finite s m e)
  | _ => none

/-- The product with a natural number, correctly rounded. -/
def scale (x : Binary64) (k : Nat) : Binary64 :=
  match x with
  | .finite s m e =>
    let (n, d) := magnitude m e
    ofRatio s (n * k) d
  | x => x

/-- The number nearest to the one-place decimal that is nearest to `x`; the sign stays. -/
def roundTenths (x : Binary64) : Binary64 :=
  match x with
  | .finite s m e =>
    let (n, d) := magnitude m e
    ofRatio s (roundDiv (10 * n) d) 10
  | x => x

/-- The whole part of a finite number. -/
def truncate? (x : Binary64) : Option Int :=
  match x with
  | .finite s m e =>
    let (n, d) := magnitude m e
    some (if s then -((n / d : Nat) : Int) else (n / d : Nat))
  | _ => none

def isZero : Binary64 → Bool
  | .finite _ m _ => m == 0
  | _ => false

end Binary64

end Respace.Number
