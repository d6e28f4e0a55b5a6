import Respace.Number.Binary64

/-! The decimal text of a floating-point number: the fewest digits that read back as the number, of two
    such decimals the nearer one. Which exponents are written out in full is a matter of notation. -/

namespace Respace.Number

/-- `digits * 10 ^ exponent` with one digit before the point: its digits, highest first, and the power
    of ten of the first. -/
structure Decimal where
  digits : List Char
  exponent : Int

namespace Decimal

/-- The greatest power of ten that is at most `n / d`, both positive. -/
def leadingPower (n d : Nat) : Int :=
  if d ≤ n then ((Nat.toDigits 10 (n / d)).length : Int) - 1
  else -((Nat.toDigits 10 ((d + n - 1) / n - 1)).length : Int)

/-- `n / d` in units of `10 ^ k`, as a quotient of natural numbers. -/
def inPowers (n d : Nat) (k : Int) : Nat × Nat :=
  if 0 ≤ k then (n, d * Nat.pow 10 k.toNat) else (n * Nat.pow 10 (-k).toNat, d)

/-- The digits of `c * 10 ^ k` without trailing zeros. -/
def ofCoefficient (c : Nat) (k : Int) : Decimal :=
  let ds := Nat.toDigits 10 c
  let trimmed := (ds.reverse.dropWhile (· == '0')).reverse
  ⟨if trimmed.isEmpty then ['0'] else trimmed, k + ds.length - 1⟩

/-- Whether `c * 10 ^ k` lies between the two ends `lo / d` and `hi / d`, ends counted when
    `closed`. -/
def within (lo hi d : Nat) (closed : Bool) (c : Nat) (k : Int) : Bool :=
  let (l, u) := inPowers lo d k
  let (h, v) := inPowers hi d k
  if closed then l ≤ c * u && c * v ≤ h else l < c * u && c * v < h

/-- The nearest decimal with `places` digits in the interval, if there is one. `n / d` is the number. -/
def atPlaces? (n lo hi d : Nat) (closed : Bool) (power : Int) (places : Nat) : Option Decimal :=
  let k := power - places + 1
  let (a, b) := inPowers n d k
  let c := a / b
  let low := within lo hi d closed c k
  let high := within lo hi d closed (c + 1) k
  let nearer := roundDiv a b
  if low && high then some (ofCoefficient nearer k)
  else if low then some (ofCoefficient c k)
  else if high then some (ofCoefficient (c + 1) k)
  else none

/-- The shortest decimal that reads back as the positive number `significand * 2 ^ exponent`. The
    interval of numbers that round to it reaches halfway to its neighbours; below a power of two the
    neighbour is only half as far. Seventeen digits always suffice. -/
def shortest (significand : Nat) (exponent : Int) : Decimal :=
  let closed := significand % 2 == 0
  let gap := if significand == Nat.pow 2 52 && exponent > Binary64.minExponent then 1 else 2
  let (n, d) := Binary64.magnitude (4 * significand) (exponent - 2)
  let (lo, _) := Binary64.magnitude (4 * significand - gap) (exponent - 2)
  let (hi, _) := Binary64.magnitude (4 * significand + 2) (exponent - 2)
  let power := leadingPower n d
  let c := inPowers n d (power - 16)
  ((List.range 17).findSome? fun i => atPlaces? n lo hi d closed power (i + 1)).getD
    (ofCoefficient (roundDiv c.1 c.2) (power - 16))

/-- The exponents that are written in full: from the lowest up to below the limit. -/
structure Notation where
  lowest : Int
  limit : Int
  infinity : String
  undefined : String

/-- A power of ten after its mark: a sign and at least two digits. -/
def exponentText (mark : Char) (e : Int) : List Char :=
  let ds := Nat.toDigits 10 e.natAbs
  [mark, if e < 0 then '-' else '+'] ++ List.replicate (2 - ds.length) '0' ++ ds

/-- A decimal written in full, with at least one digit on each side of the point. -/
def positional (x : Decimal) : List Char :=
  if x.exponent < 0 then
    '0' :: '.' :: (List.replicate (-x.exponent - 1).toNat '0' ++ x.digits)
  else
    let whole := x.exponent.toNat + 1
    let fraction := x.digits.drop whole
    x.digits.take whole ++ List.replicate (whole - x.digits.length) '0' ++
      ('.' :: if fraction.isEmpty then ['0'] else fraction)

/-- A decimal as one digit, the others after a point, and a power of ten. -/
def scientific (x : Decimal) : List Char :=
  let rest := x.digits.drop 1
  x.digits.take 1 ++ (if rest.isEmpty then [] else '.' :: rest) ++ exponentText 'e' x.exponent

end Decimal

/-- The text of a number in the given notation. -/
def Binary64.text (form : Decimal.Notation) : Binary64 → String
  | .nan => form.undefined
  | .infinite negative => (if negative then "-" else "") ++ form.infinity
  | .finite negative m e =>
    let sign := if negative then "-" else ""
    if m = 0 then sign ++ "0.0"
    else
      let x := Decimal.shortest m e
      let body :=
        if form.lowest ≤ x.exponent ∧ x.exponent < form.limit then x.positional else x.scientific
      sign ++ String.ofList body

/-- Numbers in messages: powers of ten from -4 to 15 in full. -/
def plainNotation : Decimal.Notation := ⟨-4, 16, "inf", "nan"⟩

/-- Numbers in documents: as in messages, with the document's own names for what is not finite. -/
def documentNotation : Decimal.Notation := ⟨-4, 16, "Infinity", "NaN"⟩

end Respace.Number
