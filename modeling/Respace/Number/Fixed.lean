import Respace.Number.Shortest

/-! Floating-point numbers with a given number of digits: after the point, or in all. The decimal nearest
    to the number is written, of two such decimals the even one. -/

namespace Respace.Number

/-- A number in parts: what stands before the point, and the point with all that follows. What is not
    finite has no first part. -/
structure Parts where
  negative : Bool
  whole : List Char
  rest : List Char

namespace Parts

/-- A fraction after its point. The point is dropped when nothing follows it, unless it is to stay. -/
def fraction (keepPoint : Bool) (ds : List Char) : List Char :=
  if ds.isEmpty && !keepPoint then [] else '.' :: ds

/-- Digits without the zeros they end in. -/
def dropEndZeros (ds : List Char) : List Char := (ds.reverse.dropWhile (· == '0')).reverse

/-- The digits of a number, with zeros in front up to a length. -/
def paddedDigits (length n : Nat) : List Char :=
  let ds := Nat.toDigits 10 n
  List.replicate (length - ds.length) '0' ++ ds

/-- How many digits a number has at most, after its point or from its first digit on: the finest power of
    two is `2 ^ -1074`. Any further digits are zeros. -/
def exactDigits : Nat := 1074

/-- The greatest count of digits that can be asked for. -/
def greatestCount : Nat := Nat.pow 2 31 - 1

/-- The zeros that follow the exact digits up to a number of places. -/
def endZeros (places : Nat) : List Char := List.replicate (places - exactDigits) '0'

/-- `n / d` with `places` digits after the point. -/
def fixed (n d places : Nat) : List Char × List Char :=
  let exact := min places exactDigits
  let ds := paddedDigits (exact + 1) (roundDiv (n * Nat.pow 10 exact) d)
  let (whole, ds) := ds.splitAt (ds.length - exact)
  (whole, ds ++ endZeros places)

/-- `n / d` with one digit before the point and `places` after it, and the power of ten. -/
def scientific (n d places : Nat) : List Char × List Char × Int :=
  if n = 0 then (['0'], List.replicate places '0', 0)
  else
    let exact := min places exactDigits
    let power := Decimal.leadingPower n d
    let (a, b) := Decimal.inPowers n d (power - exact)
    let ds := Nat.toDigits 10 (roundDiv a b)
    let power := if exact + 1 < ds.length then power + 1 else power
    (ds.take 1, (ds.drop 1).take exact ++ endZeros places, power)

/-- The ways to write a number. The most compact one counts all digits, drops zeros at the end of the
    fraction and takes a power of ten when the point would be far off; as a plain number it keeps a point. -/
inductive Form where
  | fixed | scientific | compact | plain
  deriving DecidableEq

/-- A finite number in the most compact way, with `digits` digits. Zeros that are dropped again need not
    be written. -/
def compact (n d digits : Nat) (keepZeros plain : Bool) : List Char × List Char :=
  let digits := if keepZeros then digits else min digits exactDigits
  let (whole, ds, power) := scientific n d (digits - 1)
  let trim (ds : List Char) := if keepZeros then ds else dropEndZeros ds
  let limit : Int := if plain then (digits : Int) - 1 else digits
  if power < -4 ∨ limit ≤ power then
    (whole, fraction keepZeros (trim ds) ++ Decimal.exponentText 'e' power)
  else
    let (whole, ds) := fixed n d ((digits : Int) - 1 - power).toNat
    let ds := trim ds
    (whole, if plain && ds.isEmpty then ['.', '0'] else fraction keepZeros ds)

/-- A number in the given form and with the given number of digits. In the scientific form the digit before
    the point is counted as well, so that the greatest count overflows and leaves no digits after it. -/
def ofNumber (form : Form) (digits : Nat) (alternate : Bool) : Binary64 → Parts
  | .nan => ⟨false, [], "nan".toList⟩
  | .infinite negative => ⟨negative, [], "inf".toList⟩
  | .finite negative m e =>
    let (n, d) := Binary64.magnitude m e
    match form with
    | .fixed =>
      let (whole, ds) := fixed n d digits
      ⟨negative, whole, fraction alternate ds⟩
    | .scientific =>
      let (whole, ds, power) := scientific n d (if digits == greatestCount then 0 else digits)
      ⟨negative, whole, fraction alternate ds ++ Decimal.exponentText 'e' power⟩
    | .compact | .plain =>
      let (whole, rest) := compact n d (max digits 1) alternate (form = .plain)
      ⟨negative, whole, rest⟩

/-- A number in its shortest decimal text, with a point if it is to stay. -/
def ofShortest (alternate : Bool) (x : Binary64) : Parts :=
  let cs := (x.text plainNotation).toList
  let (negative, cs) := match cs with
    | '-' :: cs => (true, cs)
    | cs => (false, cs)
  let rest := cs.dropWhile Char.isDigit
  ⟨negative, cs.takeWhile Char.isDigit, if alternate && rest.head? == some 'e' then '.' :: rest else rest⟩

end Parts

end Respace.Number
