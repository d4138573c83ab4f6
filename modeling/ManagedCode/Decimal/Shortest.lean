set_option autoImplicit false

/-! # The shortest decimal of a binary floating-point number

The text of a binary number is the decimal with the fewest digits that lies among the
reals that round to the number, and of several such decimals the nearest one; an exact tie
goes up. The search runs over the decimal grids from coarse to fine, and on each grid only
the two neighbours of the number can be nearest, so only they are tested. All arithmetic is
exact.

Numbers are written positionally: no exponent, no point on whole numbers, and zeros up to
the point however large or small the number is.
-/

namespace ManagedCode

/-- A power of two. -/
def twoTo (n : Nat) : Nat := Nat.pow 2 n

/-- A power of ten. -/
def tenTo (n : Nat) : Nat := Nat.pow 10 n

/-- A binary interchange format: the widths of its fraction and exponent fields. -/
structure BinaryFormat where
  fractionBits : Nat
  exponentBits : Nat

/-- The 32-bit format. -/
def BinaryFormat.single : BinaryFormat := ⟨23, 8⟩

/-- The 64-bit format. -/
def BinaryFormat.double : BinaryFormat := ⟨52, 11⟩

/-- A positive number `mantissa * 2 ^ exponent` of a binary format. -/
structure Magnitude where
  mantissa : Nat
  exponent : Int
  /-- The next smaller number is half as far away as the next larger one. -/
  narrowBelow : Bool

/-- What a bit pattern stands for, its sign apart. -/
inductive BinaryValue where
  | nan
  | infinite
  | zero
  | positive (x : Magnitude)

/-- Reads the fields of a bit pattern. -/
def BinaryFormat.value (format : BinaryFormat) (bits : Nat) : BinaryValue :=
  let fraction := bits % twoTo format.fractionBits
  let exponent := bits / twoTo format.fractionBits % twoTo format.exponentBits
  let bias : Nat := twoTo (format.exponentBits - 1) - 1 + format.fractionBits
  if exponent = twoTo format.exponentBits - 1 then
    if fraction = 0 then .infinite else .nan
  else if exponent = 0 then
    if fraction = 0 then .zero else .positive ⟨fraction, 1 - bias, false⟩
  else
    .positive ⟨twoTo format.fractionBits + fraction, exponent - bias,
      fraction = 0 && exponent != 1⟩

/-- The sign bit is set. -/
def BinaryFormat.isNegative (format : BinaryFormat) (bits : Nat) : Bool :=
  bits / twoTo (format.fractionBits + format.exponentBits) % 2 = 1

/-- The decimal `digits * 10 ^ exponent`. -/
structure Decimal where
  digits : Nat
  exponent : Int

namespace Magnitude

/-- The point of the grid of multiples of `10 ^ k` that stands for `x`, if the grid has a
point among the reals that round to `x`.

In units of a quarter of the last binary place `x` is `4 * mantissa`; the reals that round
to it reach two units up, and two units down or one where the lower neighbour is nearer.
The ends belong to the interval when the mantissa is even. -/
def onGrid (x : Magnitude) (k : Int) : Option Decimal :=
  let scale := twoTo (x.exponent - 2).toNat * tenTo (-k).toNat
  let unit := twoTo (2 - x.exponent).toNat * tenTo k.toNat
  let value := 4 * x.mantissa * scale
  let low := (4 * x.mantissa - if x.narrowBelow then 1 else 2) * scale
  let high := (4 * x.mantissa + 2) * scale
  let rounds (n : Nat) : Bool :=
    if x.mantissa % 2 = 0 then low ≤ n * unit && n * unit ≤ high
    else low < n * unit && n * unit < high
  let below := value / unit
  let nearerBelow := 2 * (value - below * unit) < unit
  match rounds below, rounds (below + 1) with
  | true, true => some ⟨if nearerBelow then below else below + 1, k⟩
  | true, false => some ⟨below, k⟩
  | false, true => some ⟨below + 1, k⟩
  | false, false => none

/-- The exponent of the leading decimal digit of `x`. -/
def leadingExponent (x : Magnitude) : Int :=
  let shift := (-x.exponent).toNat
  let whole := x.mantissa * twoTo x.exponent.toNat * tenTo shift / twoTo shift
  (Nat.toDigits 10 whole).length - 1 - shift

/-- The shortest decimal that rounds to `x`. Seventeen digits are enough for every number of
the 64-bit format, nine for the 32-bit format. -/
def shortest (x : Magnitude) : Decimal :=
  ((List.range 17).findSome? fun (n : Nat) => x.onGrid (x.leadingExponent - n)).getD ⟨0, 0⟩

end Magnitude

/-- The digits of a decimal without zeros at the end, and the exponent of the last one. -/
def Decimal.trim (d : Decimal) : List Char × Int :=
  let digits := Nat.toDigits 10 d.digits
  let kept := (digits.reverse.dropWhile (· == '0')).reverse
  (kept, d.exponent + (digits.length - kept.length))

/-- Positional text of a decimal. -/
def Decimal.positional (d : Decimal) : String :=
  let (digits, exponent) := d.trim
  let zeros (n : Nat) : List Char := List.replicate n '0'
  if 0 ≤ exponent then
    String.ofList (digits ++ zeros exponent.toNat)
  else
    let places := (-exponent).toNat
    let padded := zeros (places + 1 - digits.length) ++ digits
    let whole := padded.length - places
    String.ofList (padded.take whole ++ '.' :: padded.drop whole)

/-- The text of a bit pattern. A negative zero keeps its sign; a number that is no number
has neither sign nor payload. -/
def BinaryFormat.text (format : BinaryFormat) (bits : Nat) : String :=
  let signed (s : String) : String := if format.isNegative bits then "-" ++ s else s
  match format.value bits with
  | .nan => "NaN"
  | .infinite => signed "inf"
  | .zero => signed "0"
  | .positive x => signed x.shortest.positional

end ManagedCode
