/-!
# Binary floating point of 64 bits

A value is kept as a sign, a mantissa and a power of two, so that every
statement about it is one about whole numbers.  Decimal numbers are rounded to
the nearest value, a tie going to the even mantissa.  The digits of a value are
the shortest decimal that rounds back to it, and of those the nearest to it.
-/

namespace ShapedJson

/-- A value of the 64-bit binary format.  A finite one stands for the mantissa
times two to the exponent; the mantissa has 53 bits unless the exponent is the
least one, -1074. -/
inductive Binary64 where
  | nan
  | infinity (negative : Bool)
  | finite (negative : Bool) (mantissa : Nat) (exponent : Int)
  deriving DecidableEq, Repr

namespace Binary64

/-- Neither an infinity nor NaN. -/
def isFinite : Binary64 → Bool
  | .finite .. => true
  | _ => false

/-- At most zero; NaN is not. -/
def isNonpositive : Binary64 → Bool
  | .infinity negative => negative
  | .finite negative mantissa _ => negative || mantissa == 0
  | .nan => false

/-- The whole part of a quotient, plus one when the rest is more than half of
the divisor, or just half while the whole part is odd. -/
def roundQuotient (num den : Nat) : Nat :=
  let whole := num / den
  let rest := num % den
  if den < 2 * rest ∨ (den = 2 * rest ∧ whole % 2 = 1) then whole + 1 else whole

/-- A power of two as numerator and denominator. -/
def scaled (num den : Nat) (exponent : Int) : Nat × Nat :=
  if 0 ≤ exponent then (num * Nat.pow 2 exponent.toNat, den)
  else (num, den * Nat.pow 2 (-exponent).toNat)

/-- The exponent at which a positive quotient has a mantissa of 53 bits, or the
least exponent if that is greater. -/
def exponentFor (num den : Nat) : Int :=
  let guess : Int := (Nat.log2 num : Int) - Nat.log2 den - 52
  let (n, d) := scaled num den (-guess)
  max (if n / d < 0x10000000000000 then guess - 1 else guess) (-1074)

/-- The nearest value to a quotient of natural numbers. -/
def ofRatio (negative : Bool) (num den : Nat) : Binary64 :=
  if num = 0 then .finite negative 0 (-1074)
  else
    let exponent := exponentFor num den
    let (n, d) := scaled num den (-exponent)
    let mantissa := roundQuotient n d
    let (mantissa, exponent) :=
      if mantissa = 0x20000000000000 then (0x10000000000000, exponent + 1) else (mantissa, exponent)
    if 971 < exponent then .infinity negative else .finite negative mantissa exponent

/-- The nearest value to a natural number times a power of ten.  Powers so far
out that only zero or infinity is left are not computed: ten to the k is at
least two to the 3k. -/
def ofDecimal (negative : Bool) (digits : Nat) (exponent : Int) : Binary64 :=
  if digits = 0 then .finite negative 0 (-1074)
  else if 1024 ≤ 3 * exponent then .infinity negative
  else if 0 ≤ exponent then ofRatio negative (digits * Nat.pow 10 exponent.toNat) 1
  else if (Nat.log2 digits : Int) + 1076 ≤ 3 * -exponent then .finite negative 0 (-1074)
  else ofRatio negative digits (Nat.pow 10 (-exponent).toNat)

/-- The nearest value to an integer. -/
def ofInt (n : Int) : Binary64 := ofRatio (n < 0) n.natAbs 1

/-- A decimal: a natural number of digits times a power of ten. -/
structure Decimal where
  digits : Nat
  exponent : Int
  deriving DecidableEq, Repr

/-- The numerator and the denominator of a natural number times a power of ten. -/
def Decimal.ratio (d : Decimal) : Nat × Nat :=
  if 0 ≤ d.exponent then (d.digits * Nat.pow 10 d.exponent.toNat, 1)
  else (d.digits, Nat.pow 10 (-d.exponent).toNat)

/-- Whether the decimal lies where it rounds to the given positive value: within
half of the distance to either neighbour, the ends counting for an even
mantissa only. -/
def roundsTo (mantissa : Nat) (exponent : Int) (d : Decimal) : Bool :=
  let (num, den) := d.ratio
  let below :=
    if mantissa = 0x10000000000000 ∧ -1074 < exponent then 4 * mantissa - 1 else 4 * mantissa - 2
  let (lowNum, lowDen) := scaled below 4 exponent
  let (highNum, highDen) := scaled (4 * mantissa + 2) 4 exponent
  if mantissa % 2 = 0 then lowNum * den ≤ num * lowDen && num * highDen ≤ highNum * den
  else lowNum * den < num * lowDen && num * highDen < highNum * den

/-- The power of ten just above a positive quotient: the quotient is below it
and not below a tenth of it. -/
def magnitude (num den : Nat) : Int :=
  let guess : Int := ((Nat.log2 num : Int) - Nat.log2 den - 1) * 30103 / 100000
  let reaches (k : Int) : Bool :=
    let (n, d) := Decimal.ratio ⟨1, k⟩
    n * den ≤ num * d
  if reaches (guess + 1) then (if reaches (guess + 2) then guess + 3 else guess + 2)
  else guess + 1

/-- The decimals next to a positive quotient on the grid of a power of ten, the
nearer one first; of two at the same distance the even one. -/
def gridNeighbours (num den : Nat) (exponent : Int) : List Decimal :=
  let (unitNum, unitDen) := Decimal.ratio ⟨1, exponent⟩
  let n := num * unitDen
  let d := den * unitNum
  let whole := n / d
  if n % d = 0 then [⟨whole, exponent⟩]
  else if roundQuotient n d = whole then [⟨whole, exponent⟩, ⟨whole + 1, exponent⟩]
  else [⟨whole + 1, exponent⟩, ⟨whole, exponent⟩]

/-- The first decimal that rounds to the value, from coarse grids to fine ones. -/
def shortestFrom (mantissa : Nat) (exponent : Int) (num den : Nat) : Nat → Int → Option Decimal
  | 0, _ => none
  | grids + 1, grid =>
    match (gridNeighbours num den grid).find? (roundsTo mantissa exponent) with
    | some d => some d
    | none => shortestFrom mantissa exponent num den grids (grid - 1)

/-- The decimal without trailing zeros among its digits. -/
def Decimal.stripZeros (d : Decimal) : Nat → Decimal
  | 0 => d
  | fuel + 1 =>
    if d.digits ≠ 0 ∧ d.digits % 10 = 0 then
      Decimal.stripZeros ⟨d.digits / 10, d.exponent + 1⟩ fuel
    else d

/-- The shortest decimal that rounds to a positive value. -/
def shortest (mantissa : Nat) (exponent : Int) : Decimal :=
  let (num, den) := scaled mantissa 1 exponent
  let grid := magnitude num den - 1
  let found := (shortestFrom mantissa exponent num den 17 grid).getD ⟨mantissa, 0⟩
  found.stripZeros 20

end Binary64

end ShapedJson
