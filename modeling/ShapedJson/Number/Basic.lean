import ShapedJson.Number.Binary64
import ShapedJson.Text.Basic

/-!
# Numbers of JSON and their written form

A number is whole and of any size, or a 64-bit binary fraction.  The written
form of a fraction has the shortest digits that read back, always with a point
or an exponent; which exponents are written in positions is one record.
-/

namespace ShapedJson

/-- A number: whole and exact, or a binary fraction. -/
inductive Number where
  | whole (n : Int)
  | real (x : Binary64)
  deriving DecidableEq, Repr

/-- How fractions are written. -/
structure FractionLayout where
  /-- The least power of ten above the value that is written in positions. -/
  lowest : Int
  /-- The greatest power of ten above the value that is written in positions. -/
  highest : Int
  /-- The least number of digits of an exponent. -/
  exponentWidth : Nat
  /-- The text of NaN. -/
  nan : Text
  /-- The text of an infinity, without its sign. -/
  infinity : Text

namespace FractionLayout

/-- Fractions inside messages. -/
def message : FractionLayout := ⟨-3, 16, 2, text "nan", text "inf"⟩

/-- Fractions inside JSON text. -/
def json : FractionLayout := ⟨-3, 16, 2, text "NaN", text "Infinity"⟩

end FractionLayout

namespace Text

/-- A sign in front of a negative number. -/
def signed (negative : Bool) (t : Text) : Text := if negative then '-' :: t else t

/-- A power of ten after the mark of an exponent, sign always written. -/
def ofExponent (width : Nat) (e : Int) : Text :=
  let digits := ofNat e.natAbs
  'e' :: (if e < 0 then '-' else '+') :: List.leftpad width ('0' : CodePoint) digits

/-- A positive decimal.  The point stands after as many digits as the power of
ten above the value says. -/
def ofDecimal (layout : FractionLayout) (d : Binary64.Decimal) : Text :=
  let digits := ofNat d.digits
  let point : Int := digits.length + d.exponent
  if layout.lowest ≤ point ∧ point ≤ layout.highest then
    if point ≤ 0 then '0' :: '.' :: (List.replicate (-point).toNat ('0' : CodePoint) ++ digits)
    else if point < digits.length then
      digits.take point.toNat ++ ('.' : CodePoint) :: digits.drop point.toNat
    else digits ++ List.replicate (point.toNat - digits.length) ('0' : CodePoint) ++ text ".0"
  else
    match digits with
    | [] => []
    | [first] => first :: ofExponent layout.exponentWidth (point - 1)
    | first :: rest => first :: '.' :: rest ++ ofExponent layout.exponentWidth (point - 1)

/-- A binary fraction in the given layout. -/
def ofBinary64 (layout : FractionLayout) : Binary64 → Text
  | .nan => layout.nan
  | .infinity negative => signed negative layout.infinity
  | .finite negative mantissa exponent =>
    signed negative <|
      if mantissa = 0 then text "0.0" else ofDecimal layout (Binary64.shortest mantissa exponent)

/-- A number in the given layout. -/
def ofNumber (layout : FractionLayout) : Number → Text
  | .whole n => ofInt n
  | .real x => ofBinary64 layout x

end Text

end ShapedJson
