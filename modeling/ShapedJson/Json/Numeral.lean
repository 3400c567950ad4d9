import ShapedJson.Number.Basic

/-!
# Numerals of JSON

A numeral is a sign, a whole part without a leading zero, and optionally a
fraction and an exponent.  One without fraction and exponent denotes a whole
number, any other the nearest binary fraction.  Scanning takes the longest
numeral that the text starts with.
-/

namespace ShapedJson

/-- A numeral as it is written: runs of decimal digits and signs. -/
structure Numeral where
  negative : Bool
  whole : Text
  /-- The digits after the point; none when there is no point. -/
  fraction : Text
  /-- The sign and the digits after the mark of an exponent. -/
  exponent : Option (Bool × Text)
  deriving DecidableEq, Repr

namespace Numeral

/-- Whether the numeral has neither a fraction nor an exponent. -/
def isWhole (n : Numeral) : Bool := n.fraction.isEmpty && n.exponent.isNone

/-- The power of ten that the exponent names. -/
def exponentValue (n : Numeral) : Int :=
  match n.exponent with
  | none => 0
  | some (negative, digits) =>
    if negative then -(Text.decimalValue digits : Int) else Text.decimalValue digits

/-- The number that the numeral denotes. -/
def value (n : Numeral) : Number :=
  if n.isWhole then
    .whole (if n.negative then -(Text.decimalValue n.whole : Int) else Text.decimalValue n.whole)
  else
    .real (.ofDecimal n.negative (Text.decimalValue (n.whole ++ n.fraction))
      (n.exponentValue - n.fraction.length))

/-- A minus sign at the start, and what follows. -/
def scanMinus : Text → Bool × Text
  | [] => (false, [])
  | c :: rest => if c = '-' then (true, rest) else (false, c :: rest)

/-- A run of digits at the start, and what follows. -/
def scanDigits (t : Text) : Text × Text :=
  (t.takeWhile CodePoint.isDigit, t.dropWhile CodePoint.isDigit)

theorem scanDigits_append (t : Text) : (scanDigits t).1 ++ (scanDigits t).2 = t :=
  List.takeWhile_append_dropWhile

/-- A whole part at the start: a zero, or a run of digits that starts with no
zero. -/
def scanWhole : Text → Text × Text
  | [] => ([], [])
  | c :: rest => if c = '0' then ([c], rest) else scanDigits (c :: rest)

/-- A point and digits at the start; without a digit nothing is taken. -/
def scanFraction : Text → Text × Text
  | [] => ([], [])
  | c :: rest =>
    if c = '.' ∧ (scanDigits rest).1 ≠ [] then scanDigits rest else ([], c :: rest)

/-- A sign of either kind at the start: whether it is a minus, and what follows. -/
def scanSign : Text → Bool × Text
  | [] => (false, [])
  | c :: rest => if c = '-' then (true, rest) else if c = '+' then (false, rest) else (false, c :: rest)

/-- An exponent at the start; without a digit nothing is taken. -/
def scanExponent : Text → Option (Bool × Text) × Text
  | [] => (none, [])
  | c :: rest =>
    let (negative, body) := scanSign rest
    let (digits, after) := scanDigits body
    if (c = 'e' ∨ c = 'E') ∧ digits ≠ [] then (some (negative, digits), after)
    else (none, c :: rest)

/-- The longest numeral at the start of a text, and what follows. -/
def scan? (t : Text) : Option (Numeral × Text) :=
  let (negative, t) := scanMinus t
  let (whole, t) := scanWhole t
  if whole = [] then none
  else
    let (fraction, t) := scanFraction t
    let (exponent, t) := scanExponent t
    some (⟨negative, whole, fraction, exponent⟩, t)

end Numeral

end ShapedJson
