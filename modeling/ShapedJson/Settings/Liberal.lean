import ShapedJson.Json.Inline
import ShapedJson.Json.Numeral
import ShapedJson.Text.Blank

/-!
# Liberal readings of a setting

A setting may come as a JSON value or as a text.  A whole number, a number and a
truth value are each read from more than their own kind of value; what is
refused is told with the kind of the fault.
-/

namespace ShapedJson

/-- What is wrong with a setting. -/
inductive SettingFault where
  | notString
  | notWhole
  | fractional
  | unreadableWhole
  | oversizedWhole
  | notFinite
  | notNumber
  | unreadableNumber
  | notBoolean
  | unreadableBoolean
  | negativeRetries
  | nonpositiveTimeout
  | unknownLevel (given : Text)
  | unknownSetting
  deriving DecidableEq, Repr

/-- The whole number that a fraction is, if it is one. -/
def Binary64.toInt? : Binary64 → Option Int
  | .finite negative mantissa exponent =>
    let (num, den) := scaled mantissa 1 exponent
    if num % den = 0 then some (if negative then -(num / den : Nat) else (num / den : Nat))
    else none
  | _ => none

namespace Liberal

/-- Whether two underscores stand side by side. -/
def hasDoubleUnderscore : Text → Bool
  | [] => false
  | [_] => false
  | a :: b :: rest => (a = '_' && b = '_') || hasDoubleUnderscore (b :: rest)

/-- A text without the underscores inside it, each of which must stand alone;
none when there is nothing to remove. -/
def withoutUnderscores? (t : Text) : Option Text :=
  if !t.contains ('_' : CodePoint) || t.head? == some ('_' : CodePoint) ||
      t.getLast? == some ('_' : CodePoint) || hasDoubleUnderscore t then none
  else some (t.filter fun c => c != ('_' : CodePoint))

/-- The text before a point, when zeros and nothing else follow the point. -/
def withoutZeroFraction (t : Text) : Text :=
  match t.dropWhile fun c => c != ('.' : CodePoint) with
  | [] => t
  | [_] => t
  | _ :: zeros =>
    if zeros.all fun c => c == ('0' : CodePoint) then t.takeWhile fun c => c != ('.' : CodePoint)
    else t

/-- The rest of a number after a leading zero, from a minus sign or the first
digit that is no zero on; a zero before a point or at the end stays. -/
def afterZeros (last : CodePoint) : Text → Option Text
  | [] => some [last]
  | c :: rest =>
    if c = '0' ∨ c = '_' then afterZeros c rest
    else if c.isDigit ∨ c = '-' then some (c :: rest)
    else if c = '.' then some (last :: c :: rest)
    else none

/-- A number without leading zeros; it has to start with a digit. -/
def withoutLeadingZeros : Text → Option Text
  | [] => none
  | c :: rest =>
    if c = '0' then afterZeros c rest
    else if c.isDigit then some (c :: rest)
    else none

/-- A plain spelling of a whole number: no plus sign, no zeros at the start, no
fraction and no underscores.  Leading zeros may have a minus sign on either
side. -/
def plainWhole? (t : Text) : Option Text :=
  match t with
  | [] => none
  | c :: rest =>
    if c = '-' then (withoutLeadingZeros rest).map fun t => c :: cleaned t
    else (withoutLeadingZeros (if c = '+' then rest else t)).map cleaned
where
  cleaned (t : Text) : Text :=
    let t := withoutZeroFraction t
    (withoutUnderscores? t).getD t

/-- A whole number from a text: a sign, leading zeros, single underscores between
digits and a fraction of zeros are allowed. -/
def wholeOfText (t : Text) : Except SettingFault Int :=
  match (plainWhole? (Text.trimOf CodePoint.isWhiteSpace t)).bind Numeral.scan? with
  | some (numeral, []) =>
    match numeral.value with
    | .whole n => if 4300 < numeral.whole.length then .error .oversizedWhole else .ok n
    | .real _ => .error .unreadableWhole
  | _ => .error .unreadableWhole

/-- A whole number from a fraction, which must not be larger than a word. -/
def wholeOfReal (x : Binary64) : Except SettingFault Int :=
  if !x.isFinite then .error .notFinite
  else
    match x.toInt? with
    | none => .error .fractional
    | some n => if n.natAbs < 0x8000000000000000 then .ok n else .error .oversizedWhole

/-- A whole number. -/
def whole : Json → Except SettingFault Int
  | .number (.whole n) => .ok n
  | .number (.real x) => wholeOfReal x
  | .bool b => .ok (if b then 1 else 0)
  | .string s => wholeOfText s
  | _ => .error .notWhole

/-- A decimal at the start of a text, where digits may be missing on one side of
the point. -/
def decimal? (negative : Bool) (t : Text) : Option Binary64 :=
  let (whole, rest) := Numeral.scanDigits t
  let (fraction, rest) :=
    match rest with
    | [] => ([], [])
    | c :: after => if c = '.' then Numeral.scanDigits after else ([], c :: after)
  let (exponent, rest) := Numeral.scanExponent rest
  if (whole ++ fraction).isEmpty || !rest.isEmpty then none
  else
    let numeral : Numeral := ⟨negative, whole, fraction, exponent⟩
    some (.ofDecimal negative (Text.decimalValue (whole ++ fraction))
      (numeral.exponentValue - fraction.length))

/-- A number from a text without blanks: a decimal, or a name of an infinity or
of NaN in letters of either case. -/
def plainNumber? (t : Text) : Option Binary64 :=
  let (negative, body) := Numeral.scanSign t
  let name := body.map CodePoint.lower
  if name = text "inf" ∨ name = text "infinity" then some (.infinity negative)
  else if name = text "nan" then some .nan
  else decimal? negative body

/-- A number from a text.  It may have blanks around it or underscores inside,
but not both. -/
def numberOfText (t : Text) : Except SettingFault Binary64 :=
  let trimmed := Text.trimOf CodePoint.isWhiteSpace t
  match (plainNumber? trimmed).or ((withoutUnderscores? t).bind plainNumber?) with
  | some x => .ok x
  | none => .error .unreadableNumber

/-- A number. -/
def number : Json → Except SettingFault Binary64
  | .number (.real x) => .ok x
  | .number (.whole n) =>
    if (Binary64.ofInt n).isFinite then .ok (.ofInt n) else .error .notNumber
  | .bool b => .ok (.ofInt (if b then 1 else 0))
  | .string s => numberOfText s
  | _ => .error .notNumber

/-- The words for false. -/
def falseWords : List Text :=
  [text "0", text "off", text "f", text "false", text "n", text "no"]

/-- The words for true. -/
def trueWords : List Text :=
  [text "1", text "on", text "t", text "true", text "y", text "yes"]

/-- A truth value from a whole number. -/
def booleanOfInt (n : Int) : Except SettingFault Bool :=
  if n = 0 then .ok false else if n = 1 then .ok true else .error .unreadableBoolean

/-- A truth value. -/
def boolean : Json → Except SettingFault Bool
  | .bool b => .ok b
  | .string s =>
    let word := s.map CodePoint.lower
    if falseWords.contains word then .ok false
    else if trueWords.contains word then .ok true
    else .error .unreadableBoolean
  | .number (.whole n) =>
    if -0x8000000000000000 ≤ n ∧ n < 0x8000000000000000 then booleanOfInt n else .error .notBoolean
  | .number (.real x) =>
    match wholeOfReal x with
    | .ok n => booleanOfInt n
    | .error _ => .error .notBoolean
  | _ => .error .notBoolean

/-- A text, which nothing else is read as. -/
def string : Json → Except SettingFault Text
  | .string s => .ok s
  | _ => .error .notString

/-- A reading for which null stands for nothing. -/
def optional {α : Type} (reading : Json → Except SettingFault α) :
    Json → Except SettingFault (Option α)
  | .null => .ok none
  | v => (reading v).map some

end Liberal

end ShapedJson
