/-!
# Text as code points

Text is a list of code points.  A surrogate is a code point like any other
here, because a JSON escape can name one without its partner and the value it
stands in has to keep it.
-/

namespace ShapedJson

/-- A Unicode code point, surrogates included. -/
abbrev CodePoint := Fin 0x110000

instance CodePoint.instNeZero : @NeZero Nat Zero.ofOfNat0 0x110000 := ⟨by decide⟩

/-- A finite sequence of code points. -/
abbrev Text := List CodePoint

/-- The code point of a character. -/
def CodePoint.ofChar (c : Char) : CodePoint := Fin.ofNat 0x110000 c.toNat

instance : Coe Char CodePoint := ⟨CodePoint.ofChar⟩

/-- The code points of a string. -/
def text (s : String) : Text := s.toList.map CodePoint.ofChar

namespace CodePoint

/-- The first half of a surrogate pair. -/
def isHighSurrogate (c : CodePoint) : Bool := 0xD800 ≤ c.val && c.val < 0xDC00

/-- The second half of a surrogate pair. -/
def isLowSurrogate (c : CodePoint) : Bool := 0xDC00 ≤ c.val && c.val < 0xE000

/-- Either half of a surrogate pair. -/
def isSurrogate (c : CodePoint) : Bool := 0xD800 ≤ c.val && c.val < 0xE000

/-- A decimal digit of ASCII. -/
def isDigit (c : CodePoint) : Bool := 48 ≤ c.val && c.val < 58

/-- The value of a decimal digit. -/
def digitValue (c : CodePoint) : Nat := c.val - 48

/-- The value of a hexadecimal digit of either case. -/
def hexValue? (c : CodePoint) : Option Nat :=
  if 48 ≤ c.val ∧ c.val < 58 then some (c.val - 48)
  else if 97 ≤ c.val ∧ c.val < 103 then some (c.val - 87)
  else if 65 ≤ c.val ∧ c.val < 71 then some (c.val - 55)
  else none

/-- A small letter of ASCII. -/
def isLower (c : CodePoint) : Bool := 97 ≤ c.val && c.val < 123

/-- A capital letter of ASCII. -/
def isUpper (c : CodePoint) : Bool := 65 ≤ c.val && c.val < 91

/-- A letter or digit of ASCII. -/
def isAlphanumeric (c : CodePoint) : Bool := c.isDigit || c.isLower || c.isUpper

/-- The capital of a small letter of ASCII; any other code point is kept. -/
def upper (c : CodePoint) : CodePoint :=
  if c.isLower then Fin.ofNat _ (c.val - 32) else c

/-- The small letter of a capital of ASCII; any other code point is kept. -/
def lower (c : CodePoint) : CodePoint :=
  if c.isUpper then Fin.ofNat _ (c.val + 32) else c

end CodePoint

namespace Text

/-- The number that a run of decimal digits denotes. -/
def decimalValue (digits : Text) : Nat :=
  digits.foldl (fun n d => 10 * n + d.digitValue) 0

/-- A natural number in decimal digits, without leading zeros. -/
def ofNat (n : Nat) : Text := (Nat.toDigits 10 n).map CodePoint.ofChar

/-- An integer in decimal digits, a minus sign before a negative one. -/
def ofInt : Int → Text
  | .ofNat n => ofNat n
  | .negSucc n => '-' :: ofNat (n + 1)

/-- One hexadecimal digit, in small letters. -/
def hexDigit (d : Nat) : CodePoint := Fin.ofNat _ (if d < 10 then 48 + d else 87 + d)

/-- The last hexadecimal digits of a number, as many as the width says. -/
def hex : Nat → Nat → Text
  | 0, _ => []
  | width + 1, n => hex width (n / 16) ++ [hexDigit (n % 16)]

/-- The parts in order, with a separator between neighbours. -/
def join (separator : Text) (parts : List Text) : Text :=
  separator.intercalate parts

/-- What follows a word at the start of a text. -/
def after? : Text → Text → Option Text
  | [], t => some t
  | _ :: _, [] => none
  | c :: word, d :: t => if c = d then after? word t else none

theorem after?_eq_some_iff {word t rest : Text} : after? word t = some rest ↔ t = word ++ rest := by
  induction word generalizing t with
  | nil => simp [after?, eq_comm]
  | cons c word ih =>
    cases t with
    | nil => simp [after?]
    | cons d t =>
      by_cases h : c = d
      · simp [after?, h, ih]
      · have h' : d ≠ c := fun e => h e.symm
        simp [after?, h, h']

end Text

end ShapedJson
