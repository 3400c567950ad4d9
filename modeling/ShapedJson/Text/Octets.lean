import ShapedJson.Text.Basic

/-!
# Octet forms of text

Text as octets in UTF-8, UTF-16 and UTF-32.  Decoding follows the Unicode
forms, with one liberty: a surrogate that stands alone is accepted as the code
point it is.  The form of a JSON document is told from its first octets, either
by a byte order mark or by where the zero octets stand.
-/

namespace ShapedJson

/-- The code point that a surrogate pair stands for. -/
def CodePoint.ofSurrogates (high low : CodePoint) : CodePoint :=
  Fin.ofNat _ (0x10000 + (high.val - 0xD800) * 0x400 + (low.val - 0xDC00))

namespace Text

/-- An encoding form, with the order of octets where it matters. -/
inductive OctetForm where
  | utf8
  | utf16 (bigEndian : Bool)
  | utf32 (bigEndian : Bool)
  deriving DecidableEq, Repr

/-- A code point, when the number is one. -/
def codePoint? (n : Nat) : Option CodePoint :=
  if h : n < 0x110000 then some ⟨n, h⟩ else none

/-- A trailing octet of UTF-8. -/
def isTail (b : UInt8) : Bool := b.toNat / 64 == 2

/-- Decode UTF-8: shortest forms only, surrogates accepted. -/
def ofUtf8? : List UInt8 → Option Text
  | [] => some []
  | a :: rest =>
    if a.toNat < 0x80 then (ofUtf8? rest).map (Fin.ofNat _ a.toNat :: ·)
    else if a.toNat < 0xC0 then none
    else
      match rest with
      | [] => none
      | b :: rest =>
        if !isTail b then none
        else if a.toNat < 0xE0 then
          let n := a.toNat % 32 * 64 + b.toNat % 64
          if n < 0x80 then none else (ofUtf8? rest).map (Fin.ofNat _ n :: ·)
        else
          match rest with
          | [] => none
          | c :: rest =>
            if !isTail c then none
            else if a.toNat < 0xF0 then
              let n := a.toNat % 16 * 4096 + b.toNat % 64 * 64 + c.toNat % 64
              if n < 0x800 then none else (ofUtf8? rest).map (Fin.ofNat _ n :: ·)
            else
              match rest with
              | [] => none
              | d :: rest =>
                if !isTail d || 0xF5 ≤ a.toNat then none
                else
                  let n := a.toNat % 8 * 262144 + b.toNat % 64 * 4096 + c.toNat % 64 * 64 +
                    d.toNat % 64
                  if n < 0x10000 then none
                  else (codePoint? n).bind fun p => (ofUtf8? rest).map (p :: ·)

/-- Join neighbouring halves of surrogate pairs. -/
def joinSurrogates : Text → Text
  | [] => []
  | [c] => [c]
  | c :: d :: rest =>
    if c.isHighSurrogate && d.isLowSurrogate then .ofSurrogates c d :: joinSurrogates rest
    else c :: joinSurrogates (d :: rest)

/-- The units of UTF-16, or nothing when an octet is left over. -/
def unitsOfUtf16? (bigEndian : Bool) : List UInt8 → Option Text
  | [] => some []
  | [_] => none
  | a :: b :: rest =>
    let unit := if bigEndian then a.toNat * 256 + b.toNat else b.toNat * 256 + a.toNat
    (unitsOfUtf16? bigEndian rest).map (Fin.ofNat _ unit :: ·)

/-- Decode UTF-16, surrogates without a partner accepted. -/
def ofUtf16? (bigEndian : Bool) (octets : List UInt8) : Option Text :=
  (unitsOfUtf16? bigEndian octets).map joinSurrogates

/-- Decode UTF-32, surrogates accepted. -/
def ofUtf32? (bigEndian : Bool) : List UInt8 → Option Text
  | [] => some []
  | a :: b :: c :: d :: rest =>
    let n :=
      if bigEndian then ((a.toNat * 256 + b.toNat) * 256 + c.toNat) * 256 + d.toNat
      else ((d.toNat * 256 + c.toNat) * 256 + b.toNat) * 256 + a.toNat
    (codePoint? n).bind fun p => (ofUtf32? bigEndian rest).map (p :: ·)
  | _ => none

/-- Decode octets in the given form. -/
def ofOctets? : OctetForm → List UInt8 → Option Text
  | .utf8 => ofUtf8?
  | .utf16 bigEndian => ofUtf16? bigEndian
  | .utf32 bigEndian => ofUtf32? bigEndian

/-- The form that a byte order mark names, and the octets after the mark. -/
def markedForm? : List UInt8 → Option (OctetForm × List UInt8)
  | 0x00 :: 0x00 :: 0xFE :: 0xFF :: rest => some (.utf32 true, rest)
  | 0xFF :: 0xFE :: 0x00 :: 0x00 :: rest => some (.utf32 false, rest)
  | 0xFE :: 0xFF :: rest => some (.utf16 true, rest)
  | 0xFF :: 0xFE :: rest => some (.utf16 false, rest)
  | 0xEF :: 0xBB :: 0xBF :: rest => some (.utf8, rest)
  | _ => none

/-- The form of a JSON document without a mark: its first character is one of
ASCII, so the zero octets at the start show the width and the order. -/
def unmarkedForm : List UInt8 → OctetForm
  | [a, b] => if a = 0 then .utf16 true else if b = 0 then .utf16 false else .utf8
  | a :: b :: c :: d :: _ =>
    if a = 0 then (if b = 0 then .utf32 true else .utf16 true)
    else if b = 0 then (if c = 0 ∧ d = 0 then .utf32 false else .utf16 false)
    else .utf8
  | _ => .utf8

/-- Decode the octets of a JSON document in the form that they show. -/
def ofDocument? (octets : List UInt8) : Option Text :=
  match markedForm? octets with
  | some (form, rest) => ofOctets? form rest
  | none => ofOctets? (unmarkedForm octets) octets

/-- One code point in UTF-8. -/
def octetsOfCodePoint (c : CodePoint) : List UInt8 :=
  let n := c.val
  if n < 0x80 then [.ofNat n]
  else if n < 0x800 then [.ofNat (0xC0 + n / 64), .ofNat (0x80 + n % 64)]
  else if n < 0x10000 then
    [.ofNat (0xE0 + n / 4096), .ofNat (0x80 + n / 64 % 64), .ofNat (0x80 + n % 64)]
  else
    [.ofNat (0xF0 + n / 262144), .ofNat (0x80 + n / 4096 % 64), .ofNat (0x80 + n / 64 % 64),
      .ofNat (0x80 + n % 64)]

/-- The text in UTF-8. -/
def toUtf8 (t : Text) : List UInt8 := t.flatMap octetsOfCodePoint

end Text

end ShapedJson
