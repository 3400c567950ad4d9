import ShapedJson.Json.Basic
import ShapedJson.Json.Numeral
import ShapedJson.Fields
import ShapedJson.Text.Octets

/-!
# Reading JSON text

The reader takes one value from the front of a text and gives it with the text
that is left.  A fault names the first thing that cannot stand where it stands,
with the text from there on, so that its position is the length of what went
before.  The constants for NaN and the infinities are outside the grammar; the
rules say whether they are read or refused.
-/

namespace ShapedJson

/-- What a document may hold beside the grammar. -/
structure ReadRules where
  /-- Whether the constants for NaN and the infinities are values. -/
  constants : Bool
  /-- The greatest number of digits of a whole number. -/
  digitLimit : Nat
  /-- The greatest number of containers around a value. -/
  nestingLimit : Nat
  deriving DecidableEq, Repr

/-- The two kinds of container. -/
inductive Container where
  | array
  | object
  deriving DecidableEq, Repr

/-- What can be wrong at one place of a text. -/
inductive Problem where
  | byteOrderMark
  | noValue
  | noName
  | noColon
  | noComma
  | extraData
  | unterminatedString
  | controlCharacter
  | badEscape
  | badUnicodeEscape
  deriving DecidableEq, Repr

/-- Why a text cannot be read. -/
inductive Fault where
  /-- A problem, and the text from its place on. -/
  | stopped (problem : Problem) (rest : Text)
  /-- A constant outside the grammar, by its name. -/
  | constant (name : Text)
  /-- A whole number with too many digits. -/
  | tooManyDigits (count : Nat)
  /-- A container inside too many others. -/
  | tooDeep (container : Container)
  deriving DecidableEq, Repr

namespace Text

/-- A blank of the JSON grammar. -/
def isJsonBlank (c : CodePoint) : Bool := c = ' ' || c = '\t' || c = '\n' || c = '\r'

/-- The text without the blanks of the grammar at its start. -/
def skipBlanks (t : Text) : Text := t.dropWhile isJsonBlank

end Text

namespace Json

/-- A part of a string: a code point, or the unit that an escape names. -/
inductive StringPart where
  | literal (c : CodePoint)
  | unit (c : CodePoint)
  deriving DecidableEq, Repr

/-- The code points of a string; the halves of a surrogate pair are joined only
when both are escapes. -/
def joinParts : List StringPart → Text
  | [] => []
  | [.literal c] => [c]
  | [.unit c] => [c]
  | .unit c :: .unit d :: rest =>
    if c.isHighSurrogate && d.isLowSurrogate then .ofSurrogates c d :: joinParts rest
    else c :: joinParts (.unit d :: rest)
  | .unit c :: .literal d :: rest => c :: joinParts (.literal d :: rest)
  | .literal c :: p :: rest => c :: joinParts (p :: rest)

/-- What an escape of one letter stands for. -/
def shortEscape? (c : CodePoint) : Option CodePoint :=
  if c = '"' ∨ c = '\\' ∨ c = '/' then some c
  else if c = 'b' then some 0x8
  else if c = 'f' then some 0xC
  else if c = 'n' then some '\n'
  else if c = 'r' then some '\r'
  else if c = 't' then some '\t'
  else none

/-- The unit that four hexadecimal digits name. -/
def unit? (a b c d : CodePoint) : Option CodePoint :=
  match a.hexValue?, b.hexValue?, c.hexValue?, d.hexValue? with
  | some a, some b, some c, some d => some (Fin.ofNat _ (((a * 16 + b) * 16 + c) * 16 + d))
  | _, _, _, _ => none

/-- The parts of a string up to its closing quote, and what follows.  The first
argument is the text from the opening quote on. -/
def readParts (start : Text) : Text → Except Fault (List StringPart × Text)
  | [] => .error (.stopped .unterminatedString start)
  | c :: rest =>
    if c = '"' then .ok ([], rest)
    else if c = '\\' then
      match rest with
      | [] => .error (.stopped .unterminatedString start)
      | e :: rest =>
        if e = 'u' then
          match rest with
          | h₁ :: h₂ :: h₃ :: h₄ :: after =>
            match unit? h₁ h₂ h₃ h₄ with
            | some u =>
              if after.isEmpty then .error (.stopped .badUnicodeEscape (e :: rest))
              else (readParts start after).map fun p => (.unit u :: p.1, p.2)
            | none => .error (.stopped .badUnicodeEscape (e :: rest))
          | _ => .error (.stopped .badUnicodeEscape (e :: rest))
        else
          match shortEscape? e with
          | some s => (readParts start rest).map fun p => (.literal s :: p.1, p.2)
          | none => .error (.stopped .badEscape (c :: e :: rest))
    else if c.val < 0x20 then .error (.stopped .controlCharacter (c :: rest))
    else (readParts start rest).map fun p => (.literal c :: p.1, p.2)

/-- A string after its opening quote, and what follows. -/
def readString (start rest : Text) : Except Fault (Text × Text) :=
  (readParts start rest).map fun p => (joinParts p.1, p.2)

/-- A number at the start of a text, and what follows. -/
def readNumber (rules : ReadRules) (t : Text) : Except Fault (Json × Text) :=
  match Numeral.scan? t with
  | none => .error (.stopped .noValue t)
  | some (numeral, rest) =>
    if numeral.isWhole && rules.digitLimit < numeral.whole.length then
      .error (.tooManyDigits numeral.whole.length)
    else .ok (.number numeral.value, rest)

/-- The words that stand for a value. -/
def literals : List (Text × Json) :=
  [(text "null", .null), (text "true", .bool true), (text "false", .bool false)]

/-- The words for numbers outside the grammar. -/
def constants : List (Text × Json) :=
  [(text "NaN", .number (.real .nan)),
    (text "Infinity", .number (.real (.infinity false))),
    (text "-Infinity", .number (.real (.infinity true)))]

/-- The first of the words that the text starts with, its value, and what
follows. -/
def readWord? (words : List (Text × Json)) (t : Text) : Option (Text × Json × Text) :=
  words.findSome? fun w => (Text.after? w.1 t).map fun rest => (w.1, w.2, rest)

/-- A value that is no container and no string, and what follows. -/
def readScalar (rules : ReadRules) (t : Text) : Except Fault (Json × Text) :=
  match readWord? literals t with
  | some (_, v, rest) => .ok (v, rest)
  | none =>
    match readWord? constants t with
    | some (name, v, rest) => if rules.constants then .ok (v, rest) else .error (.constant name)
    | none => readNumber rules t

mutual

/-- A value at the start of a text, and what follows.  The first number bounds
the steps of the reader, the second the containers that may still be opened. -/
def readValue (rules : ReadRules) : Nat → Nat → Text → Except Fault (Json × Text)
  | 0, _, t => .error (.stopped .noValue t)
  | _ + 1, _, [] => .error (.stopped .noValue [])
  | fuel + 1, nesting, c :: rest =>
    if c = '"' then (readString (c :: rest) rest).map fun p => (.string p.1, p.2)
    else if c = '\x7b' then
      match nesting with
      | 0 => .error (.tooDeep .object)
      | nesting + 1 =>
        match Text.skipBlanks rest with
        | [] => .error (.stopped .noName [])
        | d :: after =>
          if d = '\x7d' then .ok (.object [], after)
          else
            (readFields rules fuel nesting (d :: after)).map fun p =>
              (.object (Fields.distinct p.1), p.2)
    else if c = '[' then
      match nesting with
      | 0 => .error (.tooDeep .array)
      | nesting + 1 =>
        match Text.skipBlanks rest with
        | [] => .error (.stopped .noValue [])
        | d :: after =>
          if d = ']' then .ok (.array [], after)
          else (readItems rules fuel nesting (d :: after)).map fun p => (.array p.1, p.2)
    else readScalar rules (c :: rest)

/-- The items of an array from one item on, past the closing bracket. -/
def readItems (rules : ReadRules) : Nat → Nat → Text → Except Fault (List Json × Text)
  | 0, _, t => .error (.stopped .noValue t)
  | fuel + 1, nesting, t => do
    let (v, rest) ← readValue rules fuel nesting t
    match Text.skipBlanks rest with
    | [] => .error (.stopped .noComma [])
    | d :: after =>
      if d = ']' then .ok ([v], after)
      else if d = ',' then
        (readItems rules fuel nesting (Text.skipBlanks after)).map fun p => (v :: p.1, p.2)
      else .error (.stopped .noComma (d :: after))

/-- The fields of an object from one name on, past the closing brace. -/
def readFields (rules : ReadRules) :
    Nat → Nat → Text → Except Fault (List (Text × Json) × Text)
  | 0, _, t => .error (.stopped .noName t)
  | _ + 1, _, [] => .error (.stopped .noName [])
  | fuel + 1, nesting, c :: rest =>
    if c = '"' then do
      let (key, rest) ← readString (c :: rest) rest
      match Text.skipBlanks rest with
      | [] => .error (.stopped .noColon [])
      | d :: rest =>
        if d = ':' then do
          let (v, rest) ← readValue rules fuel nesting (Text.skipBlanks rest)
          match Text.skipBlanks rest with
          | [] => .error (.stopped .noComma [])
          | d :: after =>
            if d = '\x7d' then .ok ([(key, v)], after)
            else if d = ',' then
              (readFields rules fuel nesting (Text.skipBlanks after)).map fun p => ((key, v) :: p.1, p.2)
            else .error (.stopped .noComma (d :: after))
        else .error (.stopped .noColon (d :: rest))
    else .error (.stopped .noName (c :: rest))

end

/-- The value of a whole text, blanks around it allowed.  Each value, item or
field takes a step, and every second step takes a code point, so the steps are
never used up. -/
def read (rules : ReadRules) (t : Text) : Except Fault Json := do
  let (v, rest) ← readValue rules (2 * t.length + 2) rules.nestingLimit (Text.skipBlanks t)
  match Text.skipBlanks rest with
  | [] => .ok v
  | c :: rest => .error (.stopped .extraData (c :: rest))

end Json

end ShapedJson
