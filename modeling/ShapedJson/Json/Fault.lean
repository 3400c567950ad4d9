import ShapedJson.Json.Reader

/-!
# Faults in words

A problem is told with its place: the line and the column, both counted from
one, and the number of code points before it.  The other faults have a text of
their own.
-/

namespace ShapedJson

namespace Text

/-- The line of a place, given the text before it. -/
def lineAfter (before : Text) : Nat := before.count ('\n' : CodePoint) + 1

/-- The column of a place, given the text before it. -/
def columnAfter (before : Text) : Nat :=
  (before.reverse.takeWhile fun c => c != ('\n' : CodePoint)).length + 1

end Text

/-- What is wrong, without the place. -/
def Problem.message : Problem → Text
  | .byteOrderMark => text "Unexpected UTF-8 BOM (decode using utf-8-sig)"
  | .noValue => text "Expecting value"
  | .noName => text "Expecting property name enclosed in double quotes"
  | .noColon => text "Expecting ':' delimiter"
  | .noComma => text "Expecting ',' delimiter"
  | .extraData => text "Extra data"
  | .unterminatedString => text "Unterminated string starting at"
  | .controlCharacter => text "Invalid control character at"
  | .badEscape => text "Invalid \\escape"
  | .badUnicodeEscape => text "Invalid \\uXXXX escape"

/-- The name of a container in messages. -/
def Container.name : Container → Text
  | .array => text "array"
  | .object => text "object"

namespace Fault

/-- The number of code points of the document before a place. -/
def position (document rest : Text) : Nat := document.length - rest.length

/-- The fault of a document in words. -/
def reason (rules : ReadRules) (document : Text) : Fault → Text
  | .stopped problem rest =>
    let before := document.take (position document rest)
    problem.message ++ text ": line " ++ Text.ofNat (Text.lineAfter before) ++ text " column " ++
      Text.ofNat (Text.columnAfter before) ++ text " (char " ++ Text.ofNat (position document rest) ++
      text ")"
  | .constant name => name ++ text " is not valid JSON"
  | .tooManyDigits count =>
    text "Exceeds the limit (" ++ Text.ofNat rules.digitLimit ++
      text " digits) for integer string conversion: value has " ++ Text.ofNat count ++
      text " digits; use sys.set_int_max_str_digits() to increase the limit"
  | .tooDeep container =>
    text "maximum recursion depth exceeded while decoding a JSON " ++ container.name ++
      text " from a unicode string"

end Fault

end ShapedJson
