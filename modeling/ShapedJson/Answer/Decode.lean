import ShapedJson.Answer.Fence
import ShapedJson.Json.Fault

/-!
# Decoding an answer

An answer is decoded by the grammar of JSON alone: no constants for NaN and the
infinities, no byte order mark, bounded whole numbers and bounded nesting.
-/

namespace ShapedJson.Answer

/-- The bounds for answers. -/
def rules : ReadRules := ⟨false, 4300, 990⟩

/-- The value of a text without a byte order mark. -/
def readUnmarked (t : Text) : Except Fault Json :=
  match t with
  | [] => Json.read rules []
  | c :: rest =>
    if c.val = 0xFEFF then .error (.stopped .byteOrderMark (c :: rest))
    else Json.read rules (c :: rest)

/-- The text to decode: the answer as it is, or without its fence. -/
def body (stripFences : Bool) (raw : Text) : Text := if stripFences then stripFence raw else raw

/-- The value of an answer, or the reason why it has none. -/
def decode (stripFences : Bool) (raw : Text) : Except Text Json :=
  (readUnmarked (body stripFences raw)).mapError (Fault.reason rules (body stripFences raw))

end ShapedJson.Answer
