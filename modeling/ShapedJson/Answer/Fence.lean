import ShapedJson.Text.Blank

/-!
# Code fences

An answer may come wrapped in a code fence: three backticks, possibly the tag of
the format, the body, and three backticks at the very end.  The body is the
shortest text after the opening and its blanks that leaves nothing but blanks
and the closing backticks.
-/

namespace ShapedJson.Answer

/-- The backticks that open and close a fence. -/
def fenceMark : Text := List.replicate 3 ⟨96, by decide⟩

/-- The text after the tag of the format, when one stands at its start. -/
def skipTag (t : Text) : Text :=
  ((Text.after? (text "json") t).or (Text.after? (text "JSON") t)).getD t

/-- Whether only blanks and the closing mark are left. -/
def closes (t : Text) : Bool := t.trimStart == fenceMark

/-- The shortest start of a text that leaves the end of a fence. -/
def fencedBody? : Text → Option Text
  | [] => none
  | c :: rest => if closes (c :: rest) then some [] else (fencedBody? rest).map (c :: ·)

/-- The answer without blanks around it, and without a fence around all of it. -/
def stripFence (raw : Text) : Text :=
  let trimmed := raw.trim
  match Text.after? fenceMark trimmed with
  | none => trimmed
  | some rest =>
    match fencedBody? (skipTag rest).trimStart with
    | some body => body.trim
    | none => trimmed

end ShapedJson.Answer
