import ShapedJson.Text.Basic

/-!
# What cannot be encoded

UTF-8 has no form for a surrogate.  The first run of surrogates in a text is
what an encoder complains about.
-/

namespace ShapedJson

/-- A run of surrogates: its place, its length and its first code point. -/
structure EncodingFault where
  start : Nat
  count : Nat
  first : CodePoint
  deriving DecidableEq, Repr

/-- The complaint of an encoder. -/
def EncodingFault.message (f : EncodingFault) : Text :=
  if f.count = 1 then
    text "'utf-8' codec can't encode character '\\u" ++ Text.hex 4 f.first.val ++
      text "' in position " ++ Text.ofNat f.start ++ text ": surrogates not allowed"
  else
    text "'utf-8' codec can't encode characters in position " ++ Text.ofNat f.start ++
      text "-" ++ Text.ofNat (f.start + f.count - 1) ++ text ": surrogates not allowed"

/-- The first run of surrogates of a text. -/
def Text.encodingFault? (t : Text) : Option EncodingFault :=
  match t.dropWhile fun c => !c.isSurrogate with
  | [] => none
  | c :: rest =>
    some ⟨(t.takeWhile fun c => !c.isSurrogate).length,
      ((c :: rest).takeWhile CodePoint.isSurrogate).length, c⟩

end ShapedJson
