import ShapedJson.Text.Printable

/-!
# Quoted text

The form in which messages show a text: between single quotes, or between
double quotes when it holds a single quote and no double one.  A backslash
stands before the quote in use and before a backslash; what cannot be printed
is written as an escape of its code point.
-/

namespace ShapedJson.Text

/-- The quote to put around a text. -/
def quoteFor (t : Text) : CodePoint :=
  if t.contains ('\'' : CodePoint) && !t.contains ('"' : CodePoint) then '"' else '\''

/-- How one code point stands between the given quotes. -/
def quotedCodePoint (quote c : CodePoint) : Text :=
  if c = quote ∨ c = '\\' then ['\\', c]
  else if c = '\n' then ['\\', 'n']
  else if c = '\r' then ['\\', 'r']
  else if c = '\t' then ['\\', 't']
  else if c.isPrintable then [c]
  else if c.val < 0x100 then '\\' :: 'x' :: hex 2 c.val
  else if c.val < 0x10000 then '\\' :: 'u' :: hex 4 c.val
  else '\\' :: 'U' :: hex 8 c.val

/-- The text between quotes, with escapes where they are needed. -/
def quoted (t : Text) : Text :=
  quoteFor t :: t.flatMap (quotedCodePoint (quoteFor t)) ++ [quoteFor t]

end ShapedJson.Text
