import ShapedJson.Text.Basic

/-!
# Targets

The target of a request is an address, whole or relative.  Its path is what
stands before a query or a fragment, without the scheme and the authority of a
whole address.  Segments of one and of two dots are resolved before escapes are.
-/

namespace ShapedJson.Target

/-- A scheme and its colon at the start; without a colon nothing is taken.  Says
whether the scheme has a name. -/
def dropScheme (target : Text) : Bool × Text :=
  let isSchemePart (c : CodePoint) : Bool := c.isAlphanumeric || c == '+' || c == '-' || c == '.'
  let startsWell := target.head?.any fun (c : CodePoint) => c.isLower || c.isUpper || c == ':'
  match target.dropWhile isSchemePart with
  | [] => (false, target)
  | c :: rest =>
    if startsWell ∧ c = ':' then (target.head? != some (':' : CodePoint), rest) else (false, target)

/-- Whether a code point ends an authority. -/
def endsAuthority (c : CodePoint) : Bool := c == '/' || c == '?' || c == '#'

/-- An authority at the start, after two slashes.  Says whether it is there and
not empty. -/
def dropAuthority (target : Text) : Bool × Text :=
  match Text.after? (text "//") target with
  | none => (false, target)
  | some rest =>
    (rest.head?.any fun c => !endsAuthority c, rest.dropWhile fun c => !endsAuthority c)

/-- The path of a target as it is written, with one slash at its start unless the
target is a whole address. -/
def writtenPath (target : Text) : Text :=
  let (hasScheme, rest) := dropScheme target
  let (hasAuthority, rest) := dropAuthority rest
  let path := rest.takeWhile fun (c : CodePoint) => c != '?' && c != '#'
  if hasScheme && hasAuthority then path
  else ('/' : CodePoint) :: path.dropWhile fun (c : CodePoint) => c == '/'

/-- The segments of a path between its slashes, after the start of the first. -/
def segmentsFrom (current : Text) : Text → List Text
  | [] => [current]
  | c :: rest =>
    if c = '/' then current :: segmentsFrom [] rest else segmentsFrom (current ++ [c]) rest

/-- Put a segment after others: one dot stays where it is, two go a step back,
but not beyond the start. -/
def step (done : List Text) (segment : Text) : List Text :=
  if segment = text "." then done
  else if segment = text ".." then (if done = [[]] then done else done.dropLast)
  else done ++ [segment]

/-- A path without segments of one or two dots. -/
def resolve (path : Text) : Text :=
  Text.join (text "/") ((segmentsFrom [] path).foldl step [])

/-- The escapes of octets by two hexadecimal digits resolved. -/
def unescape : Text → Text
  | c :: h :: l :: rest =>
    if c = '%' then
      match h.hexValue?, l.hexValue? with
      | some h, some l => Fin.ofNat _ (16 * h + l) :: unescape rest
      | _, _ => c :: unescape (h :: l :: rest)
    else c :: unescape (h :: l :: rest)
  | t => t

/-- The path that a target leads to; the root where nothing is left. -/
def path (target : Text) : Text :=
  match resolve (writtenPath target) with
  | [] => text "/"
  | resolved => unescape resolved

end ShapedJson.Target
