import ShapedJson.Number.Basic

/-!
# Patience

How long a reply is waited for.  A wait that is not positive is over before the
generator is asked, and so is one of a whole number that no binary fraction is
near to.
-/

namespace ShapedJson

/-- How long a reply is waited for. -/
inductive Patience where
  | unlimited
  | seconds (n : Number)
  deriving DecidableEq, Repr

/-- How a wait begins. -/
inductive Onset where
  /-- The generator is asked. -/
  | asks
  /-- The wait is over at once. -/
  | expired
  /-- The wait cannot be measured. -/
  | immeasurable
  deriving DecidableEq, Repr

namespace Patience

/-- How a wait begins. -/
def onset : Patience → Onset
  | .unlimited => .asks
  | .seconds (.whole n) =>
    if n ≤ 0 then .expired
    else if (Binary64.ofInt n).isFinite then .asks
    else .immeasurable
  | .seconds (.real x) => if x.isNonpositive then .expired else .asks

/-- Whether the wait for a reply that never comes is over at some time. -/
def ends : Patience → Bool
  | .unlimited => false
  | .seconds (.real (.infinity false)) => false
  | .seconds _ => true

/-- The wait as messages show it. -/
def inline : Patience → Text
  | .unlimited => text "None"
  | .seconds n => Text.ofNumber .message n

/-- The reason of a transport failure when the wait is over. -/
def expiry (p : Patience) : Text := text "timed out after " ++ p.inline ++ text "s"

end Patience

end ShapedJson
