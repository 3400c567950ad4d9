import ShapedJson.Generation.Attempt
import ShapedJson.Generation.Loop
import ShapedJson.Proofs.Results

/-!
# What replies do to attempts

A reply either ends the run that meets it or fails the attempt it is a reply to.  It ends the
run with a checked value, with a cancellation, or in a wait without an end; it fails the attempt
when no text comes, when the text is no JSON, or when the value violates the shape.
-/

namespace ShapedJson

namespace Patience

/-- A wait without a limit, or with one above zero. -/
def Positive : Patience → Prop
  | .unlimited => True
  | .seconds (.whole n) => 0 < n
  | .seconds (.real (.finite negative mantissa _)) => negative = false ∧ 0 < mantissa
  | .seconds (.real (.infinity negative)) => negative = false
  | .seconds (.real .nan) => False

/-- A wait that can be measured: a binary fraction is near to it when it is a whole number. -/
def Measurable : Patience → Prop
  | .seconds (.whole n) => (Binary64.ofInt n).isFinite = true
  | _ => True

theorem Positive.onset_eq_asks {p : Patience} (h : p.Positive) (hm : p.Measurable) :
    p.onset = .asks := by
  unfold Positive at h
  unfold Measurable at hm
  split at h
  · rfl
  · rename_i n
    have hn : ¬ n ≤ 0 := by omega
    simp only [onset, hn, hm, if_false, if_true]
  · simp [onset, Binary64.isNonpositive, h.1, Nat.ne_of_gt h.2]
  · simp [onset, Binary64.isNonpositive, h]
  · exact h.elim

theorem Positive.onset_eq_immeasurable {p : Patience} (h : p.Positive) (hm : ¬ p.Measurable) :
    p.onset = .immeasurable := by
  unfold Positive at h
  unfold Measurable at hm
  split at hm
  · rename_i n
    have hpos : 0 < n := h
    have hn : ¬ n ≤ 0 := by omega
    simp only [onset, hn, hm, if_false]
    rfl
  · exact absurd trivial hm

end Patience

variable {rules : AttemptRules} {validator : Validator}

/-- The reply is a text whose value passes the check, and this is the checked value. -/
def Reply.Gives (rules : AttemptRules) (validator : Validator) (reply : Reply) (v : Json) : Prop :=
  ∃ raw decoded, reply = .text raw ∧ Answer.decode rules.stripFences raw = .ok decoded ∧
    validator.check decoded = .ok v

/-- The replies after which no attempt is made, and how the run ends with each. -/
inductive Reply.Ends (rules : AttemptRules) (validator : Validator) : Reply → Ending → Prop
  | value {reply : Reply} {v : Json} (gives : reply.Gives rules validator v) :
      Ends rules validator reply (.value v)
  | cancelled (reason : Text) : Ends rules validator (.cancelled reason) (.cancelled reason)
  | endless (waits : rules.patience.ends = false) : Ends rules validator .silent .endless

theorem Reply.ends_cancelled_iff {reply : Reply} {reason : Text} :
    reply.Ends rules validator (.cancelled reason) ↔ reply = .cancelled reason := by
  constructor
  · rintro ⟨⟩
    rfl
  · rintro rfl
    exact .cancelled reason

theorem Reply.ends_endless_iff {reply : Reply} :
    reply.Ends rules validator .endless ↔ reply = .silent ∧ rules.patience.ends = false := by
  constructor
  · rintro (_ | _ | waits)
    exact ⟨rfl, waits⟩
  · rintro ⟨rfl, waits⟩
    exact .endless waits

/-- A reply after which no attempt is made. -/
def Reply.Final (rules : AttemptRules) (validator : Validator) (reply : Reply) : Prop :=
  ∃ ending, reply.Ends rules validator ending

namespace Attempt

/-- An attempt to which no text came. -/
def unanswered (number : Nat) (reason : Text) : Attempt :=
  ⟨number, none, .error (.transport reason)⟩

/-- The attempt of a number that a reply fails.  It never holds a value; without a text its error
is a failed transport, and with one the error is about the text. -/
inductive FailedBy (rules : AttemptRules) (validator : Validator) (number : Nat) :
    Reply → Attempt → Prop
  | transport (reason : Text) :
      FailedBy rules validator number (.raised (.transport reason)) (unanswered number reason)
  | timeout (message : Text) :
      FailedBy rules validator number (.raised (.timeout message))
        (unanswered number rules.patience.expiry)
  | raised (name message : Text) :
      FailedBy rules validator number (.raised (.other name message))
        (unanswered number (name ++ text ": " ++ message))
  | silent (ends : rules.patience.ends = true) :
      FailedBy rules validator number .silent (unanswered number rules.patience.expiry)
  | undecodable {raw reason : Text}
      (decoded : Answer.decode rules.stripFences raw = .error reason) :
      FailedBy rules validator number (.text raw)
        ⟨number, some raw, .error (.undecodable raw reason)⟩
  | mismatch {raw : Text} {v : Json} {violations : List Violation}
      (decoded : Answer.decode rules.stripFences raw = .ok v)
      (checked : validator.check v = .error violations) :
      FailedBy rules validator number (.text raw)
        ⟨number, some raw, .error (.mismatch violations)⟩

theorem FailedBy.exists_error {number : Nat} {reply : Reply} {a : Attempt}
    (h : FailedBy rules validator number reply a) : ∃ e, a.result = .error e := by
  cases h <;> exact ⟨_, rfl⟩

end Attempt

/-- What is judged to be a value has been decoded and checked. -/
theorem Validator.judge_eq_ok_iff {stripFences : Bool} {raw : Text} {v : Json} :
    validator.judge stripFences raw = .ok v ↔
      ∃ decoded, Answer.decode stripFences raw = .ok decoded ∧ validator.check decoded = .ok v := by
  unfold Validator.judge
  cases Answer.decode stripFences raw with
  | error reason => simp
  | ok decoded => simp [Results.mapError_eq_ok_iff]

/-- A reply that is not final fails the attempt it is a reply to. -/
theorem Reply.exists_failedBy {reply : Reply} (h : ¬ reply.Final rules validator) (number : Nat) :
    ∃ a, Attempt.FailedBy rules validator number reply a := by
  cases reply with
  | text raw =>
      cases hd : Answer.decode rules.stripFences raw with
      | error reason => exact ⟨_, .undecodable hd⟩
      | ok v =>
          cases hc : validator.check v with
          | error violations => exact ⟨_, .mismatch hd hc⟩
          | ok r => exact absurd ⟨_, .value ⟨raw, v, rfl, hd, hc⟩⟩ h
  | raised e =>
      cases e with
      | transport reason => exact ⟨_, .transport reason⟩
      | timeout message => exact ⟨_, .timeout message⟩
      | other name message => exact ⟨_, .raised name message⟩
  | silent =>
      cases he : rules.patience.ends with
      | true => exact ⟨_, .silent he⟩
      | false => exact absurd ⟨_, .endless he⟩ h
  | cancelled reason => exact absurd ⟨_, .cancelled reason⟩ h

end ShapedJson
