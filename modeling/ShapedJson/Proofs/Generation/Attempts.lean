import ShapedJson.Proofs.Generation.Replies

/-!
# How attempts come out

An attempt to which a text came ends with what the validator makes of the text, whatever the
generator is and whatever went before.  One that comes to no end is stopped by the reply to it.
-/

namespace ShapedJson

/-! ## Waits -/

namespace Wait

variable {patience : Patience} {reply : Reply}

theorem ofReply_eq_received_iff {raw : Text} :
    ofReply patience reply = .received raw ↔ reply = .text raw := by
  cases reply with
  | text t => simp [ofReply]
  | raised e => cases e <;> simp [ofReply]
  | silent =>
      simp only [ofReply, reduceCtorEq, iff_false]
      split <;> simp
  | cancelled reason => simp [ofReply]

theorem ofReply_eq_cancelled_iff {reason : Text} :
    ofReply patience reply = .cancelled reason ↔ reply = .cancelled reason := by
  cases reply with
  | text t => simp [ofReply]
  | raised e => cases e <;> simp [ofReply]
  | silent =>
      simp only [ofReply, reduceCtorEq, iff_false]
      split <;> simp
  | cancelled reason' => simp [ofReply]

theorem ofReply_eq_endless_iff :
    ofReply patience reply = .endless ↔ reply = .silent ∧ patience.ends = false := by
  cases reply with
  | text t => simp [ofReply]
  | raised e => cases e <;> simp [ofReply]
  | silent => simp [ofReply]
  | cancelled reason => simp [ofReply]

end Wait

/-- How a run ends with an attempt that comes to no end itself. -/
def Attempted.ending? : Attempted → Option Ending
  | .ended _ => none
  | .cancelled reason => some (.cancelled reason)
  | .endless => some .endless

/-- An ending tells which attempt it was that came to no end. -/
theorem Attempted.eq_of_ending? {out other : Attempted} {ending : Ending}
    (h : out.ending? = some ending) (hother : other.ending? = some ending) : out = other := by
  cases out <;> cases h <;> cases other <;> cases hother <;> rfl

/-! ## Attempts -/

namespace Generator

variable {σ : Type} (g : Generator σ) (rules : AttemptRules) (messages : List Message)
  (validator : Validator) (number : Nat) (state : σ)

/-- An attempt that comes to an end has judged the text that came, or no text came. -/
theorem attempt_eq_ended_iff {a : Attempt} {log : List LogRecord} {next : σ} :
    g.attempt rules messages validator number state = (.ended a, log, next) ↔
      (∃ raw before, g.ask rules.patience messages state = (.received raw, before, next) ∧
        a = ⟨number, some raw, validator.judge rules.stripFences raw⟩ ∧
        log = before ++ [Attempt.received number raw]) ∨
      ∃ reason, g.ask rules.patience messages state = (.failed reason, log, next) ∧
        a = ⟨number, none, .error (.transport reason)⟩ := by
  rw [attempt]
  rcases g.ask rules.patience messages state with ⟨wait, before, after⟩
  constructor
  · intro h
    cases wait with
    | received raw =>
        cases h
        exact .inl ⟨raw, before, rfl, rfl, rfl⟩
    | failed reason =>
        cases h
        exact .inr ⟨reason, rfl, rfl⟩
    | cancelled | endless => cases h
  · rintro (⟨raw, _, ⟨⟩, rfl, rfl⟩ | ⟨reason, ⟨⟩, rfl⟩) <;> rfl

/-- The result of an attempt is the judgement of its text. -/
theorem result_of_attempt {a : Attempt} {raw : Text}
    (h : (g.attempt rules messages validator number state).1 = .ended a) (hraw : a.raw = some raw) :
    a.result = validator.judge rules.stripFences raw := by
  obtain ⟨t, before, -, rfl, -⟩ | ⟨reason, -, rfl⟩ :=
    (g.attempt_eq_ended_iff rules messages validator number state).1 (Prod.ext h rfl)
  · cases hraw
    rfl
  · cases hraw

/-- An attempt whose reply is a text has that text. -/
theorem attempt_of_text {raw : Text} (hasks : rules.patience.onset = .asks)
    (h : (g.submit messages state).reply = .text raw) :
    (g.attempt rules messages validator number state).1 =
      .ended ⟨number, some raw, validator.judge rules.stripFences raw⟩ := by
  simp only [attempt, ask, hasks, h, Wait.ofReply]

variable {g rules messages validator number state} {log : List LogRecord} {next : σ}
  {out : Attempted}

theorem ask_eq_received_iff {raw : Text} :
    (g.ask rules.patience messages state).1 = .received raw ↔
      rules.patience.onset = .asks ∧ (g.submit messages state).reply = .text raw := by
  unfold ask
  split
  · simp_all
  · simp_all
  · simp_all [Wait.ofReply_eq_received_iff]

theorem number_of_attempt {a : Attempt}
    (h : g.attempt rules messages validator number state = (.ended a, log, next)) :
    a.number = number := by
  obtain ⟨raw, before, -, rfl, -⟩ | ⟨reason, -, rfl⟩ := (attempt_eq_ended_iff ..).1 h <;> rfl

/-- An attempt has the text that the generator replied, if it was asked and replied with one. -/
theorem raw_of_attempt {a : Attempt}
    (h : g.attempt rules messages validator number state = (.ended a, log, next)) (raw : Text) :
    a.raw = some raw ↔
      rules.patience.onset = .asks ∧ (g.submit messages state).reply = .text raw := by
  rw [← ask_eq_received_iff]
  obtain ⟨t, before, hask, rfl, -⟩ | ⟨reason, hask, rfl⟩ := (attempt_eq_ended_iff ..).1 h
  · simp [hask]
  · simp [hask]

theorem next_of_attempt (hasks : rules.patience.onset = .asks)
    (h : g.attempt rules messages validator number state = (out, log, next)) :
    next = (g.submit messages state).state := by
  unfold attempt ask at h
  simp only [hasks] at h
  split at h <;> cases h <;> rfl

/-- An attempt that comes to no end is stopped by the reply to it. -/
theorem ends_of_attempt {ending : Ending}
    (h : g.attempt rules messages validator number state = (out, log, next))
    (hstops : out.ending? = some ending) :
    rules.patience.onset = .asks ∧ (g.submit messages state).reply.Ends rules validator ending := by
  unfold attempt ask at h
  cases honset : rules.patience.onset with
  | expired | immeasurable =>
      rw [honset] at h
      cases h
      cases hstops
  | asks =>
      rw [honset] at h
      cases hwait : Wait.ofReply rules.patience (g.submit messages state).reply with
      | received | failed =>
          simp only [hwait] at h
          cases h
          cases hstops
      | cancelled reason =>
          simp only [hwait] at h
          cases h
          cases hstops
          exact ⟨rfl, Reply.ends_cancelled_iff.2 (Wait.ofReply_eq_cancelled_iff.1 hwait)⟩
      | endless =>
          simp only [hwait] at h
          cases h
          cases hstops
          exact ⟨rfl, Reply.ends_endless_iff.2 (Wait.ofReply_eq_endless_iff.1 hwait)⟩

end Generator

end ShapedJson
