import ShapedJson.Proofs.Answer.Fences
import ShapedJson.Proofs.Generation.Attempts
import ShapedJson.Proofs.Generation.Runs

/-!
# Runs with fences stripped

Two runs that differ only in whether fences are stripped ask the same questions and get the same
replies as long as both go on.  A text that is accepted as it is, is accepted with the same value
when its fence is stripped, since JSON text is in no fence.  So the first success of a run can only
come earlier when fences are stripped, and a run that returned a value still returns one.
-/

namespace ShapedJson

/-- What is accepted as it is, is accepted with the same value when fences are stripped. -/
theorem Validator.judge_of_judge_false {validator : Validator} {raw : Text} {v : Json}
    (h : validator.judge false raw = .ok v) : validator.judge true raw = .ok v := by
  obtain ⟨decoded, hdecoded, hcheck⟩ := judge_eq_ok_iff.1 h
  exact judge_eq_ok_iff.2 ⟨decoded, Answer.decode_of_decode_false hdecoded true, hcheck⟩

/-- The first attempt that gave a value has this number, and it gave this value. -/
inductive Attempt.FirstSuccess : List Attempt → Nat → Json → Prop
  | here {a : Attempt} {v : Json} (given : a.result = .ok v) (rest : List Attempt) :
      FirstSuccess (a :: rest) a.number v
  | later {a : Attempt} {e : AttemptError} {rest : List Attempt} {number : Nat} {v : Json}
      (failed : a.result = .error e) (success : FirstSuccess rest number v) :
      FirstSuccess (a :: rest) number v

/-- The run returns the value that the first successful attempt gave, which has this number. -/
structure Run.SucceedsAt {σ : Type} (run : Run σ) (number : Nat) (v : Json) : Prop where
  ending : run.ending = .value v
  first : Attempt.FirstSuccess run.attempts number v

namespace Generator

variable {σ : Type} {g : Generator σ} {rules : AttemptRules} {patience : Patience}
  {messages : List Message} {validator : Validator} {retries number k : Nat} {state next : σ}
  {log : List LogRecord} {a : Attempt} {v : Json}

/-- An attempt comes to an end with and without the stripping of fences alike, and a value that it
gives without is given with it. -/
theorem attempt_of_attempt_false
    (h : g.attempt ⟨patience, false⟩ messages validator number state = (.ended a, log, next)) :
    ∃ b, g.attempt ⟨patience, true⟩ messages validator number state = (.ended b, log, next) ∧
      ∀ v, a.result = .ok v → b.result = .ok v := by
  obtain ⟨raw, before, hask, rfl, rfl⟩ | ⟨reason, hask, rfl⟩ := (attempt_eq_ended_iff ..).1 h
  · exact ⟨_, (attempt_eq_ended_iff ..).2 (.inl ⟨raw, before, hask, rfl, rfl⟩),
      fun v hv => Validator.judge_of_judge_false hv⟩
  · exact ⟨_, (attempt_eq_ended_iff ..).2 (.inr ⟨reason, hask, rfl⟩), fun v hv => hv⟩

/-- A run returns the value of its first attempt, or this one fails and the run after it returns
one. -/
theorem exists_attempt_of_value
    (h : (g.attemptsFrom rules messages validator retries number state).ending = .value v) :
    ∃ a log next, g.attempt rules messages validator number state = (.ended a, log, next) ∧
      (a.result = .ok v ∨
        ∃ e fewer, a.result = .error e ∧ retries = fewer + 1 ∧
          (g.attemptsFrom rules messages validator fewer (number + 1) next).ending = .value v) := by
  rcases hattempt : g.attempt rules messages validator number state with ⟨out, log, next⟩
  cases out with
  | cancelled reason =>
      rw [attemptsFrom_of_cancelled hattempt] at h
      cases h
  | endless =>
      rw [attemptsFrom_of_endless hattempt] at h
      cases h
  | ended a =>
      refine ⟨a, log, next, rfl, ?_⟩
      cases hresult : a.result with
      | ok w =>
          rw [attemptsFrom_of_value hattempt hresult] at h
          cases h
          exact .inl rfl
      | error e =>
          cases retries with
          | zero =>
              rw [attemptsFrom_zero_of_error hattempt hresult] at h
              cases h
          | succ fewer =>
              rw [attemptsFrom_succ_of_error hattempt hresult] at h
              exact .inr ⟨e, fewer, rfl, rfl, h⟩

/-- A run succeeds at its first attempt, or this one fails and the run after it succeeds. -/
theorem succeedsAt_iff :
    (g.attemptsFrom rules messages validator retries number state).SucceedsAt k v ↔
      ∃ a log next, g.attempt rules messages validator number state = (.ended a, log, next) ∧
        ((a.result = .ok v ∧ k = number) ∨
          ∃ e fewer, a.result = .error e ∧ retries = fewer + 1 ∧
            (g.attemptsFrom rules messages validator fewer (number + 1) next).SucceedsAt k v) := by
  constructor
  · rintro ⟨hending, hfirst⟩
    obtain ⟨a, log, next, hattempt, hresult | ⟨e, fewer, hresult, rfl, hrest⟩⟩ :=
      exists_attempt_of_value hending
    · rw [attemptsFrom_of_value hattempt hresult] at hfirst
      cases hfirst with
      | here => exact ⟨a, log, next, hattempt, .inl ⟨hresult, number_of_attempt hattempt⟩⟩
      | later failed => cases hresult.symm.trans failed
    · rw [attemptsFrom_succ_of_error hattempt hresult] at hfirst
      cases hfirst with
      | here given => cases hresult.symm.trans given
      | later failed success =>
          exact ⟨a, log, next, hattempt, .inr ⟨e, fewer, hresult, rfl, hrest, success⟩⟩
  · rintro ⟨a, log, next, hattempt, ⟨hresult, rfl⟩ | ⟨e, fewer, hresult, rfl, hending, hfirst⟩⟩
    · rw [attemptsFrom_of_value hattempt hresult, ← number_of_attempt hattempt]
      exact ⟨rfl, .here hresult []⟩
    · rw [attemptsFrom_succ_of_error hattempt hresult]
      exact ⟨hending, .later hresult hfirst⟩

/-- No attempt has a number below that of the first one. -/
theorem le_of_succeedsAt
    (h : (g.attemptsFrom rules messages validator retries number state).SucceedsAt k v) :
    number ≤ k := by
  induction retries using Nat.strongRecOn generalizing number state with
  | ind retries ih =>
      obtain ⟨a, log, next, -, ⟨-, rfl⟩ | ⟨e, fewer, -, rfl, hrest⟩⟩ := succeedsAt_iff.1 h
      · exact Nat.le_refl k
      · exact Nat.le_of_succ_le (ih fewer (Nat.lt_succ_self fewer) hrest)

/-- A run that returns a value succeeds at some attempt. -/
theorem exists_succeedsAt
    (h : (g.attemptsFrom rules messages validator retries number state).ending = .value v) :
    ∃ k, (g.attemptsFrom rules messages validator retries number state).SucceedsAt k v := by
  induction retries using Nat.strongRecOn generalizing number state with
  | ind retries ih =>
      obtain ⟨a, log, next, hattempt, hresult | ⟨e, fewer, hresult, rfl, hrest⟩⟩ :=
        exists_attempt_of_value h
      · exact ⟨number, succeedsAt_iff.2 ⟨a, log, next, hattempt, .inl ⟨hresult, rfl⟩⟩⟩
      · obtain ⟨k, hk⟩ := ih fewer (Nat.lt_succ_self fewer) hrest
        exact ⟨k, succeedsAt_iff.2 ⟨a, log, next, hattempt, .inr ⟨e, fewer, hresult, rfl, hk⟩⟩⟩

/-- The first success of a run comes no later when fences are stripped, and with the same value
when it does not come earlier. -/
theorem succeedsAt_of_succeedsAt_false
    (h : (g.attemptsFrom ⟨patience, false⟩ messages validator retries number state).SucceedsAt
      k v) :
    ∃ k' w, k' ≤ k ∧ (k' = k → w = v) ∧
      (g.attemptsFrom ⟨patience, true⟩ messages validator retries number state).SucceedsAt
        k' w := by
  induction retries using Nat.strongRecOn generalizing number state with
  | ind retries ih =>
      have hle := le_of_succeedsAt h
      obtain ⟨a, log, next, hattempt, hcases⟩ := succeedsAt_iff.1 h
      obtain ⟨b, hattempt', hkept⟩ := attempt_of_attempt_false hattempt
      cases hresult : b.result with
      | ok w =>
          -- stripping brings the value now, and it is the same if the value came now anyhow
          refine ⟨number, w, hle, ?_, succeedsAt_iff.2
            ⟨b, log, next, hattempt', .inl ⟨hresult, rfl⟩⟩⟩
          rintro rfl
          rcases hcases with ⟨hv, -⟩ | ⟨e, fewer, -, -, hrest⟩
          · cases hresult.symm.trans (hkept v hv)
            rfl
          · exact absurd (le_of_succeedsAt hrest) (Nat.not_succ_le_self number)
      | error e =>
          rcases hcases with ⟨hv, -⟩ | ⟨_, fewer, -, rfl, hrest⟩
          · cases hresult.symm.trans (hkept v hv)
          · obtain ⟨k', w, hk, hw, hsuccess⟩ := ih fewer (Nat.lt_succ_self fewer) hrest
            exact ⟨k', w, hk, hw, succeedsAt_iff.2
              ⟨b, log, next, hattempt', .inr ⟨e, fewer, hresult, rfl, hsuccess⟩⟩⟩

/-- Stripping fences never damages an answer.  What is decoded as it is, is decoded to the same
value when fences are stripped.  A run that succeeds without the stripping succeeds with it at the
same attempt or at an earlier one, in the first case with the same value; so it still returns a
value. -/
theorem run?_succeeds_no_later :
    (∀ (raw : Text) (v : Json), Answer.decode false raw = .ok v → Answer.decode true raw = .ok v) ∧
    ∀ {σ : Type} (g : Generator σ) (patience : Patience) (prompt : Text) (validator : Validator)
      (retries : Nat) (state : σ), ∃ plain stripping,
      g.run? ⟨patience, false⟩ prompt validator retries state = some plain ∧
      g.run? ⟨patience, true⟩ prompt validator retries state = some stripping ∧
      (∀ k v, plain.SucceedsAt k v →
        ∃ k' w, k' ≤ k ∧ (k' = k → w = v) ∧ stripping.SucceedsAt k' w) ∧
      ∀ v, plain.ending = .value v → ∃ k w, plain.SucceedsAt k v ∧ stripping.ending = .value w := by
  refine ⟨fun raw v h => Answer.decode_of_decode_false h true, ?_⟩
  intro σ g patience prompt validator retries state
  refine ⟨_, _, rfl, rfl, fun k v h => succeedsAt_of_succeedsAt_false h, fun v h => ?_⟩
  obtain ⟨k, hk⟩ := exists_succeedsAt h
  obtain ⟨k', w, -, -, hw⟩ := succeedsAt_of_succeedsAt_false hk
  exact ⟨k, w, hk, hw.ending⟩

/-- A fenced answer before a bare one: the run succeeds at the second attempt as it is, and at the
first when fences are stripped. -/
theorem run?_succeeds_no_later_at_fence :
    let fenced := text "```json\n[]\n```"
    let bare := text "null "
    let replies := Tape.entries .silent [.text fenced, .text bare]
    let validator : Validator := ⟨.array (.leaf .string)⟩
    Answer.decode true bare = .ok .null ∧
      ∃ plain stripping k w,
        (ofSequence replies).run? ⟨.unlimited, false⟩ (text "p") validator 1 .start = some plain ∧
        (ofSequence replies).run? ⟨.unlimited, true⟩ (text "p") validator 1 .start =
          some stripping ∧
        plain.SucceedsAt 2 .null ∧ stripping.SucceedsAt 1 (.array []) ∧
        k ≤ 2 ∧ stripping.SucceedsAt k w := by
  intro fenced bare replies validator
  obtain ⟨hdecode, hruns⟩ := run?_succeeds_no_later
  obtain ⟨plain, stripping, hplain, hstripping, hsuccess, -⟩ :=
    hruns (ofSequence replies) .unlimited (text "p") validator 1 .start
  have hfenced : validator.judge false fenced = .error (.undecodable fenced
      (text "Expecting value: line 1 column 1 (char 0)")) := by
    show Validator.judge ⟨.array (.leaf .string)⟩ false (text "```json\n[]\n```") = _
    decide +kernel
  have hstripped : validator.judge true fenced = .ok (.array []) := by
    show Validator.judge ⟨.array (.leaf .string)⟩ true (text "```json\n[]\n```") = _
    decide +kernel
  have hbare : Answer.decode false bare = .ok .null := by
    show Answer.decode false (text "null ") = _
    decide +kernel
  have hnull : validator.judge false bare = .ok .null :=
    Validator.judge_eq_ok_iff.2 ⟨.null, hbare, rfl⟩
  -- the texts have been judged and need not be looked into any more
  clear_value fenced bare
  have hsecond : plain.SucceedsAt 2 .null := by
    rw [← Option.some.inj hplain]
    exact succeedsAt_iff.2 ⟨⟨1, some fenced, validator.judge false fenced⟩, _, _, rfl,
      .inr ⟨_, 0, hfenced, rfl, succeedsAt_iff.2
        ⟨⟨2, some bare, validator.judge false bare⟩, _, _, rfl, .inl ⟨hnull, rfl⟩⟩⟩⟩
  have hfirst : stripping.SucceedsAt 1 (.array []) := by
    rw [← Option.some.inj hstripping]
    exact succeedsAt_iff.2 ⟨⟨1, some fenced, validator.judge true fenced⟩, _, _, rfl,
      .inl ⟨hstripped, rfl⟩⟩
  obtain ⟨k, w, hk, -, hw⟩ := hsuccess 2 .null hsecond
  exact ⟨hdecode _ _ hbare, plain, stripping, k, w, hplain, hstripping, hsecond, hfirst, hk, hw⟩

end Generator

end ShapedJson
