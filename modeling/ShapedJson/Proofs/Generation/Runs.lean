import Mathlib.Algebra.Group.Int.Defs
import ShapedJson.Proofs.Generation.Replies

/-!
# Runs of the retry loop

A run asks the same question again and again.  It ends with the first reply that is final, when
one comes in time; otherwise every attempt fails, one for each retry and one more, and the run is
exhausted with the error of the last.  When the wait cannot be measured nothing is asked at all.
-/

namespace ShapedJson

/-- So many more questions, all of them this one. -/
def Tape.advanceBy {α : Type} (t : Tape α) (n : Nat) (question : α) : Tape α :=
  ⟨t.position + n, t.asked ++ List.replicate n question⟩

theorem Tape.advanceBy_zero {α : Type} (t : Tape α) (question : α) :
    t.advanceBy 0 question = t := by
  simp [advanceBy]

theorem Tape.advance_advanceBy {α : Type} (t : Tape α) (n : Nat) (question : α) :
    (t.advance question).advanceBy n question = t.advanceBy (n + 1) question := by
  simp only [advance, advanceBy, Tape.mk.injEq, List.replicate_succ, List.append_assoc,
    List.singleton_append, and_true]
  omega

theorem Tape.advanceBy_advance {α : Type} (t : Tape α) (n : Nat) (question : α) :
    (t.advanceBy n question).advance question = t.advanceBy (n + 1) question := by
  simp only [advance, advanceBy, List.replicate_succ', List.append_assoc, Nat.add_assoc]

theorem Tape.advanceBy_advanceBy {α : Type} (t : Tape α) (m n : Nat) (question : α) :
    (t.advanceBy m question).advanceBy n question = t.advanceBy (m + n) question := by
  simp only [advanceBy, List.append_assoc, List.replicate_append_replicate, Nat.add_assoc]

theorem Tape.position_advance_add {α : Type} (t : Tape α) (question : α) (i : Nat) :
    (t.advance question).position + i = t.position + (i + 1) := by
  show t.position + 1 + i = _
  omega

namespace Generator

/-! ## One attempt of a run -/

section

variable {σ : Type} {g : Generator σ} {rules : AttemptRules} {messages : List Message} {validator : Validator}
  {retries number : Nat} {state next : σ} {log : List LogRecord} {a : Attempt}

theorem attemptsFrom_of_cancelled {reason : Text}
    (h : g.attempt rules messages validator number state = (.cancelled reason, log, next)) :
    g.attemptsFrom rules messages validator retries number state =
      ⟨.cancelled reason, [], log, next⟩ := by
  rw [attemptsFrom, h]

theorem attemptsFrom_of_endless
    (h : g.attempt rules messages validator number state = (.endless, log, next)) :
    g.attemptsFrom rules messages validator retries number state = ⟨.endless, [], log, next⟩ := by
  rw [attemptsFrom, h]

theorem attemptsFrom_of_value {v : Json}
    (h : g.attempt rules messages validator number state = (.ended a, log, next))
    (hv : a.result = .ok v) :
    g.attemptsFrom rules messages validator retries number state =
      ⟨.value v, [a], log ++ [Attempt.succeeded number], next⟩ := by
  rw [attemptsFrom, h]
  simp only [hv]

theorem attemptsFrom_zero_of_error {e : AttemptError}
    (h : g.attempt rules messages validator number state = (.ended a, log, next))
    (he : a.result = .error e) :
    g.attemptsFrom rules messages validator 0 number state =
      ⟨.exhausted e, [a], log ++ [Attempt.gaveUp number e], next⟩ := by
  rw [attemptsFrom, h]
  simp only [he]

theorem attemptsFrom_succ_of_error {e : AttemptError}
    (h : g.attempt rules messages validator number state = (.ended a, log, next))
    (he : a.result = .error e) :
    g.attemptsFrom rules messages validator (retries + 1) number state =
      let rest := g.attemptsFrom rules messages validator retries (number + 1) next
      ⟨rest.ending, a :: rest.attempts, log ++ Attempt.retried number e (retries + 1) :: rest.log,
        rest.state⟩ := by
  rw [attemptsFrom, h]
  simp only [he]

end

/-! ## Runs on a sequence of replies -/

variable {replies : Nat → Reply} {rules : AttemptRules} (messages : List Message)
  {validator : Validator} (retries number : Nat) (tape : Tape (List Message))

theorem ask_ofSequence (hasks : rules.patience.onset = .asks) :
    (ofSequence replies).ask rules.patience messages tape =
      (.ofReply rules.patience (replies tape.position), [], tape.advance messages) := by
  simp only [ask, hasks, ofSequence]

/-- A final reply ends the run. -/
theorem attemptsFrom_of_ends (hasks : rules.patience.onset = .asks) {ending : Ending}
    (h : (replies tape.position).Ends rules validator ending) :
    ((ofSequence replies).attemptsFrom rules messages validator retries number tape).ending =
        ending ∧
      ((ofSequence replies).attemptsFrom rules messages validator retries number tape).state =
        tape.advance messages := by
  unfold attemptsFrom attempt
  rw [ask_ofSequence messages tape hasks]
  generalize replies tape.position = reply at h
  cases h with
  | value gives =>
      obtain ⟨raw, decoded, rfl, hd, hc⟩ := gives
      have hj : validator.judge rules.stripFences raw = .ok _ :=
        Validator.judge_eq_ok_iff.2 ⟨decoded, hd, hc⟩
      simp [Wait.ofReply, hj]
  | cancelled reason => simp [Wait.ofReply]
  | endless waits => simp [Wait.ofReply, waits]

/-- A reply that is not final fails an attempt. -/
theorem attempt_of_not_final (hasks : rules.patience.onset = .asks)
    (h : ¬ (replies tape.position).Final rules validator) :
    ∃ a log, Attempt.FailedBy rules validator number (replies tape.position) a ∧
      (ofSequence replies).attempt rules messages validator number tape =
        (.ended a, log, tape.advance messages) := by
  obtain ⟨a, ha⟩ := Reply.exists_failedBy h number
  refine ⟨a, ?_⟩
  unfold attempt
  rw [ask_ofSequence messages tape hasks]
  -- the log is the raw text when there is one, and nothing when no text came
  generalize replies tape.position = reply at ha
  cases ha with
  | transport reason => exact ⟨_, .transport reason, rfl⟩
  | timeout message => exact ⟨_, .timeout message, rfl⟩
  | raised name message => exact ⟨_, .raised name message, rfl⟩
  | silent ends =>
      refine ⟨[], .silent ends, ?_⟩
      simp [Wait.ofReply, ends, Attempt.unanswered]
  | @undecodable raw reason decoded =>
      refine ⟨[Attempt.received number raw], .undecodable decoded, ?_⟩
      simp [Wait.ofReply, Validator.judge, decoded]
  | @mismatch raw v violations decoded checked =>
      refine ⟨[Attempt.received number raw], .mismatch decoded checked, ?_⟩
      simp [Wait.ofReply, Validator.judge, decoded, checked]

/-- A failed attempt with no retry left ends the run with its error. -/
theorem attemptsFrom_zero_of_not_final (hasks : rules.patience.onset = .asks)
    (h : ¬ (replies tape.position).Final rules validator) :
    ∃ a e log, Attempt.FailedBy rules validator number (replies tape.position) a ∧
      a.result = .error e ∧
      (ofSequence replies).attemptsFrom rules messages validator 0 number tape =
        ⟨.exhausted e, [a], log, tape.advance messages⟩ := by
  obtain ⟨a, log, ha, hattempt⟩ := attempt_of_not_final messages number tape hasks h
  obtain ⟨e, he⟩ := ha.exists_error
  exact ⟨a, e, _, ha, he, attemptsFrom_zero_of_error hattempt he⟩

/-- A failed attempt with a retry left is followed by the attempts from the next number on. -/
theorem attemptsFrom_succ_of_not_final (hasks : rules.patience.onset = .asks)
    (h : ¬ (replies tape.position).Final rules validator) :
    ∃ a log, Attempt.FailedBy rules validator number (replies tape.position) a ∧
      let rest := (ofSequence replies).attemptsFrom rules messages validator retries (number + 1)
        (tape.advance messages)
      (ofSequence replies).attemptsFrom rules messages validator (retries + 1) number tape =
        ⟨rest.ending, a :: rest.attempts, log ++ rest.log, rest.state⟩ := by
  obtain ⟨a, log, ha, hattempt⟩ := attempt_of_not_final messages number tape hasks h
  obtain ⟨e, he⟩ := ha.exists_error
  refine ⟨a, log ++ [Attempt.retried number e (retries + 1)], ha, ?_⟩
  intro rest
  rw [attemptsFrom_succ_of_error hattempt he, List.append_assoc, List.singleton_append]

end Generator

/-- A run that all replies failed: one attempt for each retry and one more, numbered in order,
each failed by its reply, and the error of the last one at the end. -/
structure Run.ExhaustedBy {σ : Type} (rules : AttemptRules) (validator : Validator)
    (replies : Nat → Reply) (retries number : Nat) (run : Run σ) : Prop where
  length : run.attempts.length = retries + 1
  failed : ∀ i ≤ retries, ∃ a, run.attempts[i]? = some a ∧
    Attempt.FailedBy rules validator (number + i) (replies i) a
  last : ∃ a e, run.attempts[retries]? = some a ∧ a.result = .error e ∧ run.ending = .exhausted e

/-- A run that never asked: as many attempts, all without a text for the same reason. -/
structure Run.ExhaustedUnasked {σ : Type} (retries number : Nat) (reason : Text)
    (run : Run σ) : Prop where
  attempts : run.attempts =
    (List.range (retries + 1)).map fun i => Attempt.unanswered (number + i) reason
  ending : run.ending = .exhausted (.transport reason)

namespace Generator

variable {replies : Nat → Reply} {rules : AttemptRules} (messages : List Message)
  {validator : Validator} (retries number : Nat) (tape : Tape (List Message))

/-- The first final reply ends the run when a retry is left for it. -/
theorem attemptsFrom_ends_at (hasks : rules.patience.onset = .asks) {k : Nat} {ending : Ending}
    (hk : k ≤ retries) (hbefore : ∀ i < k, ¬ (replies (tape.position + i)).Final rules validator)
    (h : (replies (tape.position + k)).Ends rules validator ending) :
    ((ofSequence replies).attemptsFrom rules messages validator retries number tape).ending =
        ending ∧
      ((ofSequence replies).attemptsFrom rules messages validator retries number tape).state =
        tape.advanceBy (k + 1) messages := by
  -- a reply that is not final takes one retry and moves the tape on by one
  induction k generalizing retries number tape with
  | zero =>
      obtain ⟨hending, hstate⟩ := attemptsFrom_of_ends messages retries number tape hasks h
      refine ⟨hending, hstate.trans ?_⟩
      rw [← Tape.advance_advanceBy, Tape.advanceBy_zero]
  | succ k ih =>
      obtain ⟨retries, rfl⟩ : ∃ r, retries = r + 1 := ⟨retries - 1, by omega⟩
      obtain ⟨a, log, -, hrun⟩ := attemptsFrom_succ_of_not_final messages retries number tape hasks
        (hbefore 0 (by omega))
      have hshift := tape.position_advance_add messages
      obtain ⟨hending, hstate⟩ := ih retries (number + 1) (tape.advance messages) (by omega)
        (fun i hi => by rw [hshift]; exact hbefore (i + 1) (by omega)) (by rw [hshift]; exact h)
      rw [hrun]
      exact ⟨hending, hstate.trans (Tape.advance_advanceBy _ _ _)⟩

/-- Without a final reply the run is exhausted. -/
theorem attemptsFrom_exhausted (hasks : rules.patience.onset = .asks)
    (h : ∀ i ≤ retries, ¬ (replies (tape.position + i)).Final rules validator) :
    let run := (ofSequence replies).attemptsFrom rules messages validator retries number tape
    run.ExhaustedBy rules validator (fun i => replies (tape.position + i)) retries number ∧
      run.state = tape.advanceBy (retries + 1) messages := by
  induction retries generalizing number tape with
  | zero =>
      obtain ⟨a, e, log, ha, he, hrun⟩ := attemptsFrom_zero_of_not_final messages number tape hasks
        (h 0 (Nat.le_refl 0))
      intro run
      have hrun : run = ⟨.exhausted e, [a], log, tape.advance messages⟩ := hrun
      rw [hrun]
      refine ⟨⟨rfl, ?_, ⟨a, e, rfl, he, rfl⟩⟩, ?_⟩
      · intro i hi
        obtain rfl : i = 0 := by omega
        exact ⟨a, rfl, ha⟩
      · show tape.advance messages = _
        rw [← Tape.advance_advanceBy, Tape.advanceBy_zero]
  | succ retries ih =>
      obtain ⟨a, log, ha, hrun⟩ := attemptsFrom_succ_of_not_final messages retries number tape hasks
        (h 0 (by omega))
      have hshift := tape.position_advance_add messages
      obtain ⟨⟨hlength, hfailed, hlast⟩, hstate⟩ :=
        ih (number + 1) (tape.advance messages) fun i hi => by
          rw [hshift]
          exact h (i + 1) (by omega)
      intro run
      have hrun : run = _ := hrun
      rw [hrun]
      refine ⟨⟨?_, ?_, ?_⟩, hstate.trans (Tape.advance_advanceBy _ _ _)⟩
      · simp only [List.length_cons, hlength]
      · -- the first attempt is this one, the others are those of the rest
        intro i hi
        cases i with
        | zero => exact ⟨a, rfl, ha⟩
        | succ i =>
            obtain ⟨b, hb, hfail⟩ := hfailed i (by omega)
            rw [hshift, show number + 1 + i = number + (i + 1) by omega] at hfail
            exact ⟨b, by simpa using hb, hfail⟩
      · obtain ⟨b, e, hb, he, hending⟩ := hlast
        exact ⟨b, e, by simpa using hb, he, hending⟩

theorem attempt_unasked {σ : Type} (g : Generator σ) (h : rules.patience.onset = .immeasurable)
    (state : σ) :
    g.attempt rules messages validator number state =
      (.ended (Attempt.unanswered number
        (text "OverflowError: int too large to convert to float")), [], state) := by
  simp only [attempt, ask, h]
  rfl

/-- When the wait cannot be measured, every attempt fails and nothing is asked. -/
theorem attemptsFrom_unasked {σ : Type} (g : Generator σ)
    (h : rules.patience.onset = .immeasurable) (state : σ) :
    (g.attemptsFrom rules messages validator retries number state).ExhaustedUnasked retries number
        (text "OverflowError: int too large to convert to float") ∧
      (g.attemptsFrom rules messages validator retries number state).state = state := by
  induction retries generalizing number with
  | zero =>
      rw [attemptsFrom, attempt_unasked messages number g h]
      exact ⟨⟨rfl, rfl⟩, rfl⟩
  | succ retries ih =>
      obtain ⟨⟨hattempts, hending⟩, hstate⟩ := ih (number + 1)
      rw [attemptsFrom, attempt_unasked messages number g h]
      refine ⟨⟨?_, hending⟩, hstate⟩
      -- the numbers of the rest are those of a range moved up by one
      show Attempt.unanswered number _ :: _ = _
      rw [hattempts, List.range_succ_eq_map (n := retries + 1), List.map_cons, List.map_map]
      congr 1
      apply List.map_congr_left
      intro i _
      show Attempt.unanswered (number + 1 + i) _ = Attempt.unanswered (number + (i + 1)) _
      rw [show number + 1 + i = number + (i + 1) by omega]

/-- How every run ends, whatever the replies.  With a wait that can be measured, the run ends
with the first final reply when no more than the retries come before it, after one question
for each reply up to that one; otherwise it is exhausted after one question more than there are
retries.  All questions are the conversation of the prompt.  With a wait that cannot be measured
it is exhausted without a question. -/
theorem run?_ends_at_first_final (replies : Nat → Reply) (rules : AttemptRules)
    (wait : rules.patience.Positive) (prompt : Text) (validator : Validator) (retries : Nat)
    (tape : Tape (List Message)) :
    ∃ run, (ofSequence replies).run? rules prompt validator retries tape = some run ∧
      (rules.patience.Measurable →
        (∀ k ending, k ≤ retries →
          (∀ i < k, ¬ (replies (tape.position + i)).Final rules validator) →
          (replies (tape.position + k)).Ends rules validator ending →
          run.ending = ending ∧
            run.state = tape.advanceBy (k + 1) (Prompt.conversation prompt)) ∧
        ((∀ i ≤ retries, ¬ (replies (tape.position + i)).Final rules validator) →
          run.ExhaustedBy rules validator (fun i => replies (tape.position + i)) retries 1 ∧
            run.state = tape.advanceBy (retries + 1) (Prompt.conversation prompt))) ∧
      (¬ rules.patience.Measurable →
        run.ExhaustedUnasked retries 1
            (text "OverflowError: int too large to convert to float") ∧
          run.state = tape) := by
  refine ⟨_, rfl, ?_, ?_⟩
  · intro hm
    have hasks := wait.onset_eq_asks hm
    exact ⟨fun k ending hk hbefore h => attemptsFrom_ends_at _ _ _ tape hasks hk hbefore h,
      fun h => attemptsFrom_exhausted _ _ _ tape hasks h⟩
  · intro hm
    exact attemptsFrom_unasked _ _ _ _ (wait.onset_eq_immeasurable hm) tape

/-- After a timeout and a text that is no JSON the third reply gives a value, which is null. -/
theorem run?_ends_at_third_reply :
    ∃ run,
      (ofSequence (Tape.entries .silent
          [.silent, .text (text "\x7b"), .text (text "null"), .silent])).run?
        ⟨.seconds (.whole 1), true⟩ (text "p") ⟨.leaf .number⟩ 2 .start = some run ∧
      run.ending = .value .null ∧
      run.state = Tape.start.advanceBy 3 (Prompt.conversation (text "p")) := by
  obtain ⟨run, hrun, hmeasurable, -⟩ := run?_ends_at_first_final
    (Tape.entries .silent [.silent, .text (text "\x7b"), .text (text "null"), .silent])
    ⟨.seconds (.whole 1), true⟩ (show (0 : Int) < 1 by decide) (text "p") ⟨.leaf .number⟩ 2 .start
  have hone : (Patience.seconds (.whole 1)).Measurable := by
    show (Binary64.ofInt 1).isFinite = true
    decide +kernel
  refine ⟨run, hrun, (hmeasurable hone).1 2 _ (by decide) ?_ ?_⟩
  · intro i hi
    rintro ⟨ending, h⟩
    match i with
    | 0 => cases h with
      | value gives => obtain ⟨raw, decoded, hraw, -⟩ := gives; cases hraw
      | endless waits => cases waits
    | 1 => cases h with
      | value gives =>
          obtain ⟨raw, decoded, hraw, hd, -⟩ := gives
          cases hraw
          cases hd
    | n + 2 => omega
  · exact .value ⟨text "null", .null, rfl, rfl, rfl⟩

/-- A wait of a whole number beyond all binary fractions: the first reply is not asked for. -/
theorem run?_of_immeasurable {n : Int} (hpositive : 0 < n)
    (himmeasurable : ¬ (Binary64.ofInt n).isFinite = true) (replies : Nat → Reply)
    (prompt : Text) (validator : Validator) :
    ∃ run,
      (ofSequence replies).run? ⟨.seconds (.whole n), true⟩ prompt validator 0 .start =
        some run ∧
      run.ending =
        .exhausted (.transport (text "OverflowError: int too large to convert to float")) ∧
      run.state.position = 0 := by
  refine ⟨_, rfl, ?_⟩
  have honset : (AttemptRules.mk (.seconds (.whole n)) true).patience.onset = .immeasurable :=
    Patience.Positive.onset_eq_immeasurable (p := .seconds (.whole n)) hpositive himmeasurable
  obtain ⟨hexhausted, hstate⟩ := attemptsFrom_unasked (Prompt.conversation prompt) 0 1
    (ofSequence replies) honset .start
  exact ⟨hexhausted.ending, congrArg Tape.position hstate⟩

/-- A reply that gives a value is not asked for when the wait is positive but beyond all binary
fractions; and a wait without a limit has no end when no reply comes. -/
theorem run?_unasked_and_endless :
    ((Patience.seconds (.whole (10 ^ 200 * 10 ^ 200))).Positive ∧
      (Reply.text (text "null")).Gives ⟨.seconds (.whole (10 ^ 200 * 10 ^ 200)), true⟩
        ⟨.leaf .string⟩ .null ∧
      ∃ run,
        (ofSequence fun _ => .text (text "null")).run?
          ⟨.seconds (.whole (10 ^ 200 * 10 ^ 200)), true⟩ (text "p") ⟨.leaf .string⟩ 0 .start =
            some run ∧
        run.ending =
          .exhausted (.transport (text "OverflowError: int too large to convert to float")) ∧
        run.state.position = 0) ∧
    Patience.unlimited.Positive ∧
      ∃ run,
        (ofSequence fun _ => .silent).run? ⟨.unlimited, true⟩ (text "p") ⟨.leaf .string⟩ 0 .start =
          some run ∧
        run.ending = .endless ∧ run.state.position = 1 := by
  have hpositive : (0 : Int) < 10 ^ 200 * 10 ^ 200 := by decide +kernel
  have himmeasurable : ¬ (Binary64.ofInt (10 ^ 200 * 10 ^ 200)).isFinite = true := by
    decide +kernel
  refine ⟨⟨hpositive, ?_, ?_⟩, trivial, _, rfl, rfl, rfl⟩
  · exact ⟨_, .null, rfl, rfl, rfl⟩
  · exact run?_of_immeasurable hpositive himmeasurable _ _ _

end Generator

end ShapedJson
