import ShapedJson.Generation.Provider
import ShapedJson.Proofs.Failures.Wording
import ShapedJson.Proofs.Generation.Standings

/-!
# Records of a run

The records of a run go attempt by attempt: the start of the text when one came, then a warning
when another attempt follows.  At the end stands one record of the value or of the exhaustion.  A
run that is cancelled or waits for ever has no such end, and nothing is recorded about the attempt
that it stopped in.  What carries this from attempt to attempt is that the number of an attempt and
the retries left are in balance.
-/

namespace ShapedJson

/-! ## What is recorded -/

/-- Whether a record is one of the loop. -/
def LogRecord.isOfLoop (r : LogRecord) : Bool := r.source = .generation

/-- Whether a record tells the end of a run. -/
def LogRecord.isTerminal (r : LogRecord) : Bool := r.level = .info || r.level = .error

/-- The records that the loop writes in a run. -/
def Run.records {σ : Type} (run : Run σ) : List LogRecord := run.log.filter LogRecord.isOfLoop

namespace LogRecord

/-- A text came: its first five hundred code points. -/
def textCame (number : Nat) (raw : Text) : LogRecord :=
  ⟨.debug, .generation,
    text "Attempt " ++ Text.ofNat number ++ text " raw output: " ++ raw.take 500⟩

/-- An attempt failed and another one follows: the class and the message of the error, and how many
retries are left. -/
def retryFollows (number : Nat) (e : AttemptError) (left : Nat) : LogRecord :=
  ⟨.warning, .generation,
    text "Attempt " ++ Text.ofNat number ++ text " failed (" ++ e.className ++ text ": " ++
      e.wording ++ text "); retrying, " ++ Text.ofNat left ++ text " retries left"⟩

/-- An attempt gave the value.  A question mark stands for the time that it took. -/
def valueGiven (number : Nat) : LogRecord :=
  ⟨.info, .generation,
    text "Generation succeeded on attempt " ++ Text.ofNat number ++ text " (?ms)"⟩

/-- So many attempts were made, and this is the error of the last one. -/
def attemptsExhausted (count : Nat) (e : AttemptError) : LogRecord :=
  ⟨.error, .generation,
    text "Generation exhausted after " ++ Text.ofNat count ++ text " attempts: " ++ e.wording⟩

end LogRecord

theorem Attempt.retried_eq (number : Nat) (e : AttemptError) (left : Nat) :
    retried number e left = .retryFollows number e left := by
  rw [retried, record, e.name_toFailure, e.message_toFailure]
  rfl

theorem Attempt.gaveUp_eq (number : Nat) (e : AttemptError) :
    gaveUp number e = .attemptsExhausted number e := by
  rw [gaveUp, record, e.message_toFailure]
  rfl

namespace Attempt

/-- The record of the text, when one came. -/
def opening (a : Attempt) : List LogRecord :=
  match a.raw with
  | some raw => [.textCame a.number raw]
  | none => []

/-- The record that another attempt follows, when this one failed and is not the last of so many
retries. -/
def continuation (retries : Nat) (a : Attempt) : List LogRecord :=
  match a.result with
  | .ok _ => []
  | .error e =>
    if a.number ≤ retries then [.retryFollows a.number e (retries + 1 - a.number)] else []

/-- The records about an attempt in a run with so many retries. -/
def records (retries : Nat) (a : Attempt) : List LogRecord := a.opening ++ a.continuation retries

variable {retries : Nat} {a : Attempt}

theorem records_of_value {v : Json} (h : a.result = .ok v) : a.records retries = a.opening := by
  simp [records, continuation, h]

theorem records_of_last {e : AttemptError} (h : a.result = .error e)
    (hlast : a.number = retries + 1) : a.records retries = a.opening := by
  simp [records, continuation, h, hlast]

theorem records_of_retried {e : AttemptError} {left : Nat} (h : a.result = .error e)
    (hleft : a.number + (left + 1) = retries + 1) :
    a.records retries = a.opening ++ [.retryFollows a.number e (left + 1)] := by
  have hle : a.number ≤ retries := by omega
  have hsub : retries + 1 - a.number = left + 1 := by omega
  simp [records, continuation, h, hle, hsub]

/-- No record about an attempt tells the end of the run. -/
theorem isTerminal_of_mem_records {r : LogRecord} (h : r ∈ a.records retries) :
    r.isTerminal = false := by
  rcases List.mem_append.1 h with h | h
  · unfold opening at h
    split at h
    · obtain rfl := List.mem_singleton.1 h
      rfl
    · cases h
  · unfold continuation at h
    split at h
    · cases h
    · split at h
      · obtain rfl := List.mem_singleton.1 h
        rfl
      · cases h

end Attempt

/-- The record at the end of a run with so many retries, if there is one. -/
inductive Run.Closes {σ : Type} (retries : Nat) (run : Run σ) : List LogRecord → Prop
  /-- The last attempt gave the value. -/
  | value (before : List Attempt) {a : Attempt} {v : Json} (ending : run.ending = .value v)
      (attempts : run.attempts = before ++ [a]) (given : a.result = .ok v) :
      Closes retries run [.valueGiven a.number]
  /-- The last attempt failed and no retry is left. -/
  | exhausted (before : List Attempt) {a : Attempt} {e : AttemptError}
      (ending : run.ending = .exhausted e) (attempts : run.attempts = before ++ [a])
      (number : a.number = retries + 1) (failed : a.result = .error e) :
      Closes retries run [.attemptsExhausted (retries + 1) e]
  | cancelled {reason : Text} (ending : run.ending = .cancelled reason) : Closes retries run []
  | endless (ending : run.ending = .endless) : Closes retries run []

theorem Run.Closes.filter_isTerminal {σ : Type} {retries : Nat} {run : Run σ}
    {closing : List LogRecord} (h : run.Closes retries closing) :
    closing.filter LogRecord.isTerminal = closing := by
  cases h <;> rfl

/-- The record at the end is the only one that tells the end. -/
theorem Run.Closes.filter_records {σ : Type} {retries : Nat} {run : Run σ}
    {closing : List LogRecord} (h : run.Closes retries closing)
    (hrecords : run.records = run.attempts.flatMap (Attempt.records retries) ++ closing) :
    run.records.filter LogRecord.isTerminal = closing := by
  rw [hrecords, List.filter_append, h.filter_isTerminal, List.append_left_eq_self,
    List.filter_eq_nil_iff]
  intro r hr
  obtain ⟨a, -, hr⟩ := List.mem_flatMap.1 hr
  simp [Attempt.isTerminal_of_mem_records hr]

namespace Generator

variable {σ : Type}

/-- The generator writes no record in the name of the loop. -/
def Quiet (g : Generator σ) : Prop :=
  ∀ messages state, ∀ r ∈ (g.submit messages state).log, r.isOfLoop = false

/-- A generator that asks a provider writes in a name of its own. -/
theorem quiet_adapter (adapter : Adapter) (p : Provider σ) : (adapter.generator p).Quiet := by
  intro messages state r hr
  have hlog : r ∈ (adapter.reply (p.complete (adapter.request messages) state).1).2 := hr
  cases hreply : (p.complete (adapter.request messages) state).1 with
  | choices contents => cases contents <;> simp [hreply, Adapter.reply] at hlog
  | raised e =>
      obtain rfl : r = adapter.failed e := by simpa [hreply, Adapter.reply] using hlog
      rfl
  | silent | cancelled => simp [hreply, Adapter.reply] at hlog

theorem quiet_ofSequence (replies : Nat → Reply) : (ofSequence replies).Quiet := nofun

variable {g : Generator σ} {rules : AttemptRules} {messages : List Message}
  {validator : Validator} {number : Nat} {state next : σ} {log : List LogRecord} {out : Attempted}

/-- The loop records nothing about an attempt but the text that came. -/
theorem filter_log_of_attempt (quiet : g.Quiet)
    (h : g.attempt rules messages validator number state = (out, log, next)) :
    log.filter LogRecord.isOfLoop =
      match out with
      | .ended a => a.opening
      | .cancelled _ | .endless => [] := by
  have hask : (g.ask rules.patience messages state).2.1.filter LogRecord.isOfLoop = [] := by
    unfold ask
    split
    · rfl
    · rfl
    · exact List.filter_eq_nil_iff.2 fun r hr => by simp [quiet messages state r hr]
  unfold attempt at h
  rcases hwait : g.ask rules.patience messages state with ⟨wait, before, after⟩
  rw [hwait] at h hask
  cases wait with
  | received raw =>
      cases h
      simp only [List.filter_append, hask]
      rfl
  | failed | cancelled | endless =>
      cases h
      exact hask

end Generator

/-! ## The records of a run -/

/-- A record at the end stays there when an attempt is put before all others. -/
theorem Run.Closes.cons {σ : Type} {retries : Nat} {run : Run σ} {closing : List LogRecord}
    (h : run.Closes retries closing) (a : Attempt) (log : List LogRecord) :
    Run.Closes retries ⟨run.ending, a :: run.attempts, log, run.state⟩ closing := by
  cases h with
  | value before ending attempts given =>
      exact .value (a :: before) ending (congrArg (a :: ·) attempts) given
  | exhausted before ending attempts number failed =>
      exact .exhausted (a :: before) ending (congrArg (a :: ·) attempts) number failed
  | cancelled ending => exact .cancelled ending
  | endless ending => exact .endless ending

namespace Generator

variable {σ : Type} {g : Generator σ} {rules : AttemptRules} {messages : List Message}
  {validator : Validator} {retries left number : Nat} {state : σ}

/-- When the number of the next attempt and the retries left are in balance, the records are those
about each attempt in turn and the one at the end. -/
theorem records_attemptsFrom (quiet : g.Quiet) (balance : number + left = retries + 1) :
    let run := g.attemptsFrom rules messages validator left number state
    ∃ closing, run.Closes retries closing ∧
      run.records = run.attempts.flatMap (Attempt.records retries) ++ closing := by
  induction left using Nat.strongRecOn generalizing number state with
  | ind left ih =>
      intro run
      rcases hattempt : g.attempt rules messages validator number state with ⟨out, log, next⟩
      have hlog := filter_log_of_attempt quiet hattempt
      cases out with
      | cancelled reason =>
          have hrun : run = _ := attemptsFrom_of_cancelled hattempt
          rw [hrun]
          exact ⟨[], .cancelled rfl, hlog⟩
      | endless =>
          have hrun : run = _ := attemptsFrom_of_endless hattempt
          rw [hrun]
          exact ⟨[], .endless rfl, hlog⟩
      | ended a =>
          obtain rfl : a.number = number := number_of_attempt hattempt
          have hlog : log.filter LogRecord.isOfLoop = a.opening := hlog
          cases hresult : a.result with
          | ok v =>
              have hrun : run = _ := attemptsFrom_of_value hattempt hresult
              rw [hrun]
              refine ⟨_, .value [] rfl rfl hresult, ?_⟩
              show (log ++ _).filter _ = [a].flatMap _ ++ _
              rw [List.filter_append, hlog, List.flatMap_singleton,
                Attempt.records_of_value hresult]
              rfl
          | error e =>
              cases left with
              | zero =>
                  -- this attempt has the last number there is, so no other follows it
                  have hrun : run = _ := attemptsFrom_zero_of_error hattempt hresult
                  have hlast : a.number = retries + 1 := balance
                  rw [hrun]
                  refine ⟨_, .exhausted [] rfl rfl hlast hresult, ?_⟩
                  show (log ++ _).filter _ = [a].flatMap _ ++ _
                  rw [List.filter_append, hlog, List.flatMap_singleton,
                    Attempt.records_of_last hresult hlast, ← hlast, Attempt.gaveUp_eq]
                  rfl
              | succ left =>
                  have hrun : run = _ := attemptsFrom_succ_of_error hattempt hresult
                  obtain ⟨closing, hcloses, hrest⟩ :=
                    @ih left (Nat.lt_succ_self left) (a.number + 1) next (by omega)
                  rw [hrun]
                  refine ⟨closing, hcloses.cons a _, ?_⟩
                  show (log ++ _ :: _).filter _ = (a :: _).flatMap _ ++ closing
                  rw [List.append_cons, List.filter_append, List.filter_append, hlog,
                    List.flatMap_cons, Attempt.records_of_retried hresult balance,
                    List.append_assoc _ _ closing, ← hrest, Attempt.retried_eq]
                  rfl

/-- The records of a run and the attempts that they are about.  Wherever the run stands before an
attempt, the number of it and the retries left make up the retries and one more; the run goes on
from there, and all attempts are made from there.  The attempts that came to an end are numbered in
order, and each has the text that the generator replied to it.  A run that is stopped is stopped by
the reply to the attempt after them.  The loop has recorded each of these attempts and the end
after them, and nothing else. -/
theorem run?_records_attempts_and_end (quiet : g.Quiet) (rules : AttemptRules) (prompt : Text)
    (validator : Validator) (retries : Nat) (state : σ) :
    let messages := Prompt.conversation prompt
    ∃ run, g.run? rules prompt validator retries state = some run ∧
      (∀ failures left s, g.Reaches rules messages validator retries state failures left s →
        failures + 1 + left = retries + 1 ∧
          run.Resumes failures (g.attemptsFrom rules messages validator left (failures + 1) s)) ∧
      (∀ i out, run.ComesOut i out → ∃ left s log next,
        g.Reaches rules messages validator retries state i left s ∧
          g.attempt rules messages validator (i + 1) s = (out, log, next)) ∧
      (∀ i a, run.attempts[i]? = some a → a.number = i + 1 ∧
        ∀ raw, a.raw = some raw ↔
          rules.patience.onset = .asks ∧ g.outcome messages state i = .text raw) ∧
      (∀ out : Attempted, out.ending? = some run.ending →
        (g.outcome messages state run.attempts.length).Ends rules validator run.ending) ∧
      ∃ closing, run.Closes retries closing ∧
        run.records = run.attempts.flatMap (Attempt.records retries) ++ closing ∧
        run.records.filter LogRecord.isTerminal = closing := by
  intro messages
  obtain ⟨closing, hcloses, hrecords⟩ := @records_attemptsFrom σ g rules messages validator retries
    retries 1 state quiet (Nat.add_comm 1 retries)
  refine ⟨_, rfl, fun failures left s h => ⟨h.balance, h.resumes⟩, ?_, ?_, ?_, closing, hcloses,
    hrecords, hcloses.filter_records hrecords⟩
  · intro i out hout
    exact exists_reaches_of_comesOut hout
  · intro i a ha
    exact raw_of_getElem?_attempts ha
  · intro out hstops
    exact ends_of_stopped rfl hstops

/-- An error and then a number where a text is asked for, with one retry: the first attempt is
followed by another, and the second is the end. -/
theorem run?_records_until_exhausted :
    let replies := Tape.entries .silent
      [.raised (.other (text "ValueError") (text "no")), .text (text "1")]
    (ofSequence replies).Quiet ∧ ∃ run closing,
      (ofSequence replies).run? ⟨.unlimited, false⟩ (text "p") ⟨.leaf .string⟩ 1 .start =
        some run ∧
      (∀ i a, run.attempts[i]? = some a → ∀ raw, a.raw = some raw ↔ replies i = .text raw) ∧
      run.Closes 1 closing ∧
      run.records = run.attempts.flatMap (Attempt.records 1) ++ closing ∧
      run.records =
        [.retryFollows 1 (.transport (text "ValueError: no")) 1, .textCame 2 (text "1"),
          .attemptsExhausted 2 (.mismatch [⟨[], .notString⟩])] := by
  intro replies
  obtain ⟨run, hrun, -, -, htexts, -, closing, hcloses, hrecords, -⟩ :=
    run?_records_attempts_and_end (quiet_ofSequence replies) ⟨.unlimited, false⟩ (text "p")
      ⟨.leaf .string⟩ 1 .start
  refine ⟨quiet_ofSequence replies, run, closing, hrun, ?_, hcloses, hrecords, ?_⟩
  · intro i a ha raw
    rw [(htexts i a ha).2 raw, outcome_ofSequence]
    show _ ∧ replies (0 + i) = _ ↔ _
    rw [Nat.zero_add]
    exact and_iff_right rfl
  · rw [← Option.some.inj hrun]
    rfl

end Generator

end ShapedJson
