import ShapedJson.Generation.Provider
import ShapedJson.Proofs.Generation.Simulation

/-!
# Runs with a provider

The adapter puts the class and the message of an error into a failed transport, as a wait does with
every other error.  So a run with a provider is a run with a generator that passes on what the
provider gives: the first content as it is, and errors as they are.
-/

namespace ShapedJson

/-- The same tape with its questions put in another form. -/
def Tape.map {α β : Type} (f : α → β) (t : Tape α) : Tape β := ⟨t.position, t.asked.map f⟩

theorem Tape.map_advance {α β : Type} (f : α → β) (t : Tape α) (question : α) :
    (t.advance question).map f = (t.map f).advance (f question) := by
  simp only [map, advance, List.map_append, List.map_cons, List.map_nil]

theorem Tape.map_advanceBy {α β : Type} (f : α → β) (t : Tape α) (n : Nat) (question : α) :
    (t.advanceBy n question).map f = (t.map f).advanceBy n (f question) := by
  simp only [map, advanceBy, List.map_append, List.map_replicate]

namespace ProviderReply

/-- The reply of a generator that passes on what the provider gives: the first content, which is
empty when it is absent, and errors as they are. -/
def plain : ProviderReply → Reply
  | .choices [] => .raised (.other (text "IndexError") (text "list index out of range"))
  | .choices (content :: _) => .text (content.getD [])
  | .raised e => .raised e
  | .silent => .silent
  | .cancelled reason => .cancelled reason

/-- An error of the provider is neither a failed transport nor the end of a wait. -/
def RaisesOther (reply : ProviderReply) : Prop :=
  ∀ e, reply = .raised e → ∃ name message, e = .other name message

end ProviderReply

namespace Adapter

variable {a : Adapter} {replies : Nat → ProviderReply}

/-- One who waits cannot tell the adapter from the generator that passes errors on. -/
theorem ofReply_reply {reply : ProviderReply} (h : reply.RaisesOther) (patience : Patience) :
    Wait.ofReply patience (a.reply reply).1 = .ofReply patience reply.plain := by
  cases reply with
  | choices contents => cases contents <;> rfl
  | raised e =>
      -- the adapter has put class and message together, the wait does the same
      obtain ⟨name, message, rfl⟩ := h e rfl
      rfl
  | silent => rfl
  | cancelled reason => rfl

/-- The adapter asks the provider where the other generator is asked, with the request for the
same conversation. -/
theorem simulates_plain (h : ∀ i, (replies i).RaisesOther) (patience : Patience)
    (messages : List Message) :
    Generator.Simulates (fun tape requests => requests = tape.map a.request) patience messages
      (.ofSequence fun i => (replies i).plain) (a.generator (.ofSequence replies)) := by
  rintro tape _ rfl
  unfold Generator.ask
  cases patience.onset with
  | asks => exact ⟨ofReply_reply (h tape.position) patience, (Tape.map_advance _ _ _).symm⟩
  | expired | immeasurable => exact ⟨rfl, rfl⟩

/-- A run with a provider ends as the run with the generator that passes on what the provider gives
does, with the same attempts and after as many questions.  Each request is the one for the
conversation of the prompt. -/
theorem run?_generator_as_plain (a : Adapter) (replies : Nat → ProviderReply)
    (h : ∀ i, (replies i).RaisesOther) (rules : AttemptRules) (prompt : Text)
    (validator : Validator) (retries : Nat) (tape : Tape (List Message)) :
    ∃ adapted plain calls,
      (a.generator (.ofSequence replies)).run? rules prompt validator retries
        (tape.map a.request) = some adapted ∧
      (Generator.ofSequence fun i => (replies i).plain).run? rules prompt validator retries tape =
        some plain ∧
      adapted.ending = plain.ending ∧
      adapted.attempts = plain.attempts ∧
      plain.state = tape.advanceBy calls (Prompt.conversation prompt) ∧
      adapted.state =
        (tape.map a.request).advanceBy calls (a.request (Prompt.conversation prompt)) := by
  obtain ⟨calls, hcalls⟩ := Generator.exists_state_eq_advanceBy (fun i => (replies i).plain) rules
    (Prompt.conversation prompt) validator retries 1 tape
  obtain ⟨hending, hattempts, hstate⟩ := @Generator.attemptsFrom_matches _ _ _ _ _ rules _
    validator (simulates_plain h rules.patience (Prompt.conversation prompt)) retries 1 0 tape _ rfl
  rw [Attempt.movedBy_zero, List.map_id] at hattempts
  refine ⟨_, _, calls, rfl, rfl, hending, hattempts, hcalls, hstate.trans ?_⟩
  rw [hcalls, Tape.map_advanceBy]

/-- A reply without choices, an error and an absent content fail three attempts before the wait of
the fourth is cancelled. -/
theorem run?_generator_as_plain_until_cancelled :
    let replies := Tape.entries .silent
      [.choices [], .raised (.other (text "KeyError") (text "'k'")), .choices [none],
        .cancelled (text "stop")]
    let a : Adapter := ⟨text "m", none, none, true⟩
    (∀ i, (replies i).RaisesOther) ∧
      ∃ adapted plain,
        (a.generator (.ofSequence replies)).run? ⟨.unlimited, true⟩ (text "p") ⟨.leaf .number⟩ 9
          (Tape.start.map a.request) = some adapted ∧
        (Generator.ofSequence fun i => (replies i).plain).run? ⟨.unlimited, true⟩ (text "p")
          ⟨.leaf .number⟩ 9 .start = some plain ∧
        plain.ending = .cancelled (text "stop") ∧
        adapted.ending = .cancelled (text "stop") ∧
        plain.attempts.length = 3 ∧
        adapted.attempts = plain.attempts ∧
        adapted.state.asked = List.replicate 4 (a.request (Prompt.conversation (text "p"))) := by
  intro replies a
  have hother : ∀ i, (replies i).RaisesOther := by
    rintro i e he
    match i with
    | 0 | 2 | 3 => cases he
    | 1 =>
        cases he
        exact ⟨_, _, rfl⟩
    | n + 4 => cases he
  obtain ⟨adapted, plain, calls, hadapted, hplain, hending, hattempts, hcalls, hrequests⟩ :=
    run?_generator_as_plain a replies hother ⟨.unlimited, true⟩ (text "p") ⟨.leaf .number⟩ 9 .start
  have hcancelled : plain.ending = .cancelled (text "stop") := by
    cases hplain
    rfl
  have hlength : plain.attempts.length = 3 := by
    cases hplain
    rfl
  have hposition : plain.state.position = 4 := by
    cases hplain
    rfl
  obtain rfl : calls = 4 := by
    have hasked : 0 + calls = 4 := by
      rw [← hposition, hcalls]
      rfl
    omega
  exact ⟨hother, adapted, plain, hadapted, hplain, hcancelled, hending.trans hcancelled, hlength,
    hattempts, congrArg Tape.asked hrequests⟩

end Adapter

end ShapedJson
