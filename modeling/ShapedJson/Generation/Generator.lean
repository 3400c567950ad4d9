import ShapedJson.Generation.Raised
import ShapedJson.Log
import ShapedJson.Prompt

/-!
# Generators

A generator is asked with a conversation and replies with a text, an error, or
nothing at all; the caller may also be cancelled while it waits.  A generator
has a state of its own and may write log records.  A tape generator gives the
replies of a sequence in turn and keeps what it was asked.
-/

namespace ShapedJson

/-- What comes of asking a generator once. -/
inductive Reply where
  | text (t : Text)
  | raised (e : Raised)
  /-- No answer, however long the wait. -/
  | silent
  /-- The caller is cancelled while it waits. -/
  | cancelled (reason : Text)
  deriving DecidableEq, Repr

/-- A reply, the records written on the way, and the state after it. -/
structure Submission (σ : Type) where
  reply : Reply
  log : List LogRecord
  state : σ

/-- Something that replies to conversations. -/
structure Generator (σ : Type) where
  submit : List Message → σ → Submission σ

/-- How far a sequence is used up, and what was asked, the first question first. -/
structure Tape (α : Type) where
  position : Nat
  asked : List α
  deriving Repr

namespace Tape

variable {α : Type}

/-- Nothing used yet. -/
def start : Tape α := ⟨0, []⟩

/-- One more question. -/
def advance (t : Tape α) (question : α) : Tape α := ⟨t.position + 1, t.asked ++ [question]⟩

/-- The entries of a list in turn, the last one for ever. -/
def entries (otherwise : α) (list : List α) (n : Nat) : α :=
  match list[n]? with
  | some a => a
  | none => list.getLast?.getD otherwise

end Tape

/-- The generator that gives the replies of a sequence in turn. -/
def Generator.ofSequence (replies : Nat → Reply) : Generator (Tape (List Message)) :=
  ⟨fun messages tape => ⟨replies tape.position, [], tape.advance messages⟩⟩

end ShapedJson
