import ShapedJson.Json.Fault
import ShapedJson.Proofs.Text.Encodable

/-!
# The faults of the reader

The only text that a fault brings along is the name of a constant, and it is one of those that the
reader knows.  So the reason why a text cannot be read can always be encoded.
-/

namespace ShapedJson

/-- Whether a constant that a fault names is one of the reader's. -/
def Fault.Known : Fault → Prop
  | .constant name => ∃ v, (name, v) ∈ Json.constants
  | _ => True

namespace Json

/-- Whether the fault of a result, if there is one, is known. -/
def Known {α : Type} : Except Fault α → Prop
  | .ok _ => True
  | .error fault => fault.Known

variable {rules : ReadRules}

theorem Known.map {α β : Type} {r : Except Fault α} (h : Known r) (f : α → β) :
    Known (r.map f) := by
  cases r with
  | ok a => exact trivial
  | error fault => exact h

theorem Known.bind {α β : Type} {r : Except Fault α} (h : Known r) {f : α → Except Fault β}
    (hf : ∀ a, Known (f a)) : Known (r >>= f) := by
  cases r with
  | ok a => exact hf a
  | error fault => exact h

theorem known_readParts (start t : Text) : Known (readParts start t) := by
  induction hn : t.length using Nat.strongRecOn generalizing t with
  | _ n ih =>
      have hrec : ∀ tail : Text, tail.length < t.length → ∀ p : StringPart,
          Known ((readParts start tail).map fun q => (p :: q.1, q.2)) :=
        fun tail hlt p => (ih _ (hn ▸ hlt) tail rfl).map _
      rw [readParts.eq_def]
      split
      · exact trivial
      · split
        · exact trivial
        · split
          · split
            · exact trivial
            · split
              · split
                · split
                  · split
                    · exact trivial
                    · -- four digits of an escape are gone besides the backslash and the letter
                      exact hrec _ (by simp only [List.length_cons]; omega) _
                  · exact trivial
                · exact trivial
              · split
                · exact hrec _ (by simp only [List.length_cons]; omega) _
                · exact trivial
          · split
            · exact trivial
            · exact hrec _ (by simp only [List.length_cons]; omega) _

theorem known_readString (start t : Text) : Known (readString start t) :=
  (known_readParts start t).map _

theorem known_readScalar (t : Text) : Known (readScalar rules t) := by
  unfold readScalar
  split
  · exact trivial
  · split
    · rename_i name v rest hword
      split
      · exact trivial
      · obtain ⟨w, hw, hmap⟩ := List.exists_of_findSome?_eq_some hword
        simp only [Option.map_eq_some_iff, Prod.mk.injEq] at hmap
        obtain ⟨_, -, rfl, -, -⟩ := hmap
        exact ⟨w.2, hw⟩
    · unfold readNumber
      split
      · exact trivial
      · split <;> exact trivial

theorem known_continues {α : Type} {close : CodePoint} {a : α} {after : Text}
    {next : Text → Except Fault (List α × Text)} (hnext : ∀ t, Known (next t)) :
    Known (match Text.skipBlanks after with
      | [] => Except.error (.stopped .noComma [])
      | d :: tail =>
        if d = close then .ok ([a], tail)
        else if d = ',' then
          (next (Text.skipBlanks tail)).map fun (p : List α × Text) => (a :: p.1, p.2)
        else .error (.stopped .noComma (d :: tail))) := by
  split
  · exact trivial
  · split
    · exact trivial
    · split
      · exact (hnext _).map _
      · exact trivial

theorem known_contains {α : Type} (make : List α → Json) {close : CodePoint} {t : Text}
    {ended : Problem} {next : Text → Except Fault (List α × Text)} (hnext : ∀ t, Known (next t)) :
    Known (match Text.skipBlanks t with
      | [] => Except.error (.stopped ended [])
      | d :: tail =>
        if d = close then .ok (make [], tail)
        else (next (d :: tail)).map fun (p : List α × Text) => (make p.1, p.2)) := by
  split
  · exact trivial
  · split
    · exact trivial
    · exact (hnext _).map _

/-- Every fault of the reader is known, in whatever step it comes up. -/
theorem known_reads (rules : ReadRules) (fuel : Nat) :
    (∀ nesting t, Known (readValue rules fuel nesting t)) ∧
      (∀ nesting t, Known (readItems rules fuel nesting t)) ∧
      (∀ nesting t, Known (readFields rules fuel nesting t)) := by
  induction fuel with
  | zero => exact ⟨fun _ _ => trivial, fun _ _ => trivial, fun _ _ => trivial⟩
  | succ fuel ih =>
      obtain ⟨ihValue, ihItems, ihFields⟩ := ih
      refine ⟨fun nesting t => ?_, fun nesting t => ?_, fun nesting t => ?_⟩
      · cases t with
        | nil => exact trivial
        | cons c t =>
            rw [readValue.eq_def]
            simp only
            split
            · exact (known_readString _ _).map _
            · split
              · split
                · exact trivial
                · exact known_contains (fun fields => .object (Fields.distinct fields)) (ihFields _)
              · split
                · split
                  · exact trivial
                  · exact known_contains Json.array (ihItems _)
                · exact known_readScalar _
      · rw [readItems]
        exact (ihValue _ _).bind fun q => known_continues (ihItems _)
      · cases t with
        | nil => exact trivial
        | cons c t =>
            rw [readFields]
            split
            · refine (known_readString _ _).bind fun q => ?_
              show Known (match Text.skipBlanks q.2 with
                | [] => _
                | d :: rest => _)
              split
              · exact trivial
              · split
                · exact (ihValue _ _).bind fun q => known_continues (ihFields _)
                · exact trivial
            · exact trivial

theorem known_read (t : Text) : Known (read rules t) := by
  unfold read
  refine ((known_reads rules _).1 _ _).bind fun q => ?_
  show Known (match Text.skipBlanks q.2 with
    | [] => _
    | c :: rest => _)
  split <;> exact trivial

end Json

@[simp] theorem Problem.encodable_message (p : Problem) : p.message.Encodable := by
  cases p <;> exact Text.encodable_text _

@[simp] theorem Container.encodable_name (c : Container) : c.name.Encodable := by
  cases c <;> exact Text.encodable_text _

/-- The reason of a known fault can be encoded. -/
theorem Fault.Known.encodable_reason {fault : Fault} (h : fault.Known) (rules : ReadRules)
    (document : Text) : (fault.reason rules document).Encodable := by
  cases fault with
  | stopped problem rest => simp [reason]
  | constant name =>
      obtain ⟨v, hv⟩ := h
      simp only [Json.constants, List.mem_cons, Prod.mk.injEq, List.not_mem_nil, or_false] at hv
      rcases hv with ⟨rfl, -⟩ | ⟨rfl, -⟩ | ⟨rfl, -⟩ <;> simp [reason]
  | tooManyDigits count => simp [reason]
  | tooDeep container => simp [reason]

end ShapedJson
