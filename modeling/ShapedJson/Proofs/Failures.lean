import ShapedJson.Proofs.Generation.Replies
import ShapedJson.Proofs.Json.Faults
import ShapedJson.Proofs.Shape.Validation
import ShapedJson.Proofs.Text.Inline
import ShapedJson.Service.Envelope

/-!
# The messages of failures

Which messages can be encoded.  Values and answers are quoted in them, so surrogates come in by
three ways only: by the path of a description, by the place of a violation, whose keys are those of
the shape, and by the reason of a failed call.
-/

namespace ShapedJson

namespace Text

theorem encodable_join {separator : Text} {parts : List Text} (hs : separator.Encodable)
    (h : ∀ p ∈ parts, p.Encodable) : (join separator parts).Encodable := by
  unfold join
  induction parts with
  | nil => simp [List.intercalate]
  | cons p rest ih =>
      have hp := h p (by simp)
      have hrest := ih fun q hq => h q (List.mem_cons_of_mem _ hq)
      cases rest with
      | nil => simpa [List.intercalate] using hp
      | cons q rest =>
          rw [List.intercalate_cons_cons, encodable_append, encodable_append]
          exact ⟨⟨hp, hs⟩, hrest⟩

theorem encodable_ofPath {keys : List Text} :
    (ofPath keys).Encodable ↔ ∀ key ∈ keys, key.Encodable := by
  simp [ofPath, encodable_flatMap]

theorem isSurrogate_of_isAlphanumeric {c : CodePoint} (h : c.isAlphanumeric = true) :
    c.isSurrogate = false ∧ c.upper.isSurrogate = false := by
  -- letters and digits are all below the surrogates, and a capital is below its small letter
  have hupper : c.upper.val ≤ c.val := by
    unfold CodePoint.upper
    split
    · show (c.val - 32) % 0x110000 ≤ c.val
      omega
    · exact Nat.le_refl _
  simp only [CodePoint.isAlphanumeric, CodePoint.isDigit, CodePoint.isLower, CodePoint.isUpper,
    Bool.or_eq_true, Bool.and_eq_true, decide_eq_true_eq] at h
  simp only [CodePoint.isSurrogate, Bool.and_eq_false_iff, decide_eq_false_iff_not]
  omega

/-- Words are made of letters and digits, whatever stands between them. -/
theorem isAlphanumeric_of_mem_wordsFrom {current t w : Text}
    (hcurrent : ∀ c ∈ current, c.isAlphanumeric = true) (hw : w ∈ wordsFrom current t) :
    ∀ c ∈ w, c.isAlphanumeric = true := by
  -- the word that is not over yet goes along with the rest of the text
  induction t generalizing current with
  | nil =>
      rw [wordsFrom] at hw
      split at hw
      · cases hw
      · rw [List.mem_singleton.1 hw]
        exact hcurrent
  | cons c t ih =>
      rw [wordsFrom] at hw
      split at hw
      · rename_i hc
        refine ih (fun d hd => ?_) hw
        rcases List.mem_append.1 hd with hd | hd
        · exact hcurrent d hd
        · rw [List.mem_singleton.1 hd]
          exact hc
      · split at hw
        · exact ih (by simp) hw
        · rcases List.mem_cons.1 hw with rfl | hw
          · exact hcurrent
          · exact ih (by simp) hw

theorem encodable_capitalized {w : Text} (h : ∀ c ∈ w, c.isAlphanumeric = true) :
    w.capitalized.Encodable := by
  cases w with
  | nil => exact encodable_nil
  | cons c w =>
      rw [capitalized, encodable_cons]
      exact ⟨(isSurrogate_of_isAlphanumeric (h c (by simp))).2, fun d hd =>
        (isSurrogate_of_isAlphanumeric (h d (List.mem_cons_of_mem _ hd))).1⟩

end Text

namespace Violation

/-- Whether no key on the way to the place holds a surrogate. -/
def Encodable (x : Violation) : Prop := ∀ step ∈ x.place, step.toText.Encodable

@[simp] theorem encodable_objectName (place : List Step) : (objectName place).Encodable := by
  unfold objectName
  rw [Text.encodable_append]
  refine ⟨Text.encodable_text _, ?_⟩
  rw [← List.flatMap_id, Text.encodable_flatMap]
  intro w hw
  obtain ⟨word, hword, rfl⟩ := List.mem_map.1 hw
  exact Text.encodable_capitalized (Text.isAlphanumeric_of_mem_wordsFrom (by simp) hword)

theorem Encodable.message {x : Violation} (h : x.Encodable) : x.message.Encodable := by
  have hbranch : ∀ key ∈ x.mismatch.branch, key.Encodable := by
    cases x.mismatch <;> simp [Mismatch.branch]
  have hexpectation : x.expectation.Encodable := by
    unfold expectation
    cases x.mismatch <;> simp
  have hpath : ∀ key ∈ x.place.map Step.toText ++ x.mismatch.branch, key.Encodable := by
    intro key hkey
    rcases List.mem_append.1 hkey with hkey | hkey
    · obtain ⟨step, hstep, rfl⟩ := List.mem_map.1 hkey
      exact h step hstep
    · exact hbranch key hkey
  unfold Violation.message
  simp [Text.encodable_ofPath.2 hpath, hexpectation]

theorem Encodable.under {x : Violation} (h : x.Encodable) {step : Step}
    (hstep : step.toText.Encodable) : (x.under step).Encodable := by
  intro s hs
  rcases List.mem_cons.1 hs with rfl | hs
  · exact hstep
  · exact h s hs

theorem errors_map {α β : Type} (f : α → β) (r : Gathered Violation α) :
    Gathered.errors (r.map f) = Gathered.errors r := by
  cases r <;> rfl

theorem errors_shift {α : Type} (step : Step) (r : Gathered Violation α) :
    Gathered.errors (shift step r) = (Gathered.errors r).map (Violation.under step) := by
  cases r <;> rfl

end Violation

namespace Shape

open Gathered

/-- What is wrong with a leaf is wrong at the leaf itself. -/
theorem place_of_mem_checkLeaf {kind : Leaf} {v : Json} {x : Violation}
    (h : x ∈ errors (checkLeaf kind v)) : x.place = [] := by
  have hhere : ∀ mismatches : List Mismatch,
      x ∈ mismatches.map (Violation.mk []) → x.place = [] := by
    intro mismatches hx
    obtain ⟨mismatch, -, rfl⟩ := List.mem_map.1 hx
    rfl
  unfold checkLeaf at h
  split at h
  · cases h
  · cases h
  · exact hhere [.notString] h
  · cases h
  · split at h
    · cases h
    · exact hhere [.notInteger, .notFinite] h
  · exact hhere [.notInteger, .notNumber] h
  · cases h
  · exact hhere [.notBoolean] h

theorem encodable_of_mem_checkEach {α : Type} {f : Json → Gathered Violation α} {index : Nat}
    {items : List Json} (h : ∀ v ∈ items, ∀ x ∈ errors (f v), x.Encodable) :
    ∀ x ∈ errors (checkEach f index items), x.Encodable := by
  induction items generalizing index with
  | nil => simp [checkEach, errors]
  | cons v rest ih =>
      intro x hx
      rw [checkEach, errors_apply, Violation.errors_map, Violation.errors_shift,
        List.mem_append] at hx
      rcases hx with hx | hx
      · obtain ⟨y, hy, rfl⟩ := List.mem_map.1 hx
        exact (h v (by simp) y hy).under (by simp [Step.toText])
      · exact ih (fun w hw => h w (List.mem_cons_of_mem _ hw)) x hx

theorem encodable_of_mem_checkFields {fields : List (Text × Shape)} {given : List (Text × Json)}
    (hnames : ∀ name ∈ Fields.names fields, name.Encodable)
    (h : ∀ f ∈ fields, ∀ v, ∀ x ∈ errors (f.2.check v), x.Encodable) :
    ∀ x ∈ errors (checkFields fields given), x.Encodable := by
  induction fields with
  | nil => simp [checkFields, errors]
  | cons f rest ih =>
      obtain ⟨k, s⟩ := f
      have hk : k.Encodable := hnames k (by simp [Fields.names])
      intro x hx
      rw [checkFields, errors_apply, Violation.errors_map, List.mem_append] at hx
      rcases hx with hx | hx
      · cases hv : given.lookup k with
        | none =>
            simp only [hv, errors, List.mem_singleton] at hx
            subst hx
            intro step hstep
            rw [List.mem_singleton.1 hstep]
            exact hk
        | some v =>
            simp only [hv, Violation.errors_shift] at hx
            obtain ⟨y, hy, rfl⟩ := List.mem_map.1 hx
            exact (h (k, s) (by simp) v y hy).under hk
      · refine ih (fun name hname => hnames name ?_)
          (fun g hg => h g (List.mem_cons_of_mem _ hg)) x hx
        exact List.mem_cons_of_mem _ hname

/-- The places of violations have the keys of the shape only. -/
theorem encodable_of_mem_check {s : Shape} (h : s.Encodable) :
    ∀ v, ∀ x ∈ errors (s.check v), x.Encodable := by
  unfold Encodable at h
  induction s with
  | leaf kind =>
      intro v x hx step hstep
      rw [place_of_mem_checkLeaf hx] at hstep
      cases hstep
  | array item ih =>
      intro v x hx
      rw [everyObject_array] at h
      cases v with
      | array items =>
          rw [check] at hx
          simp only [Violation.errors_map] at hx
          exact encodable_of_mem_checkEach (fun v _ => ih h v) x hx
      | _ => simp_all [check, errors, Violation.Encodable]
  | object fields ih =>
      intro v x hx
      rw [everyObject_object] at h
      cases v with
      | object given =>
          rw [check] at hx
          simp only [Violation.errors_map] at hx
          exact encodable_of_mem_checkFields h.1 (fun f hf => ih f hf (h.2 f hf)) x hx
      | _ => simp_all [check, errors, Violation.Encodable]

end Shape

/-! ## Failures -/

/-- The reason why an answer cannot be decoded can be encoded. -/
theorem Answer.encodable_of_decode_eq_error {stripFences : Bool} {raw reason : Text}
    (h : decode stripFences raw = .error reason) : reason.Encodable := by
  -- the refused mark is a fault of a place, like those of the reader
  have hknown : Json.Known (readUnmarked (body stripFences raw)) := by
    unfold readUnmarked
    split
    · exact Json.known_read _
    · split
      · exact trivial
      · exact Json.known_read _
  unfold decode at h
  cases hread : readUnmarked (body stripFences raw) with
  | ok v =>
      rw [hread] at h
      cases h
  | error fault =>
      rw [hread] at h hknown
      cases h
      exact Fault.Known.encodable_reason hknown _ _

namespace Failure

@[simp] theorem encodable_name (f : Failure) : f.name.Encodable := by
  cases f <;> exact Text.encodable_text _

theorem encodable_located {message path : Text} :
    (located message path).Encodable ↔ message.Encodable ∧ path.Encodable := by
  simp [located]

theorem encodable_envelopeInvalid (faults : List EnvelopeFault) :
    (Failure.envelopeInvalid (faults.map EnvelopeFault.message)).message.Encodable := by
  rw [message, Text.encodable_append]
  refine ⟨Text.encodable_text _, Text.encodable_join (Text.encodable_text _) fun t ht => ?_⟩
  obtain ⟨fault, -, rfl⟩ := List.mem_map.1 ht
  cases fault <;> exact Text.encodable_text _

theorem encodable_mismatch {errors : List Text} (h : ∀ e ∈ errors, e.Encodable) :
    (Failure.mismatch errors).message.Encodable := by
  have hjoin : (Text.join (text "; ") errors).Encodable :=
    Text.encodable_join (Text.encodable_text _) h
  match errors with
  | [e] => exact h e (by simp)
  | [] => simp [message, hjoin]
  | e :: e' :: rest => simp [message, hjoin]

theorem encodable_transport {reason : Text} :
    (Failure.transport reason).message.Encodable ↔ reason.Encodable := by
  simp [message]

theorem encodable_exhausted {last : Failure} {attempts : Nat} :
    (Failure.exhausted last attempts).message.Encodable ↔ last.message.Encodable := by
  rw [message]
  simp

end Failure

/-- The message about a defective description can be encoded when the keys on the way can. -/
theorem DescriptionError.encodable_toFailure {limit : Int} {e : DescriptionError} :
    (e.toFailure limit).message.Encodable ↔ ∀ key ∈ e.path, key.Encodable := by
  rw [← Text.encodable_ofPath, toFailure]
  cases e.defect <;> simp [Failure.message, Failure.encodable_located]

/-- Whether what is told about an error holds no surrogate.  The message of an expired wait is not
told. -/
def Raised.Encodable : Raised → Prop
  | .transport reason => reason.Encodable
  | .timeout _ => True
  | .other name message => name.Encodable ∧ message.Encodable

@[simp] theorem Patience.encodable_expiry (p : Patience) : p.expiry.Encodable := by
  have hinline : p.inline.Encodable := by
    cases p with
    | unlimited => exact Text.encodable_text _
    | seconds n =>
        exact Text.encodable_ofNumber .message (Text.encodable_text _)
          (Text.encodable_text _) n
  simp [expiry, hinline]

/-- The message about a failed attempt can be encoded unless the attempt met an error about which
something cannot. -/
theorem Attempt.FailedBy.encodable_message {rules : AttemptRules} {validator : Validator}
    (hshape : validator.shape.Encodable) {number : Nat} {reply : Reply} {a : Attempt}
    (h : FailedBy rules validator number reply a) {e : AttemptError} (he : a.result = .error e) :
    e.toFailure.message.Encodable ↔ ∀ error, reply = .raised error → error.Encodable := by
  cases h with
  | transport reason | raised name message | timeout message =>
      cases he
      simp [AttemptError.toFailure, Failure.encodable_transport, Raised.Encodable]
  | silent ends =>
      cases he
      simp [AttemptError.toFailure, Failure.encodable_transport]
  | undecodable decoded =>
      cases he
      have hreason := Answer.encodable_of_decode_eq_error decoded
      simp [AttemptError.toFailure, Failure.message, hreason]
  | @mismatch raw v violations decoded checked =>
      cases he
      have hmessages : ∀ t ∈ violations.map Violation.message, t.Encodable := by
        intro t ht
        obtain ⟨x, hx, rfl⟩ := List.mem_map.1 ht
        -- the validator checks as the shape does, so the keys on the way are those of the shape
        refine (Shape.encodable_of_mem_check hshape v x ?_).message
        rw [← Validator.check_eq, checked]
        exact hx
      simp [AttemptError.toFailure, Failure.encodable_mismatch hmessages]

end ShapedJson
