import Mathlib.Data.Nat.Find
import ShapedJson.Proofs.Service.Answers

/-!
# Bodies that are not answered

When all replies come, two things keep a posted body from being answered.  The stack may have no
room for what the body asks: to read its description, to show a kind that is refused, to show the
shape, to build its types, or to write the description into the prompt.  Otherwise a surrogate may
stand in what has to be sent or in a name of the shape, and there are four such places.  Each of
these lets the request escape; in every other case the response is one of JSON in UTF-8.
-/

namespace ShapedJson

/-- What keeps a posted body from being answered when there is room on the stack, with the replies
from a position on. -/
inductive Service.Blocked (settings : Settings) (replies : Nat → Reply) (position : Nat)
    (body : Json) : Prop
  /-- A key on the way to a defect of the description. -/
  | path (e : Envelope) (error : DescriptionError) (key : Text) (opens : e.Opens body)
      (refused : Shape.ofDescription settings.maxShapeDepth e.description = .error error)
      (mem : key ∈ error.path) (surrogate : ¬ key.Encodable)
  /-- A name of the shape. -/
  | name (e : Envelope) (shape : Shape) (opens : e.Opens body)
      (described : Shape.ofDescription settings.maxShapeDepth e.description = .ok shape)
      (surrogate : ¬ shape.Encodable)
  /-- The value that is given. -/
  | value (e : Envelope) (shape : Shape) (k : Nat) (v : Json) (opens : e.Opens body)
      (described : Shape.ofDescription settings.maxShapeDepth e.description = .ok shape)
      (names : shape.Encodable) (retried : k ≤ settings.maxRetries.toNat)
      (before : ∀ i < k, (replies (position + i)).Fails settings.attemptRules ⟨shape⟩)
      (gives : (replies (position + k)).Gives settings.attemptRules ⟨shape⟩ v)
      (surrogate : ¬ v.Encodable)
  /-- What is told about the error that the last attempt met. -/
  | reason (e : Envelope) (shape : Shape) (error : Raised) (opens : e.Opens body)
      (described : Shape.ofDescription settings.maxShapeDepth e.description = .ok shape)
      (names : shape.Encodable)
      (fails : ∀ i ≤ settings.maxRetries.toNat,
        (replies (position + i)).Fails settings.attemptRules ⟨shape⟩)
      (raised : replies (position + settings.maxRetries.toNat) = .raised error)
      (surrogate : ¬ error.Encodable)

namespace Service

variable {stack : Stack} {settings : Settings} {replies : Nat → Reply} {request : Request}
  {body : Json} {e : Envelope} {shape : Shape} {tape : Tape (List Message)}

/-- A property has a first number up to a bound or none. -/
theorem exists_first_or_forall_not (p : Nat → Prop) (m : Nat) :
    (∃ k ≤ m, p k ∧ ∀ i < k, ¬ p i) ∨ ∀ i ≤ m, ¬ p i := by
  classical
  by_cases h : ∃ k, k ≤ m ∧ p k
  · -- what is before the least one fails for being within the bound too
    obtain ⟨hle, hp⟩ := Nat.find_spec h
    refine .inl ⟨Nat.find h, hle, hp, fun i hi hpi => ?_⟩
    exact Nat.find_min h hi ⟨by omega, hpi⟩
  · exact .inr fun i hi hp => h ⟨i, hi, hp⟩

/-- An outcome that can be sent, or not, by what stands in it. -/
theorem outcome_of_encodable {outcome : Except Escape Response} {status : Nat} {v : Json}
    (houtcome : outcome = Response.ofJson status v)
    (hstatus : status = 200 ∨ status = 400 ∨ status = 500) (hfinite : v.isFinite = true)
    (h : v.Encodable) : ∃ r, outcome = .ok r ∧ r.WellFormed :=
  ⟨_, houtcome.trans (Response.ofJson_of_encodable hfinite h),
    Response.wellFormed_holding hstatus hfinite h⟩

/-- Some reply up to a number is the first to give a value, or all of them fail their attempts. -/
theorem exists_gives_or_forall_fails (rules : AttemptRules) (validator : Validator)
    (harrives : ∀ i, (replies i).Arrives rules.patience) (position m : Nat) :
    (∃ k ≤ m, (∃ v, (replies (position + k)).Gives rules validator v) ∧
        ∀ i < k, (replies (position + i)).Fails rules validator) ∨
      ∀ i ≤ m, (replies (position + i)).Fails rules validator := by
  have hfails : ∀ i, (¬ ∃ v, (replies (position + i)).Gives rules validator v) →
      (replies (position + i)).Fails rules validator :=
    fun i hnone => ⟨harrives _, fun v hv => hnone ⟨v, hv⟩⟩
  rcases exists_first_or_forall_not
    (fun i => ∃ v, (replies (position + i)).Gives rules validator v) m with
    ⟨k, hk, hgives, hbefore⟩ | hnone
  · exact .inl ⟨k, hk, hgives, fun i hi => hfails i (hbefore i hi)⟩
  · exact .inr fun i hi => hfails i (hnone i hi)

/-- A body that nothing blocks is answered, when there is room for it. -/
theorem extract_of_not_blocked (hvalid : settings.Valid)
    (harrives : ∀ i, (replies i).Arrives settings.attemptTimeout)
    (hroom : ∀ e : Envelope, e.Opens body → ¬ e.Overflows stack settings)
    (h : ¬ Blocked settings replies tape.position body) :
    ∃ r, ((ofSequence stack settings replies).extract (.value body) tape).outcome = .ok r ∧
      r.WellFormed := by
  by_cases hopen : ∃ e : Envelope, e.Opens body
  · obtain ⟨e, hopens⟩ := hopen
    have hroom := hroom e hopens
    rw [extract_of_opens _ tape hopens]
    cases hshape : Shape.ofDescription settings.maxShapeDepth e.description with
    | error error =>
        obtain ⟨houtcome, -⟩ :=
          extractFrom_of_refused (ofSequence stack settings replies) tape hroom hshape
        have hpath : ∀ key ∈ error.path, key.Encodable := by
          intro key hkey
          by_contra hsurrogate
          exact h (.path e error key hopens hshape hkey hsurrogate)
        have hmessage : (error.toFailure settings.maxShapeDepth).message.Encodable :=
          DescriptionError.encodable_toFailure.2 hpath
        exact outcome_of_encodable houtcome (by simp) (Response.isFinite_report _ _)
          (Response.encodable_report.2 hmessage)
    | ok shape =>
        have hnames : shape.Encodable := by
          by_contra hsurrogate
          exact h (.name e shape hopens hshape hsurrogate)
        rcases exists_gives_or_forall_fails settings.attemptRules ⟨shape⟩ harrives tape.position
          settings.maxRetries.toNat with ⟨k, hk, ⟨v, hgives⟩, hbefore⟩ | hfails
        · obtain ⟨houtcome, -⟩ :=
            extractFrom_of_gives replies tape hvalid hroom hshape hnames hk hbefore hgives
          have hvalue : v.Encodable := by
            by_contra hsurrogate
            exact h (.value e shape k v hopens hshape hnames hk hbefore hgives hsurrogate)
          exact outcome_of_encodable houtcome (by simp) hgives.isFinite hvalue
        · -- every last error but one that the generator raised has a message of its own
          obtain ⟨a, last, hfailed, hlast, houtcome, -⟩ :=
            extractFrom_of_exhausted replies tape hvalid hroom hshape hnames rfl hfails
          have herror : ∀ error, replies (tape.position + settings.maxRetries.toNat) =
              .raised error → error.Encodable := by
            intro error hraised
            by_contra hsurrogate
            exact h (.reason e shape error hopens hshape hnames hfails hraised hsurrogate)
          have hmessage := (hfailed.encodable_message hnames hlast).2 herror
          exact outcome_of_encodable houtcome (by simp) (Response.isFinite_report _ _)
            (Response.encodable_report.2 (Failure.encodable_exhausted.2 hmessage))
  · obtain ⟨houtcome, -⟩ :=
      extract_of_not_opens (ofSequence stack settings replies) tape hopen
    have hmessage : (Failure.envelopeInvalid (Envelope.complaints body)).message.Encodable := by
      rw [← Envelope.map_message_errors_ofJson]
      exact Failure.encodable_envelopeInvalid _
    exact outcome_of_encodable houtcome (by simp) (Response.isFinite_report _ _)
      (Response.encodable_report.2 hmessage)

/-- A body that is blocked lets the request escape, when there is room for it. -/
theorem extract_of_blocked (hvalid : settings.Valid)
    (hroom : ∀ e : Envelope, e.Opens body → ¬ e.Overflows stack settings)
    (h : Blocked settings replies tape.position body) :
    ∃ fault,
      ((ofSequence stack settings replies).extract (.value body) tape).outcome =
          .error (.unencodableShape fault) ∨
        ((ofSequence stack settings replies).extract (.value body) tape).outcome =
          .error (.unencodableBody fault) := by
  cases h with
  | path e error key opens refused mem surrogate =>
      rw [extract_of_opens _ tape opens]
      obtain ⟨houtcome, -⟩ := extractFrom_of_refused (ofSequence stack settings replies) tape
        (hroom e opens) refused
      have hmessage : ¬ (error.toFailure settings.maxShapeDepth).message.Encodable :=
        fun hmessage => surrogate (DescriptionError.encodable_toFailure.1 hmessage key mem)
      obtain ⟨fault, hfault⟩ := Response.ofFailure_of_not_encodable hmessage
      exact ⟨fault, .inr (houtcome.trans hfault)⟩
  | name e shape opens described surrogate =>
      rw [extract_of_opens _ tape opens]
      obtain ⟨fault, hfault⟩ := extractFrom_of_not_encodable (ofSequence stack settings replies)
        tape (hroom e opens) described surrogate
      exact ⟨fault, .inl hfault⟩
  | value e shape k v opens described names retried before gives surrogate =>
      rw [extract_of_opens _ tape opens]
      obtain ⟨houtcome, -⟩ := extractFrom_of_gives replies tape hvalid (hroom e opens) described
        names retried before gives
      obtain ⟨fault, hfault⟩ := Response.ofJson_of_not_encodable gives.isFinite surrogate
      exact ⟨fault, .inr (houtcome.trans hfault)⟩
  | reason e shape error opens described names fails raised surrogate =>
      rw [extract_of_opens _ tape opens]
      obtain ⟨a, last, hfailed, hlast, houtcome, -⟩ := extractFrom_of_exhausted replies tape hvalid
        (hroom e opens) described names rfl fails
      have hmessage : ¬ (Failure.exhausted last.toFailure
          (settings.maxRetries.toNat + 1)).message.Encodable := by
        intro hmessage
        have hlastMessage := Failure.encodable_exhausted.1 hmessage
        exact surrogate ((hfailed.encodable_message names hlast).1 hlastMessage error raised)
      obtain ⟨fault, hfault⟩ := Response.ofFailure_of_not_encodable hmessage
      exact ⟨fault, .inr (houtcome.trans hfault)⟩

/-- A posted body for which the stack has no room lets the request escape.  With room, it is
answered with a response of JSON in UTF-8 when nothing blocks it, and otherwise the request escapes
by what the encoder of the shape or of the response cannot encode. -/
theorem answer_sent_unless_blocked (stack : Stack) (hvalid : settings.Valid)
    (hposts : request.Posts body) (harrives : ∀ i, (replies i).Arrives settings.attemptTimeout)
    (tape : Tape (List Message)) :
    let outcome := ((ofSequence stack settings replies).answer request tape).outcome
    (∀ e : Envelope, e.Opens body → e.Overflows stack settings →
        ∃ o, outcome = .error (.overflow o)) ∧
      ((∀ e : Envelope, e.Opens body → ¬ e.Overflows stack settings) →
        (¬ Blocked settings replies tape.position body →
            ∃ r, outcome = .ok r ∧ r.WellFormed) ∧
          (Blocked settings replies tape.position body → ∃ fault,
            outcome = .error (.unencodableShape fault) ∨
              outcome = .error (.unencodableBody fault))) := by
  intro outcome
  have hanswer : outcome =
      ((ofSequence stack settings replies).extract (.value body) tape).outcome :=
    congrArg Answered.outcome (answer_of_posts _ tape hposts)
  rw [hanswer]
  refine ⟨fun e hopens hoverflows => ?_, fun hroom =>
    ⟨extract_of_not_blocked hvalid harrives hroom, extract_of_blocked hvalid hroom⟩⟩
  obtain ⟨o, houtcome, -⟩ :=
    extractFrom_of_overflows (ofSequence stack settings replies) tape hoverflows
  rw [extract_of_opens _ tape hopens]
  exact ⟨o, houtcome⟩

/-- The first half of a surrogate pair, alone. -/
def loneSurrogate : Text := [⟨0xD800, by decide⟩]

theorem not_encodable_loneSurrogate : ¬ loneSurrogate.Encodable := by
  intro h
  have hc := h ⟨0xD800, by decide⟩ (by simp [loneSurrogate])
  simp [CodePoint.isSurrogate] at hc

/-- A body that is no envelope is answered.  One whose shape has a surrogate for a name is not, and
neither is one of objects in each other whose shape cannot be shown. -/
theorem answer_sent_unless_name_is_surrogate_or_nested :
    let settings := { Settings.standard with maxShapeDepth := 300 }
    let service := ofSequence .standard settings fun _ => .silent
    let body := Json.object [(text "data", .string (text "x")),
      (text "format", .object [(loneSurrogate, .string (text "string"))])]
    (∃ r, (service.answer (.posting (.object [])) .start).outcome = .ok r ∧ r.WellFormed) ∧
      (∃ fault,
        (service.answer (.posting body) .start).outcome = .error (.unencodableShape fault) ∨
          (service.answer (.posting body) .start).outcome = .error (.unencodableBody fault)) ∧
      ∃ o, (service.answer (.posting (Envelope.nestedBody 249)) .start).outcome =
        .error (.overflow o) := by
  intro settings service body
  have hvalid : settings.Valid :=
    ⟨Settings.valid_standard.retries, Settings.valid_standard.timeout⟩
  have harrives : ∀ i : Nat, ((fun _ => .silent : Nat → Reply) i).Arrives
      settings.attemptTimeout := fun _ => rfl
  have hempty : (Request.posting (.object [])).Posts (.object []) :=
    Request.posts_posting (by decide) (by simp [Json.Regular, Fields.names])
      (by simp [Json.FloatFree])
  have hposts : (Request.posting body).Posts body :=
    Request.posts_posting (by decide) (by simp [Json.Regular, Fields.names, text])
      (by simp [Json.FloatFree])
  have hnested := Request.posts_nestedBody (n := 249) (by decide)
  have hoverflows : (Envelope.nested 249).Overflows .standard settings :=
    .compiling (Shape.overflows_nest (n := 250) (by decide) (by decide) (by decide))
  -- without fields there is no envelope to begin with
  have hclosed : ∀ e : Envelope, ¬ e.Opens (.object []) := by
    rintro e ⟨fields, heq, hdata, -⟩
    cases heq
    cases hdata
  have hsent := answer_sent_unless_blocked .standard hvalid hempty harrives .start
  have hescapes := answer_sent_unless_blocked .standard hvalid hposts harrives .start
  have hfails := answer_sent_unless_blocked .standard hvalid hnested harrives .start
  refine ⟨(hsent.2 fun e hopens => absurd hopens (hclosed e)).1 ?_,
    (hescapes.2 fun e hopens => hopens.not_overflows_standard (by decide)).2 ?_,
    hfails.1 _ (Envelope.opens_nested 249) hoverflows⟩
  · rintro (⟨e, _, _, opens⟩ | ⟨e, _, opens⟩ | ⟨e, _, _, _, opens⟩ | ⟨e, _, _, opens⟩) <;>
      exact hclosed e opens
  · refine .name ⟨text "x", [(loneSurrogate, .string (text "string"))]⟩
      (.object [(loneSurrogate, .leaf .string)]) ⟨_, rfl, rfl, rfl⟩ rfl fun hencodable => ?_
    unfold Shape.Encodable at hencodable
    have hnames := (Shape.everyObject_object.1 hencodable).1
    exact not_encodable_loneSurrogate (hnames loneSurrogate (by simp [Fields.names]))

/-- A reply whose value has a surrogate is not answered with, although nothing is wrong with the
request. -/
theorem answer_escapes_of_surrogate_value :
    let v := Json.object [(text "a", .string loneSurrogate)]
    let settings := { Settings.standard with stripCodeFences := false }
    let body := Json.object [(text "data", .string (text "x")),
      (text "format", .object [(text "a", .string (text "string"))])]
    let replies : Nat → Reply := fun _ => .text (Response.bodyOf v)
    settings.Valid ∧ (Request.posting body).Posts body ∧ body.Encodable ∧
      ∃ fault, ((ofSequence .standard settings replies).answer (.posting body) .start).outcome =
        .error (.unencodableBody fault) := by
  intro v settings body replies
  have hvalid : settings.Valid :=
    ⟨Settings.valid_standard.retries, Settings.valid_standard.timeout⟩
  have hposts : (Request.posting body).Posts body :=
    Request.posts_posting (by decide) (by simp [Json.Regular, Fields.names, text])
      (by simp [Json.FloatFree])
  have hbody : body.Encodable := by simp [Json.encodable_object, Json.encodable_string, body]
  have hdecode : Answer.decode false (Response.bodyOf v) = .ok v :=
    Answer.decode_write (by decide) (by simp [Json.Regular, v, Fields.names])
      (by simp [Json.FloatFree, v])
  have hvalue : ¬ v.Encodable := by
    rw [Json.encodable_object]
    intro h
    have hstring := (h (text "a", .string loneSurrogate) (by simp)).2
    exact not_encodable_loneSurrogate (Json.encodable_string.1 hstring)
  have hshape : (Shape.object [(text "a", .leaf .string)]).Encodable := by
    unfold Shape.Encodable
    simp [Fields.names]
  have hgives : (Reply.text (Response.bodyOf v)).Gives settings.attemptRules
      ⟨.object [(text "a", .leaf .string)]⟩ v := ⟨_, v, rfl, hdecode, rfl⟩
  let e : Envelope := ⟨text "x", [(text "a", .string (text "string"))]⟩
  have hopens : e.Opens body := ⟨_, rfl, rfl, rfl⟩
  have hdescribed : Shape.ofDescription settings.maxShapeDepth e.description =
      .ok (.object [(text "a", .leaf .string)]) := rfl
  have hroom : ¬ e.Overflows .standard settings := hopens.not_overflows_standard (by decide)
  obtain ⟨houtcome, -⟩ := extractFrom_of_gives replies .start hvalid hroom hdescribed hshape
    (Nat.zero_le _) (fun i hi => absurd hi (Nat.not_lt_zero i)) hgives
  obtain ⟨fault, hfault⟩ := Response.ofJson_of_not_encodable hgives.isFinite hvalue
  refine ⟨hvalid, hposts, hbody, fault, ?_⟩
  rw [answer_of_posts _ _ hposts, extract_of_opens _ _ hopens]
  exact houtcome.trans hfault

end Service

end ShapedJson
