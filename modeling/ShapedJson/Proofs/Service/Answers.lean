import ShapedJson.Proofs.Failures.Wording
import ShapedJson.Proofs.Generation.Values
import ShapedJson.Proofs.Service.Extraction

/-!
# Answers to posted bodies

The body, the settings and the replies determine the answer, and how often the generator is asked
for it.  No answer is sent when the stack has no room for what the body asks, when a wait without an
end goes on, or when a surrogate stands in what has to be sent; here the stack has room and
surrogates are nowhere.  The responses are spelled out.
-/

namespace ShapedJson

/-! ## What is posted -/

/-- The body of a request holds a value exactly when its type is JSON and its octets are a document
of the grammar. -/
theorem Request.payload_eq_value_iff {r : Request} {v : Json} :
    r.payload = .ok (.value v) ↔ r.contentType.any isJsonType = true ∧
      ∃ t, Text.ofDocument? r.octets = some t ∧ Json.read rules t = .ok v := by
  have hdocument : readDocument r.octets = .ok v ↔
      ∃ t, Text.ofDocument? r.octets = some t ∧ Json.read rules t = .ok v := by
    unfold readDocument
    cases Text.ofDocument? r.octets with
    | none => simp
    | some t => simp [Results.mapError_eq_ok_iff]
  have hempty : ¬ (r.octets.isEmpty = true ∧ readDocument r.octets = .ok v) := by
    rintro ⟨hnil, hread⟩
    rw [List.isEmpty_iff.1 hnil] at hread
    cases hread
  rw [payload, ← hdocument]
  by_cases hnil : r.octets.isEmpty = true
  · have hread : ¬ readDocument r.octets = .ok v := fun hread => hempty ⟨hnil, hread⟩
    simp [hnil, hread]
  · by_cases htype : r.contentType.any isJsonType = true
    · simp [hnil, htype, Results.map_eq_ok_iff]
    · simp [hnil, htype]

/-- No object of a posted body has two fields of one name. -/
theorem Request.Posts.distinct {request : Request} {body : Json} (h : request.Posts body) :
    body.Distinct := by
  obtain ⟨-, t, -, hread⟩ := Request.payload_eq_value_iff.1 h.payload
  exact (Json.regular_of_read hread).2.distinct

/-- The request that posts the compact text of a value. -/
def Request.posting (v : Json) : Request :=
  ⟨text "POST", text "/api/json", some (text "application/json"),
    Text.toUtf8 (Response.bodyOf v)⟩

/-- The text of an object starts with two code points of ASCII, so it is taken for UTF-8. -/
theorem Request.ofDocument?_bodyOf_object (fields : List (Text × Json)) :
    Text.ofDocument? (Text.toUtf8 (Response.bodyOf (.object fields))) =
      some (Response.bodyOf (.object fields)) := by
  cases fields with
  | nil => exact Text.ofDocument?_toUtf8 (by decide) (by decide)
  | cons f rest =>
      obtain ⟨k, v⟩ := f
      exact Text.ofDocument?_toUtf8 (by decide) (by decide)

/-- Every object within the bounds for bodies whose numbers are whole can be posted. -/
theorem Request.posts_posting {fields : List (Text × Json)}
    (hheight : (Json.object fields).height ≤ rules.nestingLimit)
    (hregular : (Json.object fields).Regular rules.digitLimit)
    (hfree : (Json.object fields).FloatFree) :
    (posting (.object fields)).Posts (.object fields) := by
  have hverb : (text "POST").map CodePoint.upper = text "POST" := by decide +kernel
  have hroute : Route.ofPath? (Target.path (text "/api/json")) = some .extraction := by
    decide +kernel
  have htype : isJsonType (text "application/json") = true := by decide +kernel
  have hread : Json.read rules (Response.bodyOf (.object fields)) = .ok (.object fields) :=
    Json.read_write_self hheight hregular hfree
  exact ⟨hverb, hroute,
    payload_eq_value_iff.2 ⟨htype, _, ofDocument?_bodyOf_object fields, hread⟩⟩

/-- The envelope that asks for a shape of so many objects and one more in each other. -/
def Envelope.nested (n : Nat) : Envelope := ⟨text "x", [(text "a", .nest (text "a") n)]⟩

/-- The body that is this envelope. -/
def Envelope.nestedBody (n : Nat) : Json :=
  .object [(text "data", .string (text "x")), (text "format", .nest (text "a") (n + 1))]

theorem Envelope.opens_nested (n : Nat) : (nested n).Opens (nestedBody n) := ⟨_, rfl, rfl, rfl⟩

theorem Envelope.encodable_nestedBody (n : Nat) : (nestedBody n).Encodable := by
  have hnest : (Json.nest (text "a") (n + 1)).Encodable := by
    unfold Json.Encodable
    exact Json.every_nest (by simp) (by simp) (n + 1)
  simp [nestedBody, Json.encodable_object, Json.encodable_string, hnest]

/-- Such a body can be posted as long as it is read within the bounds. -/
theorem Request.posts_nestedBody {n : Nat} (h : n + 2 ≤ rules.nestingLimit) :
    (posting (Envelope.nestedBody n)).Posts (Envelope.nestedBody n) := by
  have hheight : (Envelope.nestedBody n).height = n + 2 := by
    simp only [Envelope.nestedBody, Json.height, Json.heightOfFields, Json.height_nest]
    omega
  refine posts_posting (hheight.le.trans h) ?_ ?_
  · have hnest : (Json.nest (text "a") (n + 1)).Regular rules.digitLimit := by
      unfold Json.Regular
      exact Json.every_nest trivial (by simp) (n + 1)
    have hnames : text "data" ≠ text "format" := by decide
    unfold Json.Regular at hnest ⊢
    simp [hnest, hnames, Fields.names]
  · have hnest : (Json.nest (text "a") (n + 1)).FloatFree := by
      unfold Json.FloatFree
      exact Json.every_nest trivial trivial (n + 1)
    unfold Json.FloatFree at hnest ⊢
    simp [hnest]

/-- What holds for all parts of a body holds for those of its description. -/
theorem Envelope.Opens.every {p : Json.Traits} {e : Envelope} {body : Json} (h : e.Opens body)
    (hbody : body.Every p) : e.description.Every p := by
  obtain ⟨fields, rfl, -, hformat⟩ := h
  exact (Json.every_object.1 hbody).2 _ (Fields.mem_of_lookup_eq_some hformat)

/-- The settings say how attempts are made. -/
def Settings.attemptRules (settings : Settings) : AttemptRules :=
  ⟨settings.attemptTimeout, settings.stripCodeFences⟩

namespace Service

variable {stack : Stack} {settings : Settings} (replies : Nat → Reply) {e : Envelope}
  {shape : Shape} (tape : Tape (List Message))

/-! ## How runs are answered -/

theorem conclude_of_exhausted {σ : Type} {run : Run σ} {last : AttemptError}
    (h : run.ending = .exhausted last) :
    conclude run = Response.ofFailure 500 (.exhausted last.toFailure run.attempts.length)
      (some run.attempts.length) := by
  rw [conclude, h]
  rfl

/-- The first reply that does not fail its attempt ends the run. -/
theorem extractFrom_of_ends (hvalid : settings.Valid) (hroom : ¬ e.Overflows stack settings)
    (h : Shape.ofDescription settings.maxShapeDepth e.description = .ok shape)
    (hnames : shape.Encodable) {k : Nat} {ending : Ending} (hk : k ≤ settings.maxRetries.toNat)
    (hbefore : ∀ i < k, (replies (tape.position + i)).Fails settings.attemptRules ⟨shape⟩)
    (hends : (replies (tape.position + k)).Ends settings.attemptRules ⟨shape⟩ ending) :
    ∃ run : Run (Tape (List Message)), run.ending = ending ∧
      ((ofSequence stack settings replies).extractFrom e tape).outcome = conclude run ∧
      ((ofSequence stack settings replies).extractFrom e tape).state =
        tape.advanceBy (k + 1) (conversation e) := by
  obtain ⟨houtcome, hstate⟩ := extractFrom_of_encodable replies tape hvalid hroom h hnames
  obtain ⟨hending, hasked⟩ := Generator.attemptsFrom_ends_at (conversation e) _ 1 tape
    hvalid.onset_eq_asks hk (fun i hi => (hbefore i hi).not_final) hends
  exact ⟨_, hending, houtcome, hstate.trans hasked⟩

/-- The first reply that gives a value is answered with it, when those before it fail. -/
theorem extractFrom_of_gives (hvalid : settings.Valid) (hroom : ¬ e.Overflows stack settings)
    (h : Shape.ofDescription settings.maxShapeDepth e.description = .ok shape)
    (hnames : shape.Encodable) {k : Nat} {v : Json} (hk : k ≤ settings.maxRetries.toNat)
    (hbefore : ∀ i < k, (replies (tape.position + i)).Fails settings.attemptRules ⟨shape⟩)
    (hgives : (replies (tape.position + k)).Gives settings.attemptRules ⟨shape⟩ v) :
    ((ofSequence stack settings replies).extractFrom e tape).outcome = Response.ofJson 200 v ∧
      ((ofSequence stack settings replies).extractFrom e tape).state =
        tape.advanceBy (k + 1) (conversation e) := by
  obtain ⟨run, hending, houtcome, hstate⟩ := extractFrom_of_ends replies tape hvalid hroom h hnames
    hk hbefore (.value hgives)
  rw [houtcome, conclude, hending]
  exact ⟨rfl, hstate⟩

/-- Nothing is answered while a wait without an end goes on. -/
theorem extractFrom_of_endless (hvalid : settings.Valid) (hroom : ¬ e.Overflows stack settings)
    (h : Shape.ofDescription settings.maxShapeDepth e.description = .ok shape)
    (hnames : shape.Encodable) {k : Nat} (hk : k ≤ settings.maxRetries.toNat)
    (hbefore : ∀ i < k, (replies (tape.position + i)).Fails settings.attemptRules ⟨shape⟩)
    (hwaits : settings.attemptTimeout.ends = false)
    (hsilent : replies (tape.position + k) = .silent) :
    ((ofSequence stack settings replies).extractFrom e tape).outcome = .error .endless ∧
      ((ofSequence stack settings replies).extractFrom e tape).state =
        tape.advanceBy (k + 1) (conversation e) := by
  have hends : (replies (tape.position + k)).Ends settings.attemptRules ⟨shape⟩ .endless :=
    Reply.ends_endless_iff.2 ⟨hsilent, hwaits⟩
  obtain ⟨run, hending, houtcome, hstate⟩ := extractFrom_of_ends replies tape hvalid hroom h hnames
    hk hbefore hends
  rw [houtcome, conclude, hending]
  exact ⟨rfl, hstate⟩

/-- When all attempts fail, the error of the last one is reported. -/
theorem extractFrom_of_exhausted (hvalid : settings.Valid) (hroom : ¬ e.Overflows stack settings)
    (h : Shape.ofDescription settings.maxShapeDepth e.description = .ok shape)
    (hnames : shape.Encodable) {m : Nat} (hm : settings.maxRetries.toNat = m)
    (hfails : ∀ i ≤ m, (replies (tape.position + i)).Fails settings.attemptRules ⟨shape⟩) :
    ∃ a last,
      Attempt.FailedBy settings.attemptRules ⟨shape⟩ (m + 1) (replies (tape.position + m)) a ∧
      a.result = .error last ∧
      ((ofSequence stack settings replies).extractFrom e tape).outcome =
        Response.ofFailure 500 (.exhausted last.toFailure (m + 1)) (some (m + 1)) ∧
      ((ofSequence stack settings replies).extractFrom e tape).state =
        tape.advanceBy (m + 1) (conversation e) := by
  subst hm
  obtain ⟨houtcome, hstate⟩ := extractFrom_of_encodable replies tape hvalid hroom h hnames
  obtain ⟨⟨hlength, hfailed, a, last, ha, hlast, hending⟩, hasked⟩ :=
    Generator.attemptsFrom_exhausted (conversation e) _ 1 tape hvalid.onset_eq_asks fun i hi =>
      (hfails i hi).not_final
  obtain ⟨b, hb, hby⟩ := hfailed _ (Nat.le_refl _)
  obtain rfl : a = b := by
    rw [ha] at hb
    exact Option.some.inj hb
  refine ⟨a, last, ?_, hlast, ?_, hstate.trans hasked⟩
  · rw [Nat.add_comm]
    exact hby
  · rw [← hlength]
    exact houtcome.trans (conclude_of_exhausted hending)

end Service

/-! ## Answers without surrogates -/

/-- A request has been answered with a value, and the generator is left in a state. -/
structure Answered.Holds {σ : Type} (answered : Answered σ) (status : Nat) (v : Json)
    (state : σ) : Prop where
  outcome : answered.outcome =
    .ok ⟨status, some (text "application/json"), Response.bodyOf v⟩
  state : answered.state = state

/-- A request has been answered with the report of a failure: its class, what is said about it, and
the number of attempts or a null.  The generator is left in a state. -/
structure Answered.Reports {σ : Type} (answered : Answered σ) (status : Nat) (error detail : Text)
    (attempts : Option Nat) (state : σ) : Prop where
  outcome : answered.outcome =
    .ok ⟨status, some (text "application/json"), Response.reportText error detail attempts⟩
  state : answered.state = state

/-- A request has not been answered: the wait for the generator goes on for ever. -/
structure Answered.Waits {σ : Type} (answered : Answered σ) (state : σ) : Prop where
  outcome : answered.outcome = .error .endless
  state : answered.state = state

/-- A failure is reported as it is worded when its message can be encoded. -/
theorem Answered.Reports.of_encodable {σ : Type} {answered : Answered σ} {status : Nat}
    {failure : Failure} {attempts : Option Nat} {error detail : Text} {state : σ}
    (h : failure.message.Encodable)
    (houtcome : answered.outcome = Response.ofFailure status failure attempts)
    (hstate : answered.state = state) (hname : failure.name = error)
    (hmessage : failure.message = detail) :
    answered.Reports status error detail attempts state := by
  subst hname hmessage
  exact ⟨houtcome.trans (Response.ofFailure_of_encodable h), hstate⟩

namespace Service

variable {stack : Stack} {settings : Settings} {replies : Nat → Reply} {request : Request}
  {body : Json}

/-- What is given with a shape of a posted description is decoded again from its compact text. -/
theorem decode_bodyOf {e : Envelope} {shape : Shape} {reply : Reply} {v : Json}
    (hbody : body.Distinct) (hopens : e.Opens body)
    (h : Shape.ofDescription settings.maxShapeDepth e.description = .ok shape)
    (hgives : reply.Gives settings.attemptRules ⟨shape⟩ v) (hfree : v.FloatFree) :
    Answer.decode false (Response.bodyOf v) = .ok v := by
  have hdescription : e.description.Distinct := by
    unfold Json.Distinct at hbody ⊢
    exact hopens.every hbody
  have hshape : shape.Distinct := Shape.distinct_of_describe hdescription h
  obtain ⟨hheight, hregular⟩ := hgives.regular hshape
  exact Answer.decode_write hheight hregular hfree

/-- The answer to a posted body for which there is room on the stack and where surrogates are
nowhere.  What is no envelope and what has a defective description is refused without a question.
Otherwise the first reply that does not fail its attempt decides, when no more than the retries come
before it: a reply that gives a value is answered with it, and while one that never comes is waited
for without an end there is no answer.  When all attempts fail, the error of the last one is
reported, after one question more than there are retries.  All questions are the conversation about
the envelope. -/
theorem answer_determined (hvalid : settings.Valid) (hposts : request.Posts body)
    (hroom : ∀ e : Envelope, e.Opens body → ¬ e.Overflows stack settings)
    (hbody : body.Encodable)
    (htexts : ∀ i raw v, replies i = .text raw →
      Answer.decode settings.stripCodeFences raw = .ok v → v.Encodable)
    (herrors : ∀ i error, replies i = .raised error → error.Encodable)
    (tape : Tape (List Message)) :
    let answered := (ofSequence stack settings replies).answer request tape
    let m := settings.maxRetries.toNat
    ((¬ ∃ e : Envelope, e.Opens body) →
      answered.Reports 400 (text "EnvelopeInvalid")
        (text "Invalid request body: " ++ Text.join (text "; ") (Envelope.complaints body))
        none tape) ∧
    ∀ e : Envelope, e.Opens body →
      (∀ error, Shape.ofDescription settings.maxShapeDepth e.description = .error error →
        answered.Reports 400 error.className (error.wording settings.maxShapeDepth) none tape) ∧
      ∀ shape, Shape.ofDescription settings.maxShapeDepth e.description = .ok shape →
        (∀ k ≤ m,
          (∀ i < k, (replies (tape.position + i)).Fails settings.attemptRules ⟨shape⟩) →
          (∀ v, (replies (tape.position + k)).Gives settings.attemptRules ⟨shape⟩ v →
            answered.Holds 200 v (tape.advanceBy (k + 1) (conversation e)) ∧
              (v.FloatFree → Answer.decode false (Response.bodyOf v) = .ok v)) ∧
          (replies (tape.position + k) = .silent → settings.attemptTimeout.ends = false →
            answered.Waits (tape.advanceBy (k + 1) (conversation e)))) ∧
        ((∀ i ≤ m, (replies (tape.position + i)).Fails settings.attemptRules ⟨shape⟩) →
          ∃ a last,
            Attempt.FailedBy settings.attemptRules ⟨shape⟩ (m + 1)
              (replies (tape.position + m)) a ∧
            a.result = .error last ∧
            answered.Reports 500 (text "GenerationExhausted")
              (text "All " ++ Text.ofNat (m + 1) ++
                text " generation attempts failed. Last error: " ++ last.wording)
              (some (m + 1)) (tape.advanceBy (m + 1) (conversation e))) := by
  intro answered m
  have hanswer : answered = (ofSequence stack settings replies).extract (.value body) tape :=
    answer_of_posts _ tape hposts
  rw [hanswer]
  refine ⟨fun hopen => ?_, fun e hopens => ?_⟩
  · obtain ⟨houtcome, hstate⟩ :=
      extract_of_not_opens (ofSequence stack settings replies) tape hopen
    refine .of_encodable ?_ houtcome hstate rfl rfl
    rw [← Envelope.map_message_errors_ofJson]
    exact Failure.encodable_envelopeInvalid _
  -- the description is a part of the body, so what holds of all parts of the body holds of it
  have hdescription : e.description.Encodable := by
    unfold Json.Encodable at hbody ⊢
    exact hopens.every hbody
  have hroom := hroom e hopens
  rw [extract_of_opens _ tape hopens]
  refine ⟨fun error herror => ?_, fun shape hshape => ?_⟩
  · obtain ⟨houtcome, hstate⟩ :=
      extractFrom_of_refused (ofSequence stack settings replies) tape hroom herror
    have hpath := Shape.encodable_path_of_describe hdescription _ _ herror
    exact .of_encodable (DescriptionError.encodable_toFailure.2 hpath) houtcome hstate
      (error.name_toFailure _) (error.message_toFailure _)
  have hnames : shape.Encodable := Shape.encodable_of_describe hdescription hshape
  refine ⟨fun k hk hbefore => ⟨fun v hgives => ?_, fun hsilent hwaits => ?_⟩, fun hfails => ?_⟩
  · obtain ⟨houtcome, hstate⟩ :=
      extractFrom_of_gives replies tape hvalid hroom hshape hnames hk hbefore hgives
    have hvalue := hgives.encodable hnames (htexts (tape.position + k))
    refine ⟨⟨houtcome.trans (Response.ofJson_of_encodable hgives.isFinite hvalue), hstate⟩, ?_⟩
    exact decode_bodyOf hposts.distinct hopens hshape hgives
  · obtain ⟨houtcome, hstate⟩ :=
      extractFrom_of_endless replies tape hvalid hroom hshape hnames hk hbefore hwaits hsilent
    exact ⟨houtcome, hstate⟩
  · obtain ⟨a, last, hfailed, hlast, houtcome, hstate⟩ :=
      extractFrom_of_exhausted replies tape hvalid hroom hshape hnames rfl hfails
    have hmessage := (hfailed.encodable_message hnames hlast).2 (herrors (tape.position + m))
    refine ⟨a, last, hfailed, hlast, ?_⟩
    refine .of_encodable (Failure.encodable_exhausted.2 hmessage) houtcome hstate rfl ?_
    rw [Failure.message, last.message_toFailure]

/-- After a wait that is over the second reply is answered with, which has a null for its field. -/
theorem answer_determined_at_second_reply :
    let description := [(text "a", Json.string (text "string"))]
    let v := Json.object [(text "a", .null)]
    let body := Json.object
      [(text "data", .string (text "x")), (text "format", .object description)]
    let replies : Nat → Reply := Tape.entries .silent [.silent, .text (Response.bodyOf v)]
    let settings := { Settings.standard with stripCodeFences := false }
    ((ofSequence .standard settings replies).answer (.posting body) .start).Holds 200 v
      (Tape.start.advanceBy 2 (conversation ⟨text "x", description⟩)) := by
  intro description v body replies settings
  have hvalid : settings.Valid :=
    ⟨Settings.valid_standard.retries, Settings.valid_standard.timeout⟩
  have hposts : (Request.posting body).Posts body :=
    Request.posts_posting (by decide) (by simp [Json.Regular, description, Fields.names, text])
      (by simp [Json.FloatFree, description])
  have hroom : ∀ e : Envelope, e.Opens body → ¬ e.Overflows .standard settings :=
    fun e hopens => hopens.not_overflows_standard (by decide)
  have hbody : body.Encodable := by
    simp [Json.encodable_object, Json.encodable_string, description, body]
  have hvalue : v.Encodable := by simp [Json.encodable_object, v]
  have hdecode : Answer.decode false (Response.bodyOf v) = .ok v :=
    Answer.decode_write (by decide) (by simp [Json.Regular, v, Fields.names])
      (by simp [Json.FloatFree, v])
  have hreplies : ∀ i, replies i = .silent ∨ replies i = .text (Response.bodyOf v) := by
    intro i
    cases i with
    | zero => exact .inl rfl
    | succ i => cases i <;> exact .inr rfl
  obtain ⟨-, hopened⟩ := answer_determined hvalid hposts hroom hbody
    (fun i raw w hraw hw => by
      rcases hreplies i with h | h
      · cases h.symm.trans hraw
      · cases h.symm.trans hraw
        cases hdecode.symm.trans hw
        exact hvalue)
    (fun i error hraised => by rcases hreplies i with h | h <;> cases h.symm.trans hraised) .start
  obtain ⟨-, hdescribed⟩ := hopened ⟨text "x", description⟩ ⟨_, rfl, rfl, rfl⟩
  obtain ⟨hdecided, -⟩ := hdescribed (.object [(text "a", .leaf .string)]) rfl
  refine ((hdecided 1 (by decide) fun i hi => ?_).1 v ⟨_, v, rfl, hdecode, rfl⟩).1
  obtain rfl : i = 0 := by omega
  refine ⟨rfl, ?_⟩
  rintro w ⟨raw, decoded, hraw, -⟩
  cases hraw

/-- An infinite wait is allowed, and no answer comes while a reply is waited for that never does.
Neither is there one when the body is 250 objects in each other and the limit for shapes is higher:
the body is read and its shape is described, but there is no room to show it. -/
theorem answer_missing_under_endless_wait_or_nesting :
    let settings := { Settings.standard with
      attemptTimeout := .seconds (.real (.infinity false)), maxShapeDepth := 300 }
    let service := ofSequence .standard settings fun _ => .silent
    settings.Valid ∧
      ((Request.posting (Envelope.nestedBody 0)).Posts (Envelope.nestedBody 0) ∧
        (Envelope.nestedBody 0).Encodable ∧
        (service.answer (.posting (Envelope.nestedBody 0)) .start).Waits
          (Tape.start.advanceBy 1 (conversation (Envelope.nested 0)))) ∧
      (Request.posting (Envelope.nestedBody 249)).Posts (Envelope.nestedBody 249) ∧
        (Envelope.nestedBody 249).Encodable ∧
        ∃ o, (service.answer (.posting (Envelope.nestedBody 249)) .start).outcome =
          .error (.overflow o) := by
  intro settings service
  have hvalid : settings.Valid :=
    ⟨Settings.valid_standard.retries, .infinity false, rfl, rfl⟩
  have hwaiting := Request.posts_nestedBody (n := 0) (by decide)
  have hnested := Request.posts_nestedBody (n := 249) (by decide)
  refine ⟨hvalid, ⟨hwaiting, Envelope.encodable_nestedBody 0, ?_⟩, hnested,
    Envelope.encodable_nestedBody 249, ?_⟩
  · have hopens := Envelope.opens_nested 0
    have hroom : ¬ (Envelope.nested 0).Overflows .standard settings :=
      hopens.not_overflows_standard (by decide)
    have hshape : Shape.ofDescription settings.maxShapeDepth (Envelope.nested 0).description = _ :=
      Shape.describe_nest (n := 1) (by decide) (by decide)
    have hnames : (Shape.nested (text "a") 1).Encodable := by
      unfold Shape.Encodable
      simp [Shape.nested, Fields.names]
    obtain ⟨houtcome, hstate⟩ := extractFrom_of_endless (fun _ => .silent) .start hvalid hroom
      hshape hnames (Nat.zero_le _) (fun i hi => absurd hi (Nat.not_lt_zero i)) rfl rfl
    rw [answer_of_posts _ _ hwaiting, extract_of_opens _ _ hopens]
    exact ⟨houtcome, hstate⟩
  · have hoverflows : (Envelope.nested 249).Overflows .standard settings :=
      .compiling (Shape.overflows_nest (n := 250) (by decide) (by decide) (by decide))
    obtain ⟨o, houtcome, -⟩ := extractFrom_of_overflows service .start hoverflows
    refine ⟨o, ?_⟩
    rw [answer_of_posts _ _ hnested, extract_of_opens _ _ (Envelope.opens_nested 249)]
    exact houtcome

end Service

end ShapedJson
