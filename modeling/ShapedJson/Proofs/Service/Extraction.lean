import ShapedJson.Proofs.Generation.Runs
import ShapedJson.Proofs.Service.Responses
import ShapedJson.Proofs.Settings
import ShapedJson.Proofs.Shape.Compilation
import ShapedJson.Service.Routes

/-!
# What a posted body is answered with

A body is no envelope, there is no room on the stack for what it asks, its description is refused,
its shape has a name that cannot be encoded, or the end of a run is the answer.  Each way has one
lemma here, with the outcome before it is sent and with all questions that were asked.
-/

namespace ShapedJson

/-- A body is the envelope: a mapping with its text and its description under their names. -/
def Envelope.Opens (e : Envelope) (body : Json) : Prop :=
  ∃ fields, body = .object fields ∧ fields.lookup (text "data") = some (.string e.data) ∧
    fields.lookup (text "format") = some (.object e.format)

theorem Envelope.readData_eq_ok_iff {given : Option Json} {data : Text} :
    readData given = .ok data ↔ given = some (.string data) := by
  unfold readData
  split <;> simp_all

theorem Envelope.readFormat_eq_ok_iff {given : Option Json} {format : List (Text × Json)} :
    readFormat given = .ok format ↔ given = some (.object format) := by
  unfold readFormat
  split <;> simp_all

theorem Envelope.ofJson_eq_ok_iff {body : Json} {e : Envelope} :
    ofJson body = .ok e ↔ e.Opens body := by
  unfold Opens
  cases body with
  | object fields =>
      simp only [ofJson, Gathered.apply_eq_ok_iff, Results.map_eq_ok_iff, readData_eq_ok_iff,
        readFormat_eq_ok_iff, Json.object.injEq]
      constructor
      · rintro ⟨_, format, ⟨data, hdata, rfl⟩, hformat, rfl⟩
        exact ⟨fields, rfl, hdata, hformat⟩
      · rintro ⟨_, rfl, hdata, hformat⟩
        exact ⟨_, e.format, ⟨e.data, hdata, rfl⟩, hformat, rfl⟩
  | _ => simp [ofJson]

namespace Envelope

/-- What is said about the text of a request. -/
def dataComplaints : Option Json → List Text
  | some (.string _) => []
  | some _ => [text "data: Input should be a valid string"]
  | none => [text "data: Field required"]

/-- What is said about the description of a request. -/
def formatComplaints : Option Json → List Text
  | some (.object _) => []
  | some _ => [text "format: Input should be a valid dictionary"]
  | none => [text "format: Field required"]

/-- All that is said about a body that is no envelope. -/
def complaints : Json → List Text
  | .object fields =>
    dataComplaints (fields.lookup (text "data")) ++
      formatComplaints (fields.lookup (text "format"))
  | _ => [text "body: Input should be a valid dictionary or instance of JsonExtractionRequest"]

theorem map_message_errors_ofJson (body : Json) :
    (Gathered.errors (ofJson body)).map EnvelopeFault.message = complaints body := by
  cases body with
  | object fields =>
      rw [ofJson, complaints, Gathered.errors_apply, List.map_append]
      congr 1
      · cases fields.lookup (text "data") with
        | none => rfl
        | some v => cases v <;> rfl
      · cases fields.lookup (text "format") with
        | none => rfl
        | some v => cases v <;> rfl
  | _ => rfl

end Envelope

/-- The stack has no room for what an envelope asks: to compile its description, or to write the
description into the prompt once there is a validator. -/
inductive Envelope.Overflows (stack : Stack) (settings : Settings) (e : Envelope) : Prop
  | compiling (beyond : Shape.Overflows stack settings.maxShapeDepth e.description)
  | writing (shape : Shape)
      (described : Shape.ofDescription settings.maxShapeDepth e.description = .ok shape)
      (names : shape.Encodable) (beyond : stack.writing < e.description.depth)

theorem Envelope.compiles_of_not_overflows {stack : Stack} {settings : Settings} {e : Envelope}
    (h : ¬ e.Overflows stack settings) :
    ¬ Shape.Overflows stack settings.maxShapeDepth e.description :=
  fun hbeyond => h (.compiling hbeyond)

/-- On the usual stack there is room for every envelope in a body that is flat enough. -/
theorem Envelope.Opens.not_overflows_standard {settings : Settings} {e : Envelope} {body : Json}
    (h : e.Opens body) (hflat : body.depth ≤ 180) : ¬ e.Overflows .standard settings := by
  have hdepth : e.description.depth ≤ 179 := by
    obtain ⟨fields, rfl, -, hformat⟩ := h
    have hfield : e.description.depth + 1 ≤ Json.depthOfFields fields :=
      Json.depthOfFields_le_iff.1 (Nat.le_refl _) _ (Fields.mem_of_lookup_eq_some hformat)
    rw [Json.depth] at hflat
    omega
  rintro (hcompiling | ⟨shape, -, -, hbeyond⟩)
  · refine Shape.not_overflows_of_depth_le ?_ ?_ ?_ (fun _ => rfl) hcompiling <;>
      simp only [Stack.standard] <;> omega
  · simp only [Stack.standard] at hbeyond
    omega

/-- A request that posts a value to the route of extraction. -/
structure Request.Posts (request : Request) (body : Json) : Prop where
  verb : request.verb = text "POST"
  route : Route.ofPath? (Target.path request.target) = some .extraction
  payload : request.payload = .ok (.value body)

/-- A reply that comes: a text, an error, or the end of a wait that has one. -/
def Reply.Arrives (patience : Patience) : Reply → Prop
  | .text _ | .raised _ => True
  | .silent => patience.ends = true
  | .cancelled _ => False

/-- A reply that comes and gives no value. -/
structure Reply.Fails (rules : AttemptRules) (validator : Validator) (reply : Reply) : Prop where
  arrives : reply.Arrives rules.patience
  valueless : ∀ v, ¬ reply.Gives rules validator v

/-- A reply that fails its attempt leaves the run to the next one. -/
theorem Reply.Fails.not_final {rules : AttemptRules} {validator : Validator} {reply : Reply}
    (h : reply.Fails rules validator) : ¬ reply.Final rules validator := by
  rintro ⟨ending, hends⟩
  have harrives := h.arrives
  cases hends with
  | value gives => exact h.valueless _ gives
  | cancelled reason => exact harrives.elim
  | endless waits =>
      rw [Arrives, waits] at harrives
      cases harrives

theorem Settings.Valid.onset_eq_asks {settings : Settings} (h : settings.Valid) :
    settings.attemptTimeout.onset = .asks := by
  obtain ⟨x, hx, hpositive⟩ := h.timeout
  rw [hx, Patience.onset, hpositive]
  rfl

namespace Service

/-- The service on a stack whose generator gives the replies of a sequence in turn. -/
def ofSequence (stack : Stack) (settings : Settings) (replies : Nat → Reply) :
    Service (Tape (List Message)) :=
  ⟨settings, .ofSequence replies, stack⟩

/-- The conversation about an envelope. -/
def conversation (e : Envelope) : List Message :=
  Prompt.conversation (Prompt.render e.data e.description)

theorem answer_of_posts {σ : Type} (s : Service σ) {request : Request} {body : Json} (state : σ)
    (h : request.Posts body) : s.answer request state = s.extract (.value body) state := by
  have hmethod : request.verb = Route.method .extraction := h.verb
  have hhead : ¬ request.verb = text "HEAD" := by
    rw [h.verb]
    decide
  rw [answer]
  simp only [if_neg hhead]
  rw [answerFully]
  simp only [h.route, if_pos hmethod]
  rw [answerRoute, h.payload]

variable {stack : Stack} {settings : Settings} {body : Json} {e : Envelope} {shape : Shape}

/-- A body that is no envelope is refused, with all complaints about it. -/
theorem extract_of_not_opens {σ : Type} (s : Service σ) (state : σ)
    (h : ¬ ∃ e : Envelope, e.Opens body) :
    (s.extract (.value body) state).outcome =
        Response.ofFailure 400 (.envelopeInvalid (Envelope.complaints body)) none ∧
      (s.extract (.value body) state).state = state := by
  rw [extract, ← Envelope.map_message_errors_ofJson]
  cases hopen : Envelope.ofJson body with
  | ok e => exact absurd ⟨e, Envelope.ofJson_eq_ok_iff.1 hopen⟩ h
  | error faults => simp only [reject, Gathered.errors, and_self]

theorem extract_of_opens {σ : Type} (s : Service σ) (state : σ) (h : e.Opens body) :
    s.extract (.value body) state = s.extractFrom e state := by
  rw [extract]
  simp only [Envelope.ofJson_eq_ok_iff.2 h]

/-- What there is no room for lets the request escape before the generator is asked. -/
theorem extractFrom_of_overflows {σ : Type} (s : Service σ) (state : σ)
    (h : e.Overflows s.stack s.settings) :
    ∃ o, (s.extractFrom e state).outcome = .error (.overflow o) ∧
      (s.extractFrom e state).state = state := by
  by_cases hcompiling : Shape.Overflows s.stack s.settings.maxShapeDepth e.description
  · obtain ⟨o, log, hcompile⟩ := Validator.compile_of_overflows hcompiling
    rw [extractFrom, hcompile]
    exact ⟨o, rfl, rfl⟩
  · cases h with
    | compiling beyond => exact absurd beyond hcompiling
    | writing shape described names beyond =>
        rw [extractFrom, Validator.compile_of_encodable hcompiling described names]
        simp only [generate, if_pos beyond]
        exact ⟨.writing, rfl, trivial⟩

/-- A description that is refused is reported. -/
theorem extractFrom_of_refused {σ : Type} (s : Service σ) (state : σ)
    (hroom : ¬ e.Overflows s.stack s.settings) {error : DescriptionError}
    (h : Shape.ofDescription s.settings.maxShapeDepth e.description = .error error) :
    (s.extractFrom e state).outcome =
        Response.ofFailure 400 (error.toFailure s.settings.maxShapeDepth) none ∧
      (s.extractFrom e state).state = state := by
  rw [extractFrom, Validator.compile_of_refused (Envelope.compiles_of_not_overflows hroom) h]
  exact ⟨rfl, rfl⟩

/-- A shape with a name that cannot be encoded escapes. -/
theorem extractFrom_of_not_encodable {σ : Type} (s : Service σ) (state : σ)
    (hroom : ¬ e.Overflows s.stack s.settings)
    (h : Shape.ofDescription s.settings.maxShapeDepth e.description = .ok shape)
    (hnames : ¬ shape.Encodable) :
    ∃ fault, (s.extractFrom e state).outcome = .error (.unencodableShape fault) := by
  cases hshape : Validator.ofShape shape with
  | ok validator => exact absurd (Shape.ofShape_eq_ok_iff.1 hshape).1 hnames
  | error fault =>
      refine ⟨fault, ?_⟩
      rw [extractFrom, Validator.compile_of_described (Envelope.compiles_of_not_overflows hroom) h,
        hshape]
      rfl

/-- With a shape that has a validator the end of the run is the answer. -/
theorem extractFrom_of_encodable (replies : Nat → Reply) (tape : Tape (List Message))
    (hvalid : settings.Valid) (hroom : ¬ e.Overflows stack settings)
    (h : Shape.ofDescription settings.maxShapeDepth e.description = .ok shape)
    (hnames : shape.Encodable) :
    let s := ofSequence stack settings replies
    let run := (Generator.ofSequence replies).attemptsFrom s.attemptRules (conversation e) ⟨shape⟩
      settings.maxRetries.toNat 1 tape
    (s.extractFrom e tape).outcome = conclude run ∧ (s.extractFrom e tape).state = run.state := by
  intro s run
  have hrun : s.generator.run? s.attemptRules (Prompt.render e.data e.description) ⟨shape⟩
      s.settings.maxRetries tape = some run := by
    -- no run is refused, since the settings allow no negative number of retries
    obtain ⟨m, hm⟩ := Int.eq_ofNat_of_zero_le hvalid.retries
    show Generator.run? _ _ _ _ settings.maxRetries _ =
      some ((Generator.ofSequence replies).attemptsFrom s.attemptRules (conversation e) ⟨shape⟩
        settings.maxRetries.toNat 1 tape)
    rw [hm]
    rfl
  have hcompile : Validator.compile s.stack s.settings.maxShapeDepth e.description =
      (.ok ⟨shape⟩, [shape.described]) :=
    Validator.compile_of_encodable (Envelope.compiles_of_not_overflows hroom) h hnames
  have hwriting : ¬ s.stack.writing < e.description.depth :=
    fun hbeyond => hroom (.writing shape h hnames hbeyond)
  rw [extractFrom, hcompile]
  simp only [generate, if_neg hwriting, hrun, and_self]

end Service

end ShapedJson
