import ShapedJson.Proofs.Service.Extraction
import ShapedJson.Proofs.Settings.Waits

/-!
# Services with loaded settings

A service whose settings have just been loaded never refuses a request for its number of retries.
All its attempts ask the generator, and they wait for a time above zero unless the wait that was
set is NaN, which the rule for waits does not refuse.
-/

namespace ShapedJson

theorem Response.ofJson_ne_negativeRetries (status : Nat) (v : Json) (retries : Int) :
    Response.ofJson status v ≠ .error (.negativeRetries retries) := by
  unfold ofJson
  split
  · split <;> nofun
  · nofun

theorem Response.ofPayloadFault_ne_negativeRetries (fault : PayloadFault) (retries : Int) :
    Response.ofPayloadFault fault ≠ .error (.negativeRetries retries) := by
  unfold ofPayloadFault
  split <;> exact ofJson_ne_negativeRetries _ _ retries

theorem Generator.exists_run?_of_nonneg {σ : Type} (g : Generator σ) (rules : AttemptRules)
    (prompt : Text) (validator : Validator) {retries : Int} (h : 0 ≤ retries) (state : σ) :
    ∃ run, g.run? rules prompt validator retries state = some run := by
  obtain ⟨m, rfl⟩ := Int.eq_ofNat_of_zero_le h
  exact ⟨_, rfl⟩

namespace Service

variable {σ : Type} {s : Service σ}

theorem reject_ne_negativeRetries (failure : Failure) (log : List LogRecord) (state : σ)
    (retries : Int) : (reject failure log state).outcome ≠ .error (.negativeRetries retries) :=
  Response.ofJson_ne_negativeRetries 400 (Response.report failure none) retries

theorem conclude_ne_negativeRetries (run : Run σ) (retries : Int) :
    conclude run ≠ .error (.negativeRetries retries) := by
  unfold conclude
  split
  · exact Response.ofJson_ne_negativeRetries _ _ retries
  · exact Response.ofJson_ne_negativeRetries _ _ retries
  · nofun
  · nofun

/-- The only place for the complaint is the run, and that is never refused. -/
theorem generate_ne_negativeRetries (h : 0 ≤ s.settings.maxRetries) (e : Envelope)
    (validator : Validator) (log : List LogRecord) (state : σ) (retries : Int) :
    (s.generate e validator log state).outcome ≠ .error (.negativeRetries retries) := by
  obtain ⟨run, hrun⟩ := s.generator.exists_run?_of_nonneg s.attemptRules
    (Prompt.render e.data e.description) validator h state
  rw [generate, hrun]
  split
  · intro hoverflow
    cases hoverflow
  · exact conclude_ne_negativeRetries run retries

theorem extract_ne_negativeRetries (h : 0 ≤ s.settings.maxRetries) (payload : Payload) (state : σ)
    (retries : Int) : (s.extract payload state).outcome ≠ .error (.negativeRetries retries) := by
  unfold extract
  dsimp only
  split
  · exact reject_ne_negativeRetries _ [] state retries
  · rename_i e _
    unfold extractFrom
    split
    · exact reject_ne_negativeRetries _ _ state retries
    · nofun
    · nofun
    · exact generate_ne_negativeRetries h e _ _ state retries

/-- A request is never refused for a number of retries that is not negative. -/
theorem answer_ne_negativeRetries (h : 0 ≤ s.settings.maxRetries) (request : Request) (state : σ)
    (retries : Int) : (s.answer request state).outcome ≠ .error (.negativeRetries retries) := by
  have hfully : (s.answerFully request state).outcome ≠ .error (.negativeRetries retries) := by
    unfold answerFully
    dsimp only
    split
    · split
      · unfold answerRoute
        split
        · nofun
        · exact Response.ofJson_ne_negativeRetries 200 s.health retries
        · split
          · exact Response.ofPayloadFault_ne_negativeRetries _ retries
          · exact extract_ne_negativeRetries h _ state retries
      · show Response.wrongMethod ≠ _
        rw [Response.wrongMethod]
        exact Response.ofJson_ne_negativeRetries _ _ retries
    · split
      · nofun
      · show Response.notFound ≠ _
        rw [Response.notFound]
        exact Response.ofJson_ne_negativeRetries _ _ retries
  unfold answer
  dsimp only
  split
  · intro hhead
    exact hfully (Results.map_eq_error_iff.1 hhead)
  · exact hfully

/-- What a service with loaded settings can rely on.  The retries are not negative and the level of
logging is a known one.  The wait is above zero, unless the sources say NaN, and then it is NaN.  No
run is refused, all attempts ask the generator, and no request escapes for its number of retries. -/
theorem loaded_wait_above_zero_unless_nan {sources : SettingSources} {settings : Settings}
    (h : Settings.load sources = .ok settings) (generator : Generator σ) (stack : Stack) :
    let service : Service σ := ⟨settings, generator, stack⟩
    0 ≤ settings.maxRetries ∧ settings.logLevel ∈ SettingFault.levels ∧
      (¬ sources.WaitIsNan →
        ∃ x : Binary64, settings.attemptTimeout = .seconds (.real x) ∧ x.AboveZero) ∧
      (sources.WaitIsNan → settings.attemptTimeout = .seconds (.real .nan)) ∧
      (∀ prompt validator state, ∃ run,
        generator.run? service.attemptRules prompt validator settings.maxRetries state =
          some run) ∧
      service.attemptRules.patience = settings.attemptTimeout ∧
      settings.attemptTimeout.onset = .asks ∧
      ∀ request state retries,
        (service.answer request state).outcome ≠ .error (.negativeRetries retries) := by
  intro service
  have hread := Settings.load_eq_ok_iff.1 h
  have hvalid := hread.valid
  refine ⟨hvalid.retries, hread.logLevel_mem, ?_, ?_, ?_, rfl, hvalid.onset_eq_asks, ?_⟩
  · intro hnan
    rcases hread.attemptTimeout_cases with ⟨hsaid, -⟩ | ⟨-, habove⟩
    · exact absurd hsaid hnan
    · exact habove
  · intro hnan
    rcases hread.attemptTimeout_cases with ⟨-, hs⟩ | ⟨hsaid, -⟩
    · exact hs
    · exact absurd hnan hsaid
  · intro prompt validator state
    exact generator.exists_run?_of_nonneg _ prompt validator hvalid.retries state
  · intro request state retries
    exact answer_ne_negativeRetries hvalid.retries request state retries

/-- A wait that is given goes before one of the environment, so the wait is above zero although the
environment says NaN. -/
theorem loaded_wait_above_zero_of_given_half :
    let sources : SettingSources :=
      ⟨[(text "STRUCTIFY_ATTEMPT_TIMEOUT", text "nan"), (text "structify_max_retries", text "0")],
        [(text "attempt_timeout", .string (text " 0.5"))]⟩
    let settings : Settings :=
      { Settings.standard with
        maxRetries := 0
        attemptTimeout := .seconds (.real (.finite false 0x10000000000000 (-53))) }
    let generator := Generator.ofSequence fun _ => .silent
    Settings.load sources = .ok settings ∧ ¬ sources.WaitIsNan ∧
      (∃ x : Binary64, settings.attemptTimeout = .seconds (.real x) ∧ x.AboveZero) ∧
      settings.attemptTimeout.onset = .asks ∧
      ∀ request retries,
        ((Service.mk settings generator .standard).answer request .start).outcome ≠
          .error (.negativeRetries retries) := by
  intro sources settings generator
  have hload : Settings.load sources = .ok settings := rfl
  have hnan : ¬ sources.WaitIsNan := by
    rintro ⟨v, hv, hreads⟩
    have hgiven : sources.value? (text "attempt_timeout") = some (.string (text " 0.5")) := rfl
    rw [hgiven] at hv
    cases hv
    have hnumber : Liberal.number (.string (text " 0.5")) =
        .ok (.finite false 0x10000000000000 (-53)) := rfl
    rw [Liberal.number_eq_nan_iff.2 hreads] at hnumber
    cases hnumber
  obtain ⟨-, -, habove, -, -, -, hasks, hanswer⟩ :=
    loaded_wait_above_zero_unless_nan hload generator .standard
  exact ⟨hload, hnan, habove hnan, hasks, fun request => hanswer request .start⟩

/-- A wait that is set to NaN is not refused, and it is not above zero. -/
theorem load_accepts_wait_of_nan :
    ∃ settings,
      Settings.load ⟨[(text "STRUCTIFY_ATTEMPT_TIMEOUT", text "nan")], []⟩ = .ok settings ∧
        ¬ ∃ x : Binary64, settings.attemptTimeout = .seconds (.real x) ∧ x.AboveZero := by
  refine ⟨{ Settings.standard with attemptTimeout := .seconds (.real .nan) }, rfl, ?_⟩
  rintro ⟨x, ⟨⟩, habove⟩
  cases habove

end Service

end ShapedJson
