import ShapedJson.Proofs.Results
import ShapedJson.Settings.Load

/-!
# Settings that are loaded

Settings are loaded just when nothing unknown is given and every one of them is what its own
reading makes of its source.  So a service can rely on this: the retries are not negative, the wait
is a binary fraction that is not zero or less, and the level of logging is a known one.
-/

namespace ShapedJson

namespace Gathered

variable {ε α β : Type}

theorem barring_eq_ok_iff {errors : List ε} {r : Gathered ε α} {a : α} :
    barring errors r = .ok a ↔ errors = [] ∧ r = .ok a := by
  cases r <;> cases errors <;> simp [barring]

theorem supply_eq_ok_iff {a : Gathered ε α} {f : Gathered ε (α → β)} {b : β} :
    supply a f = .ok b ↔ ∃ g x, f = .ok g ∧ a = .ok x ∧ g x = b :=
  apply_eq_ok_iff

end Gathered

/-- A setting is the standard one where there is no value for it, and else what is read from the
value. -/
theorem SettingSources.readSetting_eq_ok_iff {α : Type} {s : SettingSources} {setting : Text}
    {standard a : α} {reading : Json → Except SettingFault α} :
    s.readSetting setting standard reading = .ok a ↔
      (s.value? setting = none ∧ a = standard) ∨
        ∃ v, s.value? setting = some v ∧ reading v = .ok a := by
  unfold readSetting
  cases s.value? setting with
  | none => simp [eq_comm]
  | some v => simp [Results.mapError_eq_ok_iff]

namespace Settings

/-! ## Readings with a rule of their own -/

theorem retries_eq_ok_iff {v : Json} {n : Int} :
    retries v = .ok n ↔ Liberal.whole v = .ok n ∧ 0 ≤ n := by
  unfold retries
  rw [Results.bind_eq_ok_iff]
  constructor
  · rintro ⟨m, hm, h⟩
    split at h
    · cases h
    · cases h
      exact ⟨hm, by omega⟩
  · rintro ⟨hn, hnonneg⟩
    exact ⟨n, hn, if_neg (by omega)⟩

theorem timeout_eq_ok_iff {v : Json} {p : Patience} :
    timeout v = .ok p ↔
      ∃ x, Liberal.number v = .ok x ∧ x.isNonpositive = false ∧ p = .seconds (.real x) := by
  unfold timeout
  rw [Results.bind_eq_ok_iff]
  refine exists_congr fun x => and_congr_right fun _ => ?_
  cases x.isNonpositive <;> simp [eq_comm]

theorem level_eq_ok_iff {v : Json} {name : Text} :
    level v = .ok name ↔
      ∃ given, Liberal.string v = .ok given ∧ given.map capital = name ∧
        name ∈ SettingFault.levels := by
  unfold level
  rw [Results.bind_eq_ok_iff]
  refine exists_congr fun given => and_congr_right fun _ => ?_
  dsimp only
  constructor
  · intro h
    split at h
    · rename_i hmem
      cases h
      exact ⟨rfl, List.contains_iff_mem.1 hmem⟩
    · cases h
  · rintro ⟨rfl, hmem⟩
    exact if_pos (List.contains_iff_mem.2 hmem)

/-! ## All settings together -/

/-- The settings are what the sources give: nothing that is given is unknown, and each setting is
what its reading makes of its value. -/
structure ReadFrom (s : Settings) (sources : SettingSources) : Prop where
  known : unknown sources = []
  model : sources.readSetting (text "model") standard.model Liberal.string = .ok s.model
  apiKey : sources.readSetting (text "openai_api_key") standard.apiKey
    (Liberal.optional Liberal.string) = .ok s.apiKey
  temperature : sources.readSetting (text "temperature") standard.temperature
    (Liberal.optional fun v => (Liberal.number v).map .real) = .ok s.temperature
  jsonMode : sources.readSetting (text "json_mode") standard.jsonMode Liberal.boolean =
    .ok s.jsonMode
  maxRetries : sources.readSetting (text "max_retries") standard.maxRetries retries =
    .ok s.maxRetries
  attemptTimeout : sources.readSetting (text "attempt_timeout") standard.attemptTimeout timeout =
    .ok s.attemptTimeout
  stripCodeFences : sources.readSetting (text "strip_code_fences") standard.stripCodeFences
    Liberal.boolean = .ok s.stripCodeFences
  maxShapeDepth : sources.readSetting (text "max_shape_depth") standard.maxShapeDepth
    Liberal.whole = .ok s.maxShapeDepth
  logLevel : sources.readSetting (text "log_level") standard.logLevel level = .ok s.logLevel

theorem load_eq_ok_iff {sources : SettingSources} {s : Settings} :
    load sources = .ok s ↔ s.ReadFrom sources := by
  unfold load
  simp only [Gathered.barring_eq_ok_iff, Gathered.supply_eq_ok_iff]
  constructor
  · -- the readings are taken off from the last one to the first
    rintro ⟨known, _, _, ⟨_, _, ⟨_, _, ⟨_, _, ⟨_, _, hrest, maxRetries, rfl⟩, attemptTimeout, rfl⟩,
      stripCodeFences, rfl⟩, maxShapeDepth, rfl⟩, logLevel, rfl⟩
    obtain ⟨_, _, ⟨_, _, ⟨_, _, ⟨_, _, ⟨⟩, model, rfl⟩, apiKey, rfl⟩, temperature, rfl⟩, jsonMode,
      rfl⟩ := hrest
    exact ⟨known, model, apiKey, temperature, jsonMode, maxRetries, attemptTimeout,
      stripCodeFences, maxShapeDepth, logLevel⟩
  · intro h
    exact ⟨h.known, _, _, ⟨_, _, ⟨_, _, ⟨_, _, ⟨_, _, ⟨_, _, ⟨_, _, ⟨_, _, ⟨_, _, rfl,
      h.model, rfl⟩, h.apiKey, rfl⟩, h.temperature, rfl⟩, h.jsonMode, rfl⟩, h.maxRetries, rfl⟩,
      h.attemptTimeout, rfl⟩, h.stripCodeFences, rfl⟩, h.maxShapeDepth, rfl⟩, h.logLevel, rfl⟩

/-- The settings that a service can run with. -/
structure Valid (s : Settings) : Prop where
  retries : 0 ≤ s.maxRetries
  timeout : ∃ x : Binary64, s.attemptTimeout = .seconds (.real x) ∧ x.isNonpositive = false

theorem valid_standard : standard.Valid :=
  ⟨by decide, .ofInt 60, rfl, by decide +kernel⟩

namespace ReadFrom

variable {s : Settings} {sources : SettingSources}

/-- Whatever the sources give is valid. -/
theorem valid (h : s.ReadFrom sources) : s.Valid := by
  constructor
  · rcases SettingSources.readSetting_eq_ok_iff.1 h.maxRetries with ⟨-, hs⟩ | ⟨v, -, hv⟩
    · rw [hs]
      exact valid_standard.retries
    · exact (retries_eq_ok_iff.1 hv).2
  · rcases SettingSources.readSetting_eq_ok_iff.1 h.attemptTimeout with ⟨-, hs⟩ | ⟨v, -, hv⟩
    · rw [hs]
      exact valid_standard.timeout
    · obtain ⟨x, -, hx, hs⟩ := timeout_eq_ok_iff.1 hv
      exact ⟨x, hs, hx⟩

theorem logLevel_mem (h : s.ReadFrom sources) : s.logLevel ∈ SettingFault.levels := by
  rcases SettingSources.readSetting_eq_ok_iff.1 h.logLevel with ⟨-, hs⟩ | ⟨v, -, hv⟩
  · rw [hs]
    decide
  · obtain ⟨given, -, -, hmem⟩ := level_eq_ok_iff.1 hv
    exact hmem

end ReadFrom

end Settings

end ShapedJson
