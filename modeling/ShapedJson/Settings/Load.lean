import ShapedJson.Settings.Basic
import ShapedJson.Settings.Liberal
import ShapedJson.Gathered

/-!
# Loading settings

A setting is taken from what is given, else from the environment, else from the
standard.  Names of the environment carry a mark in front.  Names are the same in
either case of their letters.  All faults are told together: those of settings in
the order of the settings, then unknown names in the order in which they are
given.
-/

namespace ShapedJson

namespace SettingFault

/-- The levels of logging. -/
def levels : List Text :=
  [text "CRITICAL", text "ERROR", text "WARNING", text "INFO", text "DEBUG", text "NOTSET"]

/-- The kind of a fault. -/
def kind : SettingFault → Text
  | .notString => text "string_type"
  | .notWhole => text "int_type"
  | .fractional => text "int_from_float"
  | .unreadableWhole => text "int_parsing"
  | .oversizedWhole => text "int_parsing_size"
  | .notFinite => text "finite_number"
  | .notNumber => text "float_type"
  | .unreadableNumber => text "float_parsing"
  | .notBoolean => text "bool_type"
  | .unreadableBoolean => text "bool_parsing"
  | .negativeRetries | .nonpositiveTimeout | .unknownLevel _ => text "value_error"
  | .unknownSetting => text "extra_forbidden"

/-- A fault in words. -/
def message : SettingFault → Text
  | .notString => text "Input should be a valid string"
  | .notWhole => text "Input should be a valid integer"
  | .fractional => text "Input should be a valid integer, got a number with a fractional part"
  | .unreadableWhole =>
    text "Input should be a valid integer, unable to parse string as an integer"
  | .oversizedWhole =>
    text "Unable to parse input string as an integer, exceeded maximum size"
  | .notFinite => text "Input should be a finite number"
  | .notNumber => text "Input should be a valid number"
  | .unreadableNumber => text "Input should be a valid number, unable to parse string as a number"
  | .notBoolean => text "Input should be a valid boolean"
  | .unreadableBoolean => text "Input should be a valid boolean, unable to interpret input"
  | .negativeRetries => text "Value error, max_retries must be non-negative"
  | .nonpositiveTimeout => text "Value error, attempt_timeout must be positive"
  | .unknownLevel given =>
    text "Value error, log_level must be one of " ++ Text.join (text ", ") levels ++
      text ", got " ++ given.quoted
  | .unknownSetting => text "Extra inputs are not permitted"

end SettingFault

/-- A fault and the setting that it is about. -/
structure SettingError where
  setting : Text
  fault : SettingFault
  deriving DecidableEq, Repr

/-- How the environment is read. -/
structure EnvironmentRules where
  /-- What stands in front of the name of a setting. -/
  mark : Text
  /-- Whether the case of letters counts. -/
  matchesCase : Bool
  /-- Whether an empty value is none at all. -/
  ignoresEmpty : Bool
  /-- The text that stands for null. -/
  nullText : Option Text
  deriving DecidableEq, Repr

/-- Where settings come from: the environment and what is given directly.  Rules
for the environment are given among the settings. -/
structure SettingSources where
  environment : List (Text × Text)
  given : List (Text × Json)

namespace SettingSources

/-- The small letter of a code point; the sign for kelvin is the only one beyond
ASCII whose small letter is one of ASCII. -/
def lowered (c : CodePoint) : CodePoint := if c.val = 0x212A then 'k' else c.lower

/-- The names of the rules for sources. -/
def ruleNames : List Text :=
  [text "_env_prefix", text "_case_sensitive", text "_env_ignore_empty",
    text "_env_parse_none_str", text "_env_parse_enums", text "_env_nested_delimiter",
    text "_env_nested_max_split", text "_env_file", text "_env_file_encoding",
    text "_env_prefix_target", text "_nested_model_default_partial_update",
    text "_secrets_dir", text "_build_sources", text "_cli_prog_name", text "_cli_parse_args",
    text "_cli_settings_source", text "_cli_parse_none_str", text "_cli_hide_none_type",
    text "_cli_avoid_json", text "_cli_enforce_required",
    text "_cli_use_class_docs_for_groups", text "_cli_exit_on_error", text "_cli_prefix",
    text "_cli_flag_prefix_char", text "_cli_implicit_flags", text "_cli_ignore_unknown_args",
    text "_cli_kebab_case", text "_cli_shortcuts"]

/-- The rules for the environment, the standard ones where none are given. -/
def rules (s : SettingSources) : EnvironmentRules where
  mark :=
    match s.given.lookup (text "_env_prefix") with
    | some (.string mark) => mark
    | _ => text "STRUCTIFY_"
  matchesCase := s.given.lookup (text "_case_sensitive") == some (.bool true)
  ignoresEmpty := s.given.lookup (text "_env_ignore_empty") == some (.bool true)
  nullText :=
    match s.given.lookup (text "_env_parse_none_str") with
    | some (.string t) => some t
    | _ => none

/-- The last value in the environment for a setting. -/
def ofEnvironment? (s : SettingSources) (setting : Text) : Option Text :=
  let key (name : Text) : Text := if s.rules.matchesCase then name else name.map lowered
  (s.environment.findRev? fun e =>
    key e.1 == key (s.rules.mark ++ setting) && !(s.rules.ignoresEmpty && e.2.isEmpty)).map
      Prod.snd

/-- The value given for a setting.  A name in other letters than those of the
setting goes before the name itself, and the last of several such names counts. -/
def given? (s : SettingSources) (setting : Text) : Option Json :=
  ((s.given.findRev? fun g => g.1 != setting && g.1.map lowered == setting).map Prod.snd).or
    (s.given.lookup setting)

/-- The value for a setting, if there is one. -/
def value? (s : SettingSources) (setting : Text) : Option Json :=
  (s.given? setting).or <| (s.ofEnvironment? setting).map fun t =>
    if s.rules.nullText = some t then .null else .string t

/-- The reading of a setting, the standard where it is not set. -/
def readSetting {α : Type} (s : SettingSources) (setting : Text) (standard : α)
    (reading : Json → Except SettingFault α) : Gathered SettingError α :=
  match s.value? setting with
  | none => .ok standard
  | some v => (reading v).mapError fun fault => [⟨setting, fault⟩]

end SettingSources

namespace Settings

/-- The names of the settings, in order. -/
def names : List Text :=
  [text "model", text "openai_api_key", text "temperature", text "json_mode",
    text "max_retries", text "attempt_timeout", text "strip_code_fences",
    text "max_shape_depth", text "log_level"]

/-- The capital of a letter, where it is one of A to Z; the dotless i and the
long s are the two letters beyond ASCII that have such a capital. -/
def capital (c : CodePoint) : CodePoint :=
  if c.val = 0x131 then 'I' else if c.val = 0x17F then 'S' else c.upper

/-- A number of retries, which must not be negative. -/
def retries (v : Json) : Except SettingFault Int := do
  let n ← Liberal.whole v
  if n < 0 then .error .negativeRetries else .ok n

/-- A wait, which must not be zero or less. -/
def timeout (v : Json) : Except SettingFault Patience := do
  let x ← Liberal.number v
  if x.isNonpositive then .error .nonpositiveTimeout else .ok (.seconds (.real x))

/-- A level of logging in capitals. -/
def level (v : Json) : Except SettingFault Text := do
  let given ← Liberal.string v
  let name := given.map capital
  if SettingFault.levels.contains name then .ok name else .error (.unknownLevel given)

/-- The names among those given that neither a setting nor a rule has. -/
def unknown (s : SettingSources) : List SettingError :=
  (s.given.filter fun g =>
    !names.contains (g.1.map SettingSources.lowered) &&
      !SettingSources.ruleNames.contains g.1).map fun g => ⟨g.1, .unknownSetting⟩

/-- The settings that the sources give, or every fault in them. -/
def load (s : SettingSources) : Gathered SettingError Settings :=
  let d := standard
  Gathered.barring (unknown s) <|
    (Except.ok Settings.mk : Gathered SettingError _)
      |> Gathered.supply (s.readSetting (text "model") d.model Liberal.string)
      |> Gathered.supply (s.readSetting (text "openai_api_key") d.apiKey (Liberal.optional Liberal.string))
      |> Gathered.supply (s.readSetting (text "temperature") d.temperature
        (Liberal.optional fun v => (Liberal.number v).map .real))
      |> Gathered.supply (s.readSetting (text "json_mode") d.jsonMode Liberal.boolean)
      |> Gathered.supply (s.readSetting (text "max_retries") d.maxRetries retries)
      |> Gathered.supply (s.readSetting (text "attempt_timeout") d.attemptTimeout timeout)
      |> Gathered.supply (s.readSetting (text "strip_code_fences") d.stripCodeFences Liberal.boolean)
      |> Gathered.supply (s.readSetting (text "max_shape_depth") d.maxShapeDepth Liberal.whole)
      |> Gathered.supply (s.readSetting (text "log_level") d.logLevel level)

end Settings

end ShapedJson
