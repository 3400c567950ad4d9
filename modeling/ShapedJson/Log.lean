import ShapedJson.Text.Basic

/-!
# Log records

A record has a level, the part of the service it comes from, and a message.
-/

namespace ShapedJson

/-- How grave a record is. -/
inductive LogLevel where
  | debug
  | info
  | warning
  | error
  deriving DecidableEq, Repr

/-- The name of a level. -/
def LogLevel.name : LogLevel → Text
  | .debug => text "DEBUG"
  | .info => text "INFO"
  | .warning => text "WARNING"
  | .error => text "ERROR"

/-- The parts of the service that write records. -/
inductive LogSource where
  | shapes
  | generation
  | provider
  | service
  deriving DecidableEq, Repr

/-- The name under which a part writes its records. -/
def LogSource.name : LogSource → Text
  | .shapes => text "src.core.shape_compiler"
  | .generation => text "src.core.generation"
  | .provider => text "src.services.generator"
  | .service => text "src.main"

/-- One record. -/
structure LogRecord where
  level : LogLevel
  source : LogSource
  message : Text
  deriving DecidableEq, Repr

end ShapedJson
