import ShapedJson.Failure

/-!
# Errors that a generator raises

A generator may raise an error of any class.  What matters is whether it is a
failed transport or an expired wait, and else its class and its message.  The
message comes from the arguments: none, the one, or all of them in parentheses;
system errors put a number in front and take their class from it.
-/

namespace ShapedJson

/-- An error as a caller of the generator sees it. -/
inductive Raised where
  /-- A transport failure of the service itself. -/
  | transport (reason : Text)
  /-- The end of a wait, with its message. -/
  | timeout (message : Text)
  /-- Any other error, by its class and message. -/
  | other (name message : Text)
  deriving DecidableEq, Repr

namespace Raised

/-- The class of an error. -/
def name : Raised → Text
  | .transport reason => Failure.name (.transport reason)
  | .timeout _ => text "TimeoutError"
  | .other name _ => name

/-- The message of an error. -/
def message : Raised → Text
  | .transport reason => Failure.message (.transport reason)
  | .timeout message => message
  | .other _ message => message

/-- Class and message in one line. -/
def summary (e : Raised) : Text := e.name ++ text ": " ++ e.message

/-- A failure of the service that a generator raises. -/
def ofFailure : Failure → Raised
  | .transport reason => .transport reason
  | failure => .other failure.name failure.message

/-- An argument by itself. -/
def argumentText : Json → Text
  | .string s => s
  | v => v.inline

/-- The message that arguments make. -/
def messageOf : List Json → Text
  | [] => []
  | [v] => argumentText v
  | vs => text "(" ++ Text.join (text ", ") (vs.map Json.inline) ++ text ")"

/-- The message that the arguments of a system error make: a number and a text,
and the names of the files that it is about. -/
def systemMessage : List Json → Text
  | [number, what] => numbered number what
  | [number, what, file] => numbered number what ++ about file
  | [number, what, file, _] => numbered number what ++ about file
  | [number, what, file, _, target] => numbered number what ++ about file ++ towards target
  | vs => messageOf vs
where
  numbered (number what : Json) : Text :=
    text "[Errno " ++ argumentText number ++ text "] " ++ argumentText what
  about : Json → Text
    | .null => []
    | file => text ": " ++ file.inline
  towards : Json → Text
    | .null => []
    | file => text " -> " ++ file.inline

/-- The classes of system errors. -/
def systemClasses : List Text :=
  [text "OSError", text "BlockingIOError", text "ChildProcessError", text "ConnectionError",
    text "BrokenPipeError", text "ConnectionAbortedError", text "ConnectionRefusedError",
    text "ConnectionResetError", text "FileExistsError", text "FileNotFoundError",
    text "InterruptedError", text "IsADirectoryError", text "NotADirectoryError",
    text "PermissionError", text "ProcessLookupError", text "TimeoutError"]

/-- The class of a system error of a number. -/
def systemClass (number : Int) : Text :=
  if number = 11 ∨ number = 114 ∨ number = 115 then text "BlockingIOError"
  else if number = 32 ∨ number = 108 then text "BrokenPipeError"
  else if number = 10 then text "ChildProcessError"
  else if number = 103 then text "ConnectionAbortedError"
  else if number = 111 then text "ConnectionRefusedError"
  else if number = 104 then text "ConnectionResetError"
  else if number = 17 then text "FileExistsError"
  else if number = 2 then text "FileNotFoundError"
  else if number = 4 then text "InterruptedError"
  else if number = 21 then text "IsADirectoryError"
  else if number = 20 then text "NotADirectoryError"
  else if number = 1 ∨ number = 13 then text "PermissionError"
  else if number = 3 then text "ProcessLookupError"
  else if number = 110 then text "TimeoutError"
  else text "OSError"

/-- The class of an error raised with arguments: a system error of the general
class takes the class of its number. -/
def classOf (name : Text) (arguments : List Json) : Text :=
  if name = text "OSError" ∨ name = text "IOError" ∨ name = text "EnvironmentError" then
    match arguments with
    | .number (.whole n) :: _ :: _ => systemClass n
    | _ => text "OSError"
  else name

/-- The error of a class that is raised with arguments. -/
def ofArguments (name : Text) (arguments : List Json) : Raised :=
  let name := classOf name arguments
  if name = text "StopIteration" then
    .other (text "RuntimeError") (text "coroutine raised StopIteration")
  else if name = text "KeyError" then
    match arguments with
    | [v] => .other name v.inline
    | vs => .other name (messageOf vs)
  else
    let message := if systemClasses.contains name then systemMessage arguments else messageOf arguments
    if name = text "TimeoutError" then .timeout message else .other name message

end Raised

end ShapedJson
