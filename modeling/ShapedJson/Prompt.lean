import ShapedJson.Json.Writer

/-!
# Prompts

The conversation with a generator: an instruction, one worked example, and the
prompt of the request.  A prompt holds the data and the description of the
shape, the latter as indented JSON.
-/

namespace ShapedJson

/-- A message of a conversation: its parts by name, in order. -/
structure Message where
  parts : List (Text × Json)
  deriving BEq, Repr

namespace Message

/-- A message of a role. -/
def say (role content : Text) : Message :=
  ⟨[(text "role", .string role), (text "content", .string content)]⟩

/-- The message as a JSON object. -/
def toJson (m : Message) : Json := .object m.parts

end Message

namespace Prompt

/-- The instruction at the start of a conversation. -/
def instruction : Text :=
  text "You are an AI that converts unstructured data into the attached JSON format.\n\n" ++
    text "You respond with nothing but valid JSON based on the input data.\n" ++
    text "Your output should DIRECTLY be valid JSON. Do not add any text before or after the JSON.\n" ++
    text "Begin your answer with \x7b and end it with \x7d.\n" ++
    text "Include every field of the expected format.\n" ++
    text "If you cannot determine the value of a field from the data, use null for that field."

/-- The prompt of a request. -/
def render (data : Text) (format : Json) : Text :=
  text "DATA: \n\"" ++ data ++ text "\"\n\n-----------\nExpected JSON format: " ++
    format.indented ++ text "\n\n-----------\nValid JSON output in expected format:"

/-- A description with nothing but a kind. -/
def typed (kind : String) : Json := .object [(text "type", .string (text kind))]

/-- The data of the worked example. -/
def exampleData : Text := text "John is 25 years old and studies computer science at university"

/-- The description of the worked example. -/
def exampleFormat : Json :=
  .object
    [(text "name", typed "string"), (text "age", typed "number"),
      (text "isStudent", typed "boolean"),
      (text "courses", .object
        [(text "type", .string (text "array")), (text "items", typed "string")])]

/-- The answer of the worked example. -/
def exampleAnswer : Json :=
  .object
    [(text "name", .string (text "John")), (text "age", .int 25),
      (text "isStudent", .bool true),
      (text "courses", .array [.string (text "computer science")])]

/-- The conversation that ends with a prompt. -/
def conversation (prompt : Text) : List Message :=
  [.say (text "system") instruction,
    .say (text "user") (render exampleData exampleFormat),
    .say (text "assistant") exampleAnswer.indented,
    .say (text "user") prompt]

end Prompt

end ShapedJson
