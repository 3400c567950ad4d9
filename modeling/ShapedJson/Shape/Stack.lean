import ShapedJson.Shape.Basic

/-!
# The stack

Nested values are gone through by nested calls, and the interpreter has room for
so many of them only.  How much room is left to a service depends on the
interpreter and on what called the service, so it is a parameter.  A value that
needs more than there is lets the interpreter fail, and nothing catches that
while a shape is compiled or a prompt is written.  Bodies and answers are read
within bounds of their own, and values are checked and sent that are no deeper
than a shape for which there was room.
-/

namespace ShapedJson

/-- What there may be no room for. -/
inductive Overflow where
  /-- To read a description. -/
  | reading
  /-- To show a kind that is refused. -/
  | refusing
  /-- To show a shape. -/
  | showing
  /-- To build the types that values of a shape are checked against. -/
  | building
  /-- To write a description into a prompt. -/
  | writing
  deriving DecidableEq, Repr

/-- The complaint of the interpreter.  A shape is shown by calls of several kinds, and most of them
are those that this complaint is about. -/
def Overflow.message (o : Overflow) : Text :=
  text "maximum recursion depth exceeded" ++
    match o with
    | .reading => text " in comparison"
    | .refusing | .showing => text " while getting the repr of an object"
    | .building | .writing => text " while calling a Python object"

namespace Shape

mutual

/-- How many nested calls it takes to show a shape.  A node takes three: one to show it and two of
its own.  The kind of a leaf takes one more, and the fields of an object are in two containers. -/
def showingCalls : Shape → Nat
  | .leaf _ => 4
  | .array item => showingCalls item + 3
  | .object fields => showingCallsOfFields fields + 5

/-- The nested calls for the fields of an object, whichever takes most. -/
def showingCallsOfFields : List (Text × Shape) → Nat
  | [] => 0
  | (_, s) :: rest => max (showingCalls s) (showingCallsOfFields rest)

end

end Shape

/-- The room that there is. -/
structure Stack where
  /-- How many steps from its root a node of a description can be read. -/
  reading : Nat
  /-- How many steps from the root of a description a part of a refused kind can be shown. -/
  refusing : Nat
  /-- How many nested calls there may be to show a shape. -/
  showing : Nat
  /-- Whether the types of a shape can be built. -/
  builds : Shape → Bool
  /-- How many steps from its root a part of a description can be written. -/
  writing : Nat

/-- About the room that the usual interpreter leaves: of a thousand nested calls, all but those that
it takes to call the service.  What can be shown is taken to be built as well. -/
def Stack.standard : Stack := ⟨900, 900, 900, fun _ => true, 900⟩

end ShapedJson
