import ShapedJson.Shape.Check

/-!
# Schemas

A schema is what a shape is turned into before anything is checked: a leaf or a
list that may be null, or a record.  A slot of a record has a plain name, given by
its place, and stands for the exact key of a field, so that a field may have any
key.  Values are taken and given out under the keys; in between they stand under
the plain names.
-/

namespace ShapedJson

/-- A slot of a record: its plain name, the key it stands for, and what it holds. -/
structure Slot (α : Type) where
  name : Text
  key : Text
  content : α
  deriving Repr

/-- The name and the key of a slot. -/
def Slot.label {α : Type} (s : Slot α) : Text × Text := (s.name, s.key)

/-- What values are checked against. -/
inductive Schema where
  | leaf (kind : Leaf)
  | list (item : Schema)
  | record (slots : List (Slot Schema))
  deriving Repr, Inhabited

/-- A value that has passed a schema.  A record keeps the labels of its slots and
holds its entries under their plain names. -/
inductive Instance where
  | plain (v : Json)
  | list (items : List Instance)
  | record (labels : List (Text × Text)) (entries : List (Text × Instance))
  deriving Repr, Inhabited

namespace Schema

mutual

/-- Check a value and keep what the schema declares. -/
def validate : Schema → Json → Gathered Violation Instance
  | .leaf kind => fun v => (Shape.checkLeaf kind v).map .plain
  | .list item => fun v =>
    match v with
    | .null => .ok (.plain .null)
    | .array items => (Shape.checkEach (validate item) 0 items).map .list
    | _ => .error [⟨[], .notList⟩]
  | .record slots => fun v =>
    match v with
    | .object given => (validateSlots slots given).map (.record (slots.map Slot.label))
    | _ => .error [⟨[], .notObject⟩]

/-- Fill the slots, each from the value under its key. -/
def validateSlots :
    List (Slot Schema) → List (Text × Json) → Gathered Violation (List (Text × Instance))
  | [], _ => .ok []
  | ⟨name, key, content⟩ :: rest, given =>
    let first : Gathered Violation Instance :=
      match given.lookup key with
      | none => .error [⟨[.field key], .missingField⟩]
      | some v => Violation.shift (.field key) (validate content v)
    Gathered.apply (first.map fun i => List.cons (name, i)) (validateSlots rest given)

end

end Schema

namespace Instance

/-- Entries under the keys instead of the plain names, in the order of the labels. -/
def relabel (labels : List (Text × Text)) (entries : List (Text × Json)) : List (Text × Json) :=
  labels.filterMap fun l => (entries.lookup l.1).map fun v => (l.2, v)

mutual

/-- The value that an instance stands for. -/
def dump : Instance → Json
  | .plain v => v
  | .list items => .array (dumpItems items)
  | .record labels entries => .object (relabel labels (dumpEntries entries))

/-- The values that items stand for. -/
def dumpItems : List Instance → List Json
  | [] => []
  | i :: rest => dump i :: dumpItems rest

/-- The values that entries stand for, under their plain names. -/
def dumpEntries : List (Text × Instance) → List (Text × Json)
  | [] => []
  | (name, i) :: rest => (name, dump i) :: dumpEntries rest

end

end Instance

namespace Shape

/-- The plain name of the slot at a place. -/
def slotName (index : Nat) : Text := text "field_" ++ Text.ofNat index

mutual

/-- The schema of a shape. -/
def schema : Shape → Schema
  | .leaf kind => .leaf kind
  | .array item => .list (schema item)
  | .object fields => .record (slotsFrom 0 fields)

/-- The slots of fields, the first of which stands at the given place. -/
def slotsFrom : Nat → List (Text × Shape) → List (Slot Schema)
  | _, [] => []
  | index, (k, s) :: rest => ⟨slotName index, k, schema s⟩ :: slotsFrom (index + 1) rest

end

end Shape

end ShapedJson
