import ShapedJson.Proofs.Fields
import ShapedJson.Proofs.Shape.Names
import ShapedJson.Shape.Violation

/-!
# Positions

The positions of a shape in a value are what one comes to when both are walked in parallel: at an
object the declared fields in the order of the shape, at a list the items by index, and nothing
below a place where the value is not of the form that its shape asks for.  They are told apart by
their places, when no object of the shape has two fields of one name.
-/

namespace ShapedJson

/-- A part of a shape, its place in a value, and what is found there, if anything. -/
structure Position where
  place : List Step
  shape : Shape
  found : Option Json

/-- The same position, seen from the value around. -/
def Position.under (step : Step) (p : Position) : Position := ⟨step :: p.place, p.shape, p.found⟩

namespace Shape

/-- Whether a value is of the form that a shape asks for, whatever its parts are. -/
def admits : Shape → Json → Bool
  | .leaf _, .null => true
  | .leaf .string, .string _ => true
  | .leaf .number, .number n => Json.numberIsFinite n
  | .leaf .boolean, .bool _ => true
  | .array _, .null => true
  | .array _, .array _ => true
  | .object _, .object _ => true
  | _, _ => false

end Shape

/-- Whether nothing is found at the position, or something of another form than its shape asks
for. -/
def Position.isFaulty (p : Position) : Bool :=
  match p.found with
  | none => true
  | some v => !p.shape.admits v

namespace Shape

/-- The position is come to when the shape and the value are walked in parallel. -/
inductive Reaches : Shape → Json → Position → Prop
  | here (s : Shape) (v : Json) : Reaches s v ⟨[], s, some v⟩
  | item {item : Shape} {items : List Json} {i : Nat} {v : Json} {p : Position}
      (get : items[i]? = some v) (inside : Reaches item v p) :
      Reaches (.array item) (.array items) (p.under (.item i))
  | field {fields : List (Text × Shape)} {given : List (Text × Json)} {k : Text} {s : Shape}
      {v : Json} {p : Position} (mem : (k, s) ∈ fields) (get : given.lookup k = some v)
      (inside : Reaches s v p) : Reaches (.object fields) (.object given) (p.under (.field k))
  | absent {fields : List (Text × Shape)} {given : List (Text × Json)} {k : Text} {s : Shape}
      (mem : (k, s) ∈ fields) (get : given.lookup k = none) :
      Reaches (.object fields) (.object given) ⟨[.field k], s, none⟩

/-- The first place comes before the second one: a value before its parts, items by index, and
fields in the order of the shape. -/
inductive Precedes : Shape → List Step → List Step → Prop
  | root (s : Shape) (step : Step) (place : List Step) : Precedes s [] (step :: place)
  | item (item : Shape) {i j : Nat} (before : i < j) (place place' : List Step) :
      Precedes (.array item) (.item i :: place) (.item j :: place')
  | insideItem {item : Shape} (i : Nat) {place place' : List Step}
      (inside : Precedes item place place') :
      Precedes (.array item) (.item i :: place) (.item i :: place')
  | field {fields : List (Text × Shape)} {k l : Text}
      (before : [k, l].Sublist (Fields.names fields)) (place place' : List Step) :
      Precedes (.object fields) (.field k :: place) (.field l :: place')
  | insideField {fields : List (Text × Shape)} {k : Text} {s : Shape} (mem : (k, s) ∈ fields)
      {place place' : List Step} (inside : Precedes s place place') :
      Precedes (.object fields) (.field k :: place) (.field k :: place')

mutual

/-- The positions of a shape in a value, in order. -/
def positions : Shape → Json → List Position
  | .leaf kind => fun v => [⟨[], .leaf kind, some v⟩]
  | .array item => fun v =>
    ⟨[], .array item, some v⟩ ::
      match v with
      | .array items =>
        items.zipIdx.flatMap fun (v, i) => (positions item v).map (Position.under (.item i))
      | _ => []
  | .object fields => fun v =>
    ⟨[], .object fields, some v⟩ ::
      match v with
      | .object given => positionsOfFields fields given
      | _ => []

/-- The positions of declared fields, in order. -/
def positionsOfFields : List (Text × Shape) → List (Text × Json) → List Position
  | [], _ => []
  | (k, s) :: rest, given =>
    (match given.lookup k with
      | none => [⟨[.field k], s, none⟩]
      | some v => (positions s v).map (Position.under (.field k))) ++
    positionsOfFields rest given

end

/-! ## Walking -/

section

variable {fields : List (Text × Shape)} {given : List (Text × Json)} {item : Shape}
  {items : List Json} {p : Position}

/-- The shape at a position is part of the shape. -/
theorem Reaches.distinct {s : Shape} (hs : s.Distinct) {v : Json} (h : s.Reaches v p) : p.shape.Distinct := by
  unfold Distinct at hs ⊢
  induction h with
  | here s v => exact hs
  | item get inside ih => exact ih (everyObject_array.1 hs)
  | field mem get inside ih => exact ih ((everyObject_object.1 hs).2 _ mem)
  | absent mem get => exact (everyObject_object.1 hs).2 _ mem

/-! ## Order -/

theorem Precedes.tail {f : Text × Shape} {place place' : List Step}
    (h : Precedes (.object fields) place place') : Precedes (.object (f :: fields)) place place' := by
  cases h with
  | root => exact .root _ _ _
  | field before => exact .field (before.cons _) _ _
  | insideField mem inside => exact .insideField (List.mem_cons_of_mem _ mem) inside

end

end Shape

end ShapedJson
