import ShapedJson.Prompt
import ShapedJson.Proofs.Json.Indented

/-!
# What a prompt says

The data stand in a prompt as they are, so they may hold anything, the words around them included.
All the same a prompt is the prompt of one request only: what follows the data starts with a blank
line, and no other blank line comes until the end of the description.
-/

namespace ShapedJson.Prompt

open Text (Lined lineBreak)

/-- The words between the blank line after the data and the description. -/
def label : Text := text "-----------\nExpected JSON format: "

/-- The words after the description. -/
def request : Text := text "\n\n-----------\nValid JSON output in expected format:"

/-- A prompt from its blank line after the data. -/
theorem render_eq (data : Text) (format : Json) :
    render data format = text "DATA: \n\"" ++
      ((data ++ text "\"") ++ lineBreak :: lineBreak :: (label ++ format.indented)) ++ request := by
  have hseparator : text "\"\n\n-----------\nExpected JSON format: " =
      text "\"" ++ lineBreak :: lineBreak :: label := rfl
  simp only [render, request, hseparator, List.append_assoc, List.cons_append]

theorem lined_label : Lined label := by
  have hlines : label = text "-----------" ++ lineBreak :: text "Expected JSON format: " := rfl
  rw [hlines, Text.lined_append_break_iff]
  exact ⟨Text.lined_of_unbroken (by decide) (by decide),
    Text.lined_of_unbroken (by decide) (by decide)⟩

variable {digitLimit : Nat} {data data' : Text} {format format' : Json}

/-- Two requests have one prompt only when they have the same data and the same description, its
fields in the same order at every depth. -/
theorem render_eq_render_iff (h : format.Plain digitLimit) (h' : format'.Plain digitLimit) :
    render data format = render data' format' ↔ data = data' ∧ format = format' := by
  constructor
  · intro heq
    rw [render_eq, render_eq] at heq
    have hparts := List.append_cancel_left (List.append_cancel_right heq)
    obtain ⟨hdata, hformat⟩ := Text.eq_of_append_blank_eq
      (lined_label.append (Json.lined_write h.floatFree 0))
      (lined_label.append (Json.lined_write h'.floatFree 0)) hparts
    exact ⟨List.append_cancel_right hdata,
      Json.indented_injective h h' (List.append_cancel_left hformat)⟩
  · rintro ⟨rfl, rfl⟩
    rfl

/-- Data that hold the words around them and a description of their own make no prompt for that
description. -/
theorem render_ne_of_copied_words :
    let format : Json := .object []
    let format' : Json := .object [(text "a", .array [.int 1, .string (text "\n\n")])]
    let copied := text "x\"\n\n-----------\nExpected JSON format: \x7b\x7d" ++ request ++ text "y"
    render (text "x") format ≠ render copied format' := by
  intro format format' copied heq
  have hplain : format.Plain 1 :=
    ⟨.object _ List.nodup_nil nofun, .object _ trivial nofun, Json.encodable_object.2 nofun⟩
  have hplain' : format'.Plain 1 := by
    have hshort : (Number.whole 1).Short 1 := show (Text.ofNat 1).length ≤ 1 by decide
    have hnumber : (Json.number (.whole 1)).Encodable := .number _ trivial
    refine ⟨?_, ?_, ?_⟩
    · simp [Json.Regular, Fields.names, Json.int, hshort, format']
    · simp [Json.FloatFree, Json.int, format']
    · simp [Json.encodable_object, Json.encodable_array, Json.encodable_string, Json.int, hnumber,
        format']
  have hdata := ((render_eq_render_iff hplain hplain').1 heq).1
  exact absurd hdata (by decide)

end ShapedJson.Prompt
