import Mathlib.Data.List.Perm.Subperm
import ShapedJson.Proofs.Fields
import ShapedJson.Proofs.Json.Traits

/-!
# Values up to the order of fields

Two lists of fields that have the same names, in whatever order, and related values under each
name; and two values that differ in nothing but the order of fields, at any depth.
-/

namespace ShapedJson

namespace Fields

variable {α β : Type} {r : α → β → Prop} {fs : List (Text × α)} {gs : List (Text × β)} {name : Text}

/-- The same names, in whatever order, and related values under each. -/
structure Rearranges (r : α → β → Prop) (fs : List (Text × α)) (gs : List (Text × β)) : Prop where
  names : (names fs).Perm (names gs)
  each : ∀ name a b, fs.lookup name = some a → gs.lookup name = some b → r a b

theorem Rearranges.exists_right (h : Rearranges r fs gs) {a : α} (ha : fs.lookup name = some a) :
    ∃ b, gs.lookup name = some b ∧ r a b := by
  obtain ⟨b, hb⟩ := mem_names_iff.1 (h.names.mem_iff.1 (mem_names_iff.2 ⟨a, ha⟩))
  exact ⟨b, hb, h.each name a b ha hb⟩

theorem Rearranges.exists_left (h : Rearranges r fs gs) {b : β} (hb : gs.lookup name = some b) :
    ∃ a, fs.lookup name = some a ∧ r a b := by
  obtain ⟨a, ha⟩ := mem_names_iff.1 (h.names.mem_iff.2 (mem_names_iff.2 ⟨b, hb⟩))
  exact ⟨a, ha, h.each name a b ha hb⟩

theorem Rearranges.lookup_eq_none_iff (h : Rearranges r fs gs) :
    fs.lookup name = none ↔ gs.lookup name = none := by
  rw [Fields.lookup_eq_none_iff, Fields.lookup_eq_none_iff, h.names.mem_iff]

/-- Fields with distinct names that are no rearrangement of others differ in a name or under one. -/
theorem exists_of_not_rearranges (hfs : (names fs).Nodup) (hgs : (names gs).Nodup)
    (h : ¬ Rearranges r fs gs) :
    (∃ name b, fs.lookup name = none ∧ gs.lookup name = some b) ∨
      (∃ name a, fs.lookup name = some a ∧ gs.lookup name = none) ∨
      ∃ name a b, fs.lookup name = some a ∧ gs.lookup name = some b ∧ ¬ r a b := by
  by_contra hnone
  obtain ⟨hleft, hright, heach⟩ : _ ∧ _ ∧ _ := by simpa only [not_or] using hnone
  refine h ⟨(List.perm_ext_iff_of_nodup hfs hgs).2 fun name => ?_, fun name a b ha hb => ?_⟩
  · rw [mem_names_iff, mem_names_iff]
    cases ha : fs.lookup name with
    | none =>
        cases hb : gs.lookup name with
        | none => simp
        | some b => exact absurd ⟨name, b, ha, hb⟩ hleft
    | some a =>
        cases hb : gs.lookup name with
        | none => exact absurd ⟨name, a, ha, hb⟩ hright
        | some b => simp
  · exact not_not.1 fun hr => heach ⟨name, a, b, ha, hb, hr⟩

/-- Distinct names that are all among as many others are those others. -/
theorem perm_of_subset (hnodup : (names fs).Nodup) (hlength : fs.length = gs.length)
    (h : ∀ name ∈ names fs, name ∈ names gs) : (names fs).Perm (names gs) :=
  (hnodup.subperm h).perm_of_length_le (by simp [names, hlength])

end Fields

namespace Json

/-- The two values differ at most in the order of fields. -/
inductive Rearranged : Json → Json → Prop
  | null : Rearranged .null .null
  | bool (b : Bool) : Rearranged (.bool b) (.bool b)
  | number (n : Number) : Rearranged (.number n) (.number n)
  | string (s : Text) : Rearranged (.string s) (.string s)
  | array {items items' : List Json} (length : items.length = items'.length)
      (each : ∀ (i : Nat) (v w : Json), items[i]? = some v → items'[i]? = some w →
        Rearranged v w) :
      Rearranged (.array items) (.array items')
  | object {fields fields' : List (Text × Json)}
      (names : (Fields.names fields).Perm (Fields.names fields'))
      (each : ∀ name v w, fields.lookup name = some v → fields'.lookup name = some w →
        Rearranged v w) :
      Rearranged (.object fields) (.object fields')

theorem Rearranged.refl (v : Json) : v.Rearranged v := by
  induction v with
  | null => exact .null
  | bool b => exact .bool b
  | number n => exact .number n
  | string s => exact .string s
  | array items ih =>
      refine .array rfl fun i v w hv hw => ?_
      obtain rfl := Option.some.inj (hv.symm.trans hw)
      exact ih v (List.mem_of_getElem? hv)
  | object fields ih =>
      refine .object (List.Perm.refl _) fun name v w hv hw => ?_
      obtain rfl := Option.some.inj (hv.symm.trans hw)
      exact ih _ (Fields.mem_of_lookup_eq_some hv)

theorem Rearranged.symm {v w : Json} (h : v.Rearranged w) : w.Rearranged v := by
  induction h with
  | null => exact .null
  | bool b => exact .bool b
  | number n => exact .number n
  | string s => exact .string s
  | array length each ih => exact .array length.symm fun i v w hv hw => ih i w v hw hv
  | object names each ih => exact .object names.symm fun name v w hv hw => ih name w v hw hv

/-- Names that are distinct stay so in another order. -/
theorem Rearranged.distinct {v w : Json} (h : v.Rearranged w) (hv : v.Distinct) : w.Distinct := by
  unfold Distinct at hv ⊢
  induction h with
  | null | bool | number | string => exact hv
  | @array items items' length each ih =>
      rw [every_array] at hv ⊢
      intro w hw
      obtain ⟨i, hi⟩ := List.mem_iff_getElem?.1 hw
      obtain ⟨hlt, -⟩ := List.getElem?_eq_some_iff.1 hi
      have hv' := List.getElem?_eq_getElem (length.symm ▸ hlt)
      exact ih i _ w hv' hi (hv _ (List.mem_of_getElem? hv'))
  | @object fields fields' names each ih =>
      rw [every_object] at hv ⊢
      have hnodup := names.nodup_iff.1 hv.1
      refine ⟨hnodup, fun f hf => ?_⟩
      have hlookup := Fields.lookup_of_mem hnodup hf
      obtain ⟨w, hw, -⟩ := Fields.Rearranges.exists_left ⟨names, each⟩ hlookup
      exact ih f.1 w f.2 hw hlookup (hv.2 _ (Fields.mem_of_lookup_eq_some hw))

end Json

end ShapedJson
