import Mathlib.Data.List.Induction
import Mathlib.Order.Fin.Basic
import ShapedJson.Fields

/-!
# Fields of one name

A field is found under its name when no name stands twice.  Of the fields that are given under one
name the last value stays, at the place where the name first comes up.  This says which fields stay
without a way to find them; setting the given fields one after another leaves just these.
-/

namespace ShapedJson.Fields

variable {α : Type} {given fields : List (Text × α)}

/-- The fields that stay of those given: each name where it first comes up, with its last value. -/
structure Merges (given fields : List (Text × α)) : Prop where
  order : names fields = (names given).eraseDups
  last : ∀ name, fields.lookup name = given.reverse.lookup name

theorem distinct_concat (given : List (Text × α)) (f : Text × α) :
    distinct (given ++ [f]) = put f.1 f.2 (distinct given) := by
  simp [distinct]

theorem names_put (key : Text) (value : α) (fields : List (Text × α)) :
    names (put key value fields) = if key ∈ names fields then names fields else names fields ++ [key] := by
  split
  · rename_i h
    exact names_put_of_mem h value
  · rename_i h
    rw [put_of_not_mem h, names, List.map_append]
    rfl

theorem eraseDups_concat (ks : List Text) (k : Text) :
    (ks ++ [k]).eraseDups = if k ∈ ks then ks.eraseDups else ks.eraseDups ++ [k] := by
  rw [List.eraseDups_append]
  split <;> rename_i h <;> simp [List.removeAll, h, List.eraseDups_cons]

/-- Setting the given fields in turn leaves the fields that stay. -/
theorem merges_distinct (given : List (Text × α)) : Merges given (distinct given) := by
  induction given using List.reverseRecOn with
  | nil => exact ⟨by simp [distinct, Fields.names], by simp [distinct]⟩
  | append_singleton given f ih =>
      obtain ⟨hnames, hlast⟩ := ih
      rw [distinct_concat]
      refine ⟨?_, fun name => ?_⟩
      · have hmem : f.1 ∈ names (distinct given) ↔ f.1 ∈ names given := by
          rw [hnames, List.mem_eraseDups]
        have hsplit : names (given ++ [f]) = names given ++ [f.1] := List.map_append
        rw [names_put, hsplit, eraseDups_concat, hnames]
        simp only [← hnames, hmem]
      · -- the field that is set last is the first one from the end
        rw [List.reverse_append, List.reverse_singleton, List.singleton_append, List.lookup_cons]
        by_cases h : name = f.1
        · rw [h, lookup_put_self, beq_self_eq_true]
        · rw [lookup_put_of_ne h, hlast, beq_eq_false_iff_ne.2 h]

theorem lookup_eq_none_iff {name : Text} : fields.lookup name = none ↔ name ∉ names fields := by
  rw [List.lookup_eq_none_iff, names, List.mem_map]
  constructor
  · rintro h ⟨f, hf, rfl⟩
    simpa using h f hf
  · intro h f hf
    exact bne_iff_ne.2 fun e => h ⟨f, hf, e.symm⟩

theorem mem_of_lookup_eq_some {name : Text} {a : α} (h : fields.lookup name = some a) :
    (name, a) ∈ fields := by
  obtain ⟨before, after, rfl, -⟩ := List.lookup_eq_some_iff.1 h
  simp

/-- Every field is found under its name when no name stands twice. -/
theorem lookup_of_mem (hnodup : (names fields).Nodup) {f : Text × α} (hf : f ∈ fields) :
    fields.lookup f.1 = some f.2 := by
  obtain ⟨before, after, rfl⟩ := List.append_of_mem hf
  refine List.lookup_eq_some_iff.2 ⟨before, after, rfl, fun g hg => ?_⟩
  rw [names, List.map_append, List.nodup_append] at hnodup
  exact bne_iff_ne.2 fun e => hnodup.2.2 _ (List.mem_map_of_mem hg) f.1 (by simp) e.symm

theorem mem_names_iff {name : Text} : name ∈ names fields ↔ ∃ a, fields.lookup name = some a := by
  rw [← not_iff_not, ← lookup_eq_none_iff, Option.eq_none_iff_forall_ne_some, not_exists]

/-- Fields of the same distinct names in the same order are the same when each name has the same
value. -/
theorem eq_of_lookup_eq (hnames : names given = names fields) (hnodup : (names given).Nodup)
    (h : ∀ name, given.lookup name = fields.lookup name) : given = fields := by
  induction given generalizing fields with
  | nil => exact (List.map_eq_nil_iff.1 hnames.symm).symm
  | cons f rest ih =>
      obtain ⟨k, v⟩ := f
      cases fields with
      | nil => cases hnames
      | cons g others =>
          obtain ⟨l, w⟩ := g
          obtain ⟨rfl, hrest⟩ : k = l ∧ names rest = names others := List.cons.inj hnames
          obtain ⟨hfresh, hnodup⟩ := List.nodup_cons.1 hnodup
          have hvalue := h k
          rw [List.lookup_cons_self, List.lookup_cons_self] at hvalue
          -- the first name is none of the others, so the others are looked up alike as well
          have hothers : rest = others := by
            refine ih hrest hnodup fun name => ?_
            by_cases hname : name = k
            · have hfresh' : k ∉ names others := hrest ▸ hfresh
              rw [hname, lookup_eq_none_iff.2 hfresh, lookup_eq_none_iff.2 hfresh']
            · have hne : (name == k) = false := beq_eq_false_iff_ne.2 hname
              have hname := h name
              rwa [List.lookup_cons, List.lookup_cons, hne] at hname
          rw [hothers, Option.some.inj hvalue]

/-- There is only one way to keep the fields that stay. -/
theorem Merges.eq_distinct (h : Merges given fields) : fields = distinct given := by
  have hdistinct := merges_distinct given
  have hnames : names fields = names (distinct given) := h.order.trans hdistinct.order.symm
  refine eq_of_lookup_eq hnames ?_ fun name => (h.last name).trans (hdistinct.last name).symm
  rw [hnames]
  exact nodup_names_distinct given

end ShapedJson.Fields
