import ShapedJson.Text.Basic

/-!
# Named fields

Fields are pairs of a name and a value, in the order in which they were first
given.  Setting a field keeps the place of its name, so a name given twice has
its last value at its first place.
-/

namespace ShapedJson.Fields

variable {α : Type}

/-- Set a field: in its place when the name is there, else at the end. -/
def put (key : Text) (value : α) : List (Text × α) → List (Text × α)
  | [] => [(key, value)]
  | (k, v) :: rest => if k = key then (k, value) :: rest else (k, v) :: put key value rest

/-- The fields in order of first appearance, each with its last value. -/
def distinct (fields : List (Text × α)) : List (Text × α) :=
  fields.foldl (fun done f => put f.1 f.2 done) []

/-- The names of the fields, in order. -/
def names (fields : List (Text × α)) : List Text := fields.map Prod.fst

/-- The value of a field is smaller than all fields together. -/
theorem sizeOf_lt_of_mem [SizeOf α] {f : Text × α} {fields : List (Text × α)} (h : f ∈ fields) :
    sizeOf f.2 < 1 + sizeOf fields := by
  have hmem := List.sizeOf_lt_of_mem h
  obtain ⟨k, v⟩ := f
  rw [Prod.mk.sizeOf_spec] at hmem
  show sizeOf v < 1 + sizeOf fields
  omega

theorem lookup_put_self (key : Text) (value : α) (fields : List (Text × α)) :
    (put key value fields).lookup key = some value := by
  induction fields with
  | nil => simp [put]
  | cons f rest ih =>
    obtain ⟨k, v⟩ := f
    by_cases h : k = key
    · simp [put, h]
    · have h' : (key == k) = false := by simpa using fun e => h e.symm
      simp [put, h, List.lookup_cons, h', ih]

theorem lookup_put_of_ne {key other : Text} (h : other ≠ key) (value : α)
    (fields : List (Text × α)) : (put key value fields).lookup other = fields.lookup other := by
  have h' : (other == key) = false := by simpa using h
  induction fields with
  | nil => simp [put, List.lookup_cons, h']
  | cons f rest ih =>
    obtain ⟨k, v⟩ := f
    by_cases hk : k = key
    · subst hk
      simp [put, List.lookup_cons, h']
    · simp [put, hk, List.lookup_cons, ih]

/-- Setting a field keeps the names and their order. -/
theorem names_put_of_mem {key : Text} {fields : List (Text × α)} (h : key ∈ names fields)
    (value : α) : names (put key value fields) = names fields := by
  induction fields with
  | nil => cases h
  | cons f rest ih =>
    obtain ⟨k, v⟩ := f
    by_cases hk : k = key
    · subst hk
      simp [put, names]
    · have hrest : key ∈ names rest := (List.mem_cons.1 h).resolve_left fun e => hk e.symm
      have hput := ih hrest
      simp_all [put, names]

theorem put_of_not_mem {key : Text} {fields : List (Text × α)} (h : key ∉ names fields)
    (value : α) : put key value fields = fields ++ [(key, value)] := by
  induction fields with
  | nil => rfl
  | cons f rest ih =>
    obtain ⟨k, v⟩ := f
    simp only [names, List.map_cons, List.mem_cons, not_or] at h
    have hk : k ≠ key := fun e => h.1 e.symm
    rw [put, if_neg hk, ih h.2, List.cons_append]

theorem nodup_names_put {key : Text} {value : α} {fields : List (Text × α)}
    (h : (names fields).Nodup) : (names (put key value fields)).Nodup := by
  by_cases hk : key ∈ names fields
  · rw [names_put_of_mem hk]
    exact h
  · have hnames : names (put key value fields) = names fields ++ [key] := by
      rw [put_of_not_mem hk, names, List.map_append]
      rfl
    rw [hnames]
    refine List.nodup_append.2 ⟨h, by simp, fun a ha b hb => ?_⟩
    obtain rfl := List.mem_singleton.1 hb
    rintro rfl
    exact hk ha

/-- No name stands twice among distinct fields. -/
theorem nodup_names_distinct (fields : List (Text × α)) : (names (distinct fields)).Nodup := by
  suffices ∀ done : List (Text × α), (names done).Nodup →
      (names (fields.foldl (fun done f => put f.1 f.2 done) done)).Nodup by
    exact this [] (by simp [names])
  induction fields with
  | nil => exact fun done h => h
  | cons f rest ih => exact fun done h => ih _ (nodup_names_put h)

theorem mem_of_mem_put {key : Text} {value : α} {fields : List (Text × α)} {f : Text × α}
    (h : f ∈ put key value fields) : f = (key, value) ∨ f ∈ fields := by
  induction fields with
  | nil => exact .inl (List.mem_singleton.1 h)
  | cons g rest ih =>
    obtain ⟨k, v⟩ := g
    rw [put] at h
    split at h
    · rename_i hk
      rcases List.mem_cons.1 h with rfl | h
      · exact .inl (by rw [hk])
      · exact .inr (List.mem_cons_of_mem _ h)
    · rcases List.mem_cons.1 h with rfl | h
      · exact .inr List.mem_cons_self
      · exact (ih h).imp id (List.mem_cons_of_mem _)

/-- Distinct fields are among those given. -/
theorem mem_of_mem_distinct {fields : List (Text × α)} {f : Text × α} (h : f ∈ distinct fields) :
    f ∈ fields := by
  suffices ∀ done : List (Text × α), f ∈ fields.foldl (fun done g => put g.1 g.2 done) done →
      f ∈ done ∨ f ∈ fields by
    exact (this [] h).resolve_left (by simp)
  clear h
  induction fields with
  | nil => exact fun done h => .inl h
  | cons g rest ih =>
    intro done h
    rcases ih (put g.1 g.2 done) h with h | h
    · rcases mem_of_mem_put h with rfl | h
      · exact .inr List.mem_cons_self
      · exact .inl h
    · exact .inr (List.mem_cons_of_mem _ h)

/-- Fields without a name twice are distinct as they are. -/
theorem distinct_eq_self {fields : List (Text × α)} (h : (names fields).Nodup) :
    distinct fields = fields := by
  suffices ∀ done : List (Text × α), (names (done ++ fields)).Nodup →
      fields.foldl (fun done f => put f.1 f.2 done) done = done ++ fields by
    exact this [] h
  induction fields with
  | nil => simp
  | cons f rest ih =>
    intro done hdone
    have hsplit : done ++ f :: rest = (done ++ [f]) ++ rest := by simp
    have hfresh : f.1 ∉ names done := by
      rw [names, List.map_append, List.map_cons, List.nodup_append] at hdone
      exact fun hmem => hdone.2.2 _ hmem _ (by simp) rfl
    rw [List.foldl_cons, put_of_not_mem hfresh, hsplit]
    rw [hsplit] at hdone
    exact ih (List.nodup_cons.1 h).2 _ hdone

end ShapedJson.Fields
