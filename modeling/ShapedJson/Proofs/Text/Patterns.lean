import ShapedJson.Text.Basic

/-!
# Patterns with a group

A pattern is a row of pieces, one of which is its group.  It stands for a whole text, up to one
line break at the end.  Each piece takes something off the start of what the pieces before it left,
and it prefers some of the ways to do that to others.  A matcher tries the ways in this order and
goes back to the next way of an earlier piece when the later pieces fail.  What the group takes in
the first ways that fit is the group of the text.
-/

namespace ShapedJson

/-- A piece of a pattern. -/
inductive Piece where
  /-- One of the words, an earlier one rather than a later one. -/
  | oneOf (words : List Text)
  /-- Code points of a class, as many as possible. -/
  | most (p : CodePoint → Bool)
  /-- Code points of a class, as few as possible. -/
  | fewest (p : CodePoint → Bool)

/-- A row of pieces of which one is the group. -/
structure Pattern where
  before : List Piece
  group : Piece
  after : List Piece

namespace Piece

/-- The starts of a text that are all of a class, each with what it leaves, the shortest first. -/
def runs (p : CodePoint → Bool) : Text → List (Text × Text)
  | [] => [([], [])]
  | c :: t => ([], c :: t) :: if p c then (runs p t).map fun way => (c :: way.1, way.2) else []

/-- What a piece takes off the start of a text and what it leaves, the preferred way first. -/
def ways : Piece → Text → List (Text × Text)
  | oneOf words, t => words.filterMap fun word => (Text.after? word t).map (word, ·)
  | most p, t => (runs p t).reverse
  | fewest p, t => runs p t

/-- What a piece stands for. -/
def Takes : Piece → Text → Prop
  | oneOf words, t => t ∈ words
  | most p, t => ∀ c ∈ t, p c = true
  | fewest p, t => ∀ c ∈ t, p c = true

/-- Whether a row of pieces can stand for a text, up to a line break at its end. -/
def fit : List Piece → Text → Bool
  | [], t => t == [] || t == text "\n"
  | piece :: pieces, t => (piece.ways t).any fun way => fit pieces way.2

variable {p : CodePoint → Bool} {t taken rest : Text}

theorem runs_sound (h : (taken, rest) ∈ runs p t) :
    t = taken ++ rest ∧ ∀ c ∈ taken, p c = true := by
  induction t generalizing taken with
  | nil =>
      obtain ⟨rfl, rfl⟩ := Prod.mk.inj (List.mem_singleton.1 h)
      exact ⟨rfl, fun c hc => absurd hc List.not_mem_nil⟩
  | cons c t ih =>
      rcases List.mem_cons.1 h with heq | hmem
      · obtain ⟨rfl, rfl⟩ := Prod.mk.inj heq
        exact ⟨rfl, fun c hc => absurd hc List.not_mem_nil⟩
      · split at hmem
        · rename_i hc
          obtain ⟨way, hway, heq⟩ := List.mem_map.1 hmem
          obtain ⟨rfl, rfl⟩ := Prod.mk.inj heq
          obtain ⟨ht, hall⟩ := ih hway
          exact ⟨congrArg (c :: ·) ht, List.forall_mem_cons.2 ⟨hc, hall⟩⟩
        · exact absurd hmem List.not_mem_nil

theorem runs_complete (h : ∀ c ∈ taken, p c = true) : (taken, rest) ∈ runs p (taken ++ rest) := by
  induction taken with
  | nil => cases rest <;> exact List.mem_cons_self
  | cons c taken ih =>
      obtain ⟨hc, htaken⟩ := List.forall_mem_cons.1 h
      rw [List.cons_append, runs, if_pos hc]
      exact List.mem_cons_of_mem _ (List.mem_map.2 ⟨_, ih htaken, rfl⟩)

theorem mem_runs_iff : (taken, rest) ∈ runs p t ↔ t = taken ++ rest ∧ ∀ c ∈ taken, p c = true := by
  constructor
  · exact runs_sound
  · rintro ⟨rfl, h⟩
    exact runs_complete h

/-- The longest start of a class comes last. -/
theorem exists_runs_eq_concat (p : CodePoint → Bool) (t : Text) :
    ∃ shorter, runs p t = shorter ++ [(t.takeWhile p, t.dropWhile p)] := by
  induction t with
  | nil => exact ⟨[], rfl⟩
  | cons c t ih =>
      cases hc : p c with
      | false => exact ⟨[], by simp [runs, hc]⟩
      | true =>
          obtain ⟨shorter, hshorter⟩ := ih
          exact ⟨([], c :: t) :: shorter.map fun way => (c :: way.1, way.2),
            by simp [runs, hc, hshorter]⟩

/-- The ways of a piece are the splits of the text whose first part it stands for. -/
theorem mem_ways_iff {piece : Piece} :
    (taken, rest) ∈ piece.ways t ↔ piece.Takes taken ∧ t = taken ++ rest := by
  cases piece with
  | oneOf words => simp [ways, Takes, Text.after?_eq_some_iff]
  | most p => rw [ways, List.mem_reverse, mem_runs_iff, Takes, and_comm]
  | fewest p => rw [ways, mem_runs_iff, Takes, and_comm]

theorem suffix_of_mem_ways {piece : Piece} (h : (taken, rest) ∈ piece.ways t) : rest <:+ t :=
  ⟨taken, (mem_ways_iff.1 h).2.symm⟩

theorem fit_nil_iff : fit [] t = true ↔ t = [] ∨ t = text "\n" := by
  simp [fit]

theorem fit_cons_iff {piece : Piece} {pieces : List Piece} :
    fit (piece :: pieces) t = true ↔
      ∃ taken rest, piece.Takes taken ∧ t = taken ++ rest ∧ fit pieces rest = true := by
  simp only [fit, List.any_eq_true, Prod.exists, mem_ways_iff, and_assoc]

end Piece

namespace Pattern

/-- What the group takes when the given pieces are left before it. -/
def groupFrom? (pattern : Pattern) : List Piece → Text → Option Text
  | [], t => ((pattern.group.ways t).find? fun way => Piece.fit pattern.after way.2).map Prod.fst
  | piece :: before, t => (piece.ways t).findSome? fun way => groupFrom? pattern before way.2

/-- What the group takes, if the pattern stands for the text. -/
def group? (pattern : Pattern) (t : Text) : Option Text := pattern.groupFrom? pattern.before t

variable {pattern : Pattern} {piece : Piece} {before : List Piece} {t taken rest b : Text}

/-- A group is found at a place that leaves what the pieces after it stand for. -/
theorem groupFrom?_sound (h : pattern.groupFrom? before t = some b) :
    ∃ left, left <:+ t ∧ Piece.fit pattern.after left = true := by
  induction before generalizing t with
  | nil =>
      obtain ⟨⟨taken, rest⟩, hfind, -⟩ := Option.map_eq_some_iff.1 h
      have hfit := List.find?_some hfind
      exact ⟨rest, Piece.suffix_of_mem_ways (List.mem_of_find?_eq_some hfind), hfit⟩
  | cons piece before ih =>
      obtain ⟨⟨taken, rest⟩, hway, hrest⟩ := List.exists_of_findSome?_eq_some h
      obtain ⟨left, hleft, hfit⟩ := ih hrest
      exact ⟨left, hleft.trans (Piece.suffix_of_mem_ways hway), hfit⟩

/-- The first way of a piece decides when no other way finds a group that it does not find. -/
theorem groupFrom?_cons_of_first (hfirst : (piece.ways t).head? = some (taken, rest))
    (h : ∀ way ∈ piece.ways t, pattern.groupFrom? before rest = none →
      pattern.groupFrom? before way.2 = none) :
    pattern.groupFrom? (piece :: before) t = pattern.groupFrom? before rest := by
  obtain ⟨others, hways⟩ := List.head?_eq_some_iff.1 hfirst
  rw [groupFrom?, hways, List.findSome?_cons]
  cases hrest : pattern.groupFrom? before rest with
  | some b => rfl
  | none =>
      refine List.findSome?_eq_none_iff.2 fun way hway => h way ?_ hrest
      rw [hways]
      exact List.mem_cons_of_mem _ hway

end Pattern

end ShapedJson
