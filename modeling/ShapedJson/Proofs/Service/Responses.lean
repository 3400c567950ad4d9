import ShapedJson.Proofs.Failures
import ShapedJson.Proofs.Json.Writing
import ShapedJson.Proofs.Text.Utf8
import ShapedJson.Service.Response

/-!
# Responses that can be sent

A finite value is sent exactly when no surrogate stands in it.  What is sent then has a form in
UTF-8 and is JSON text for any reader with enough room, one without constants included.  The text
that reports a failure is spelled out.
-/

namespace ShapedJson

/-- Some bound is enough for all items when each has one of its own. -/
theorem exists_bound_of_forall {α : Type} {q : Nat → α → Prop}
    (hmono : ∀ m n a, m ≤ n → q m a → q n a) {items : List α} (h : ∀ a ∈ items, ∃ n, q n a) :
    ∃ n, ∀ a ∈ items, q n a := by
  induction items with
  | nil => exact ⟨0, by simp⟩
  | cons a rest ih =>
      obtain ⟨m, hm⟩ := h a (by simp)
      obtain ⟨n, hn⟩ := ih fun b hb => h b (List.mem_cons_of_mem _ hb)
      refine ⟨max m n, fun b hb => ?_⟩
      rcases List.mem_cons.1 hb with rfl | hb
      · exact hmono _ _ _ (Nat.le_max_left m n) hm
      · exact hmono _ _ _ (Nat.le_max_right m n) (hn b hb)

namespace Json

theorem Writable.mono {m n : Nat} (hmn : m ≤ n) {v : Json} (h : v.Writable m false) :
    v.Writable n false := by
  refine h.imp₂ h (fun x hx _ => ?_) (fun _ hs _ => hs) fun _ hns _ => hns
  cases x with
  | whole k => exact Nat.le_trans hx hmn
  | real x => exact hx

/-- A finite value can be written within some bound of digits. -/
theorem exists_writable {v : Json} (h : v.isFinite = true) : ∃ n, v.Writable n false := by
  -- a finite fraction fits any bound, so only the whole numbers ask for room
  induction v with
  | null => exact ⟨0, .null⟩
  | bool b => exact ⟨0, .bool b⟩
  | number n =>
      cases n with
      | whole k => exact ⟨_, .number _ (Nat.le_refl _)⟩
      | real x => exact ⟨0, .number _ h⟩
  | string s => exact ⟨0, .string s nofun⟩
  | array items ih =>
      rw [isFinite, isFiniteItems_eq_true_iff] at h
      obtain ⟨n, hn⟩ := exists_bound_of_forall (q := fun n v => v.Writable n false)
        (fun _ _ _ hmn hv => hv.mono hmn) fun v hv => ih v hv (h v hv)
      exact ⟨n, .array items hn⟩
  | object fields ih =>
      rw [isFinite, isFiniteFields_eq_true_iff] at h
      obtain ⟨n, hn⟩ := exists_bound_of_forall
        (q := fun n (f : Text × Json) => f.2.Writable n false)
        (fun _ _ _ hmn hf => hf.mono hmn) fun f hf => ih f hf (h f hf)
      exact ⟨n, .object fields (fun _ _ => nofun) hn⟩

end Json

/-- A text that a reader of the grammar takes, when its bounds are wide enough. -/
def Text.IsJson (t : Text) : Prop :=
  ∃ digitLimit nestingLimit v, Json.read ⟨false, digitLimit, nestingLimit⟩ t = .ok v

namespace Response

/-- A response of the service as it should be: of one of three statuses, with JSON text for a
body that is the same after a way through UTF-8. -/
structure WellFormed (r : Response) : Prop where
  status : r.status = 200 ∨ r.status = 400 ∨ r.status = 500
  contentType : r.contentType = some (text "application/json")
  encodable : r.body.Encodable
  decodes : Text.ofUtf8? (Text.toUtf8 r.body) = some r.body
  isJson : r.body.IsJson

/-- The response that holds a value, without a question whether it can be sent. -/
def holding (status : Nat) (v : Json) : Response :=
  ⟨status, some (text "application/json"), bodyOf v⟩

variable {status : Nat} {v : Json}

theorem isJson_bodyOf (h : v.isFinite = true) : (bodyOf v).IsJson := by
  obtain ⟨digitLimit, hwritable⟩ := Json.exists_writable h
  exact ⟨digitLimit, v.height, v.reread,
    Json.read_write JsonStyle.regular_compactUnicode hwritable (Nat.le_refl _)⟩

theorem wellFormed_holding (hstatus : status = 200 ∨ status = 400 ∨ status = 500)
    (hfinite : v.isFinite = true) (h : v.Encodable) : (holding status v).WellFormed :=
  ⟨hstatus, rfl, (Json.encodable_write v 0).2 h, Text.ofUtf8?_toUtf8 _, isJson_bodyOf hfinite⟩

/-- A finite value without surrogates is sent. -/
theorem ofJson_of_encodable (hfinite : v.isFinite = true) (h : v.Encodable) :
    ofJson status v = .ok (holding status v) := by
  have hbody : (bodyOf v).encodingFault? = none :=
    Text.encodingFault?_eq_none_iff.2 ((Json.encodable_write v 0).2 h)
  rw [ofJson, if_pos hfinite, hbody]
  rfl

/-- A finite value with a surrogate is not. -/
theorem ofJson_of_not_encodable (hfinite : v.isFinite = true) (h : ¬ v.Encodable) :
    ∃ fault, ofJson status v = .error (.unencodableBody fault) := by
  cases hbody : (bodyOf v).encodingFault? with
  | none => exact absurd ((Json.encodable_write v 0).1 (Text.encodingFault?_eq_none_iff.1 hbody)) h
  | some fault =>
      refine ⟨fault, ?_⟩
      rw [ofJson, if_pos hfinite, hbody]

/-- A finite value is not refused for its numbers. -/
theorem ofJson_ne_notFinite (hfinite : v.isFinite = true) : ofJson status v ≠ .error .notFinite := by
  by_cases h : v.Encodable
  · rw [ofJson_of_encodable hfinite h]
    exact nofun
  · obtain ⟨fault, hfault⟩ := ofJson_of_not_encodable hfinite h
    rw [hfault]
    exact nofun

/-- The text of a report, spelled out: the class of a failure, what is said about it, and the number
of attempts or a null. -/
def reportText (error detail : Text) (attempts : Option Nat) : Text :=
  text "\x7b\"error\":" ++ error.jsonString false ++ text ",\"detail\":" ++
    detail.jsonString false ++ text ",\"attempts\":" ++
    (attempts.map Text.ofNat).getD (text "null") ++ text "\x7d"

theorem bodyOf_report (failure : Failure) (attempts : Option Nat) :
    bodyOf (report failure attempts) = reportText failure.name failure.message attempts := by
  -- the names of the three fields are written as they are
  have herror : text "\x7b\"error\":" =
      text "\x7b" ++ (text "error").jsonString false ++ text ":" := rfl
  have hdetail : text ",\"detail\":" =
      text "," ++ (text "detail").jsonString false ++ text ":" := rfl
  have hattempts : text ",\"attempts\":" =
      text "," ++ (text "attempts").jsonString false ++ text ":" := rfl
  have hnumber : ∀ n : Nat, Text.ofInt n = Text.ofNat n := fun _ => rfl
  rw [reportText, herror, hdetail, hattempts, bodyOf, report]
  cases attempts <;>
    simp [Json.write, Json.writeFields, JsonStyle.compactUnicode, Json.int, Text.ofNumber, hnumber]

theorem isFinite_report (failure : Failure) (attempts : Option Nat) :
    (report failure attempts).isFinite = true := by
  cases attempts <;> rfl

/-- A report can be sent exactly when its message can be encoded. -/
theorem encodable_report {failure : Failure} {attempts : Option Nat} :
    (report failure attempts).Encodable ↔ failure.message.Encodable := by
  have hint : ∀ n, (Json.int n).Encodable := fun n => .number _ trivial
  rw [report, Json.encodable_object]
  cases attempts <;> simp [Json.encodable_string, hint]

theorem ofFailure_of_encodable {failure : Failure} {attempts : Option Nat}
    (h : failure.message.Encodable) :
    ofFailure status failure attempts =
      .ok ⟨status, some (text "application/json"),
        reportText failure.name failure.message attempts⟩ := by
  rw [ofFailure, ofJson_of_encodable (isFinite_report failure attempts) (encodable_report.2 h),
    holding, bodyOf_report]

theorem ofFailure_of_not_encodable {failure : Failure} {attempts : Option Nat}
    (h : ¬ failure.message.Encodable) :
    ∃ fault, ofFailure status failure attempts = .error (.unencodableBody fault) :=
  ofJson_of_not_encodable (isFinite_report failure attempts) fun hr => h (encodable_report.1 hr)

end Response

end ShapedJson
