import ShapedJson.Text.Octets

/-!
# UTF-8 and back

Decoding the octets of a text gives the text again.  A decoder takes one to four octets for a
code point; each of the four forms is one step of it.  A document that starts with two code points
of ASCII shows no other form than this one.
-/

namespace ShapedJson.Text

variable {a b c d : UInt8} {n : Nat}

theorem toNat_ofNat (h : n < 256) : (UInt8.ofNat n).toNat = n := by
  rw [UInt8.toNat_ofNat']
  omega

theorem ofUtf8?_one (ha : a.toNat < 0x80) (rest : List UInt8) :
    ofUtf8? (a :: rest) = (ofUtf8? rest).map (Fin.ofNat _ a.toNat :: ·) := by
  rw [ofUtf8?.eq_def]
  simp only [if_pos ha]

theorem ofUtf8?_two (ha : 0xC0 ≤ a.toNat ∧ a.toNat < 0xE0) (hb : isTail b = true)
    (hn : a.toNat % 32 * 64 + b.toNat % 64 = n) (hshort : 0x80 ≤ n) (rest : List UInt8) :
    ofUtf8? (a :: b :: rest) = (ofUtf8? rest).map (Fin.ofNat _ n :: ·) := by
  have h1 : ¬ a.toNat < 0x80 := by omega
  have h2 : ¬ a.toNat < 0xC0 := by omega
  have h3 : ¬ n < 0x80 := by omega
  rw [ofUtf8?.eq_def]
  simp only [if_neg h1, if_neg h2, hb, if_pos ha.2, hn, if_neg h3, Bool.not_true,
    Bool.false_eq_true, if_false]

theorem ofUtf8?_three (ha : 0xE0 ≤ a.toNat ∧ a.toNat < 0xF0) (hb : isTail b = true)
    (hc : isTail c = true)
    (hn : a.toNat % 16 * 4096 + b.toNat % 64 * 64 + c.toNat % 64 = n) (hshort : 0x800 ≤ n)
    (rest : List UInt8) :
    ofUtf8? (a :: b :: c :: rest) = (ofUtf8? rest).map (Fin.ofNat _ n :: ·) := by
  have h1 : ¬ a.toNat < 0x80 := by omega
  have h2 : ¬ a.toNat < 0xC0 := by omega
  have h3 : ¬ a.toNat < 0xE0 := by omega
  have h4 : ¬ n < 0x800 := by omega
  rw [ofUtf8?.eq_def]
  simp only [if_neg h1, if_neg h2, if_neg h3, hb, hc, if_pos ha.2, hn, if_neg h4, Bool.not_true,
    Bool.false_eq_true, if_false]

theorem ofUtf8?_four (ha : 0xF0 ≤ a.toNat ∧ a.toNat < 0xF5) (hb : isTail b = true)
    (hc : isTail c = true) (hd : isTail d = true)
    (hn : a.toNat % 8 * 262144 + b.toNat % 64 * 4096 + c.toNat % 64 * 64 + d.toNat % 64 = n)
    (hshort : 0x10000 ≤ n) (hlt : n < 0x110000) (rest : List UInt8) :
    ofUtf8? (a :: b :: c :: d :: rest) = (ofUtf8? rest).map (⟨n, hlt⟩ :: ·) := by
  have h1 : ¬ a.toNat < 0x80 := by omega
  have h2 : ¬ a.toNat < 0xC0 := by omega
  have h3 : ¬ a.toNat < 0xE0 := by omega
  have h4 : ¬ a.toNat < 0xF0 := by omega
  have h5 : ¬ 0xF5 ≤ a.toNat := by omega
  have h6 : ¬ n < 0x10000 := by omega
  rw [ofUtf8?.eq_def]
  simp only [if_neg h1, if_neg h2, if_neg h3, if_neg h4, hb, hc, hd, h5, hn, if_neg h6,
    Bool.not_true, decide_false, Bool.or_self, Bool.false_eq_true, if_false, codePoint?,
    dif_pos hlt, Option.bind_some]

theorem isTail_ofNat (n : Nat) : isTail (UInt8.ofNat (0x80 + n % 64)) = true := by
  rw [isTail, toNat_ofNat (by omega), beq_iff_eq]
  omega

/-- The octets of one code point are decoded in one step. -/
theorem ofUtf8?_append (c : CodePoint) (rest : List UInt8) :
    ofUtf8? (octetsOfCodePoint c ++ rest) = (ofUtf8? rest).map (c :: ·) := by
  have hc := c.isLt
  have hself : Fin.ofNat 0x110000 c.val = c := Fin.ext (Nat.mod_eq_of_lt hc)
  have htail : ∀ m : Nat, (UInt8.ofNat (0x80 + m % 64)).toNat = 0x80 + m % 64 :=
    fun m => toNat_ofNat (by omega)
  unfold octetsOfCodePoint
  simp only
  -- one range for each length, and in each the bits of the octets add up to the code point
  by_cases h1 : c.val < 0x80
  · rw [if_pos h1, List.cons_append, List.nil_append, ofUtf8?_one]
    · rw [toNat_ofNat (by omega), hself]
    · rw [toNat_ofNat (by omega)]
      exact h1
  · rw [if_neg h1]
    by_cases h2 : c.val < 0x800
    · have hhead : (UInt8.ofNat (0xC0 + c.val / 64)).toNat = 0xC0 + c.val / 64 :=
        toNat_ofNat (by omega)
      rw [if_pos h2, List.cons_append, List.cons_append, List.nil_append,
        ofUtf8?_two (n := c.val) (by omega) (isTail_ofNat _) (by rw [hhead, htail]; omega)
          (by omega), hself]
    · rw [if_neg h2]
      by_cases h3 : c.val < 0x10000
      · have hhead : (UInt8.ofNat (0xE0 + c.val / 4096)).toNat = 0xE0 + c.val / 4096 :=
          toNat_ofNat (by omega)
        rw [if_pos h3]
        simp only [List.cons_append, List.nil_append]
        rw [ofUtf8?_three (n := c.val) (by omega) (isTail_ofNat _) (isTail_ofNat _)
          (by rw [hhead, htail, htail]; omega) (by omega), hself]
      · have hhead : (UInt8.ofNat (0xF0 + c.val / 262144)).toNat = 0xF0 + c.val / 262144 :=
          toNat_ofNat (by omega)
        rw [if_neg h3]
        simp only [List.cons_append, List.nil_append]
        rw [ofUtf8?_four (n := c.val) (by omega) (isTail_ofNat _) (isTail_ofNat _)
          (isTail_ofNat _) (by rw [hhead, htail, htail, htail]; omega) (by omega) hc]

/-- What is written in UTF-8 is decoded again. -/
theorem ofUtf8?_toUtf8 (t : Text) : ofUtf8? (toUtf8 t) = some t := by
  induction t with
  | nil => rfl
  | cons c t ih =>
      show ofUtf8? (octetsOfCodePoint c ++ toUtf8 t) = _
      rw [ofUtf8?_append, ih]
      rfl

/-! ## Documents -/

variable {octets : List UInt8} {p q : CodePoint} {rest : Text}

/-- An octet of ASCII other than zero starts no mark. -/
theorem markedForm?_eq_none (ha : 0 < a.toNat ∧ a.toNat < 0x80) :
    markedForm? (a :: octets) = none := by
  unfold markedForm?
  split
  case h_6 => rfl
  all_goals
    rename_i heq
    cases heq
    exact absurd ha (by decide)

theorem unmarkedForm_eq_utf8 (ha : a ≠ 0) (hb : b ≠ 0) :
    unmarkedForm (a :: b :: octets) = .utf8 := by
  -- every form but this one wants a zero in front
  unfold unmarkedForm
  split
  · rename_i heq
    cases heq
    rw [if_neg ha, if_neg hb]
  · rename_i heq
    cases heq
    rw [if_neg ha, if_neg hb]
  · rfl

/-- A text that starts with two code points of ASCII is a document in UTF-8. -/
theorem ofDocument?_toUtf8 (hp : 0 < p.val ∧ p.val < 0x80) (hq : 0 < q.val ∧ q.val < 0x80) :
    ofDocument? (toUtf8 (p :: q :: rest)) = some (p :: q :: rest) := by
  have hoctets : toUtf8 (p :: q :: rest) =
      UInt8.ofNat p.val :: UInt8.ofNat q.val :: toUtf8 rest := by
    simp [toUtf8, octetsOfCodePoint, hp.2, hq.2]
  have hne : ∀ n, 0 < n ∧ n < 0x80 → UInt8.ofNat n ≠ 0 := by
    intro n hn heq
    have := congrArg UInt8.toNat heq
    rw [toNat_ofNat (by omega)] at this
    have : n = 0 := this
    omega
  have hmark : markedForm? (UInt8.ofNat p.val :: UInt8.ofNat q.val :: toUtf8 rest) = none :=
    markedForm?_eq_none (by rw [toNat_ofNat (by omega)]; exact hp)
  have hform : unmarkedForm (UInt8.ofNat p.val :: UInt8.ofNat q.val :: toUtf8 rest) = .utf8 :=
    unmarkedForm_eq_utf8 (hne _ hp) (hne _ hq)
  rw [ofDocument?, hoctets, hmark]
  simp only [hform]
  rw [← hoctets]
  exact ofUtf8?_toUtf8 _

end ShapedJson.Text
