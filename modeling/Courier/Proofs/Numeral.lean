import Courier.Proofs.DeclaredLength.Outcomes

/-!
# Numbers that are read and written

A text is read as an unsigned integer if it denotes one, behind a plus sign or behind nothing
(`Numeral.unsigned_eq_ok_iff`). An integer is written as a token (`Numeral.isToken_ofInt`), and what
a signed word is written as is read as that word (`Numeral.signed64_ofInt`).
-/

namespace Courier.Numeral

theorem isToken_ofInt (n : Int) : Text.isToken (ofInt n) = true := by
  cases n with
  | ofNat n => exact DeclaredLength.isToken_toString n
  | negSucc n =>
    have hdigits := ((Text.isToken_iff _).1 (DeclaredLength.isToken_toString (n + 1))).2
    rw [ofInt, Text.isToken_iff, String.toList_append]
    refine ⟨by simp, fun c hc => ?_⟩
    rcases List.mem_append.1 hc with hc | hc
    · obtain rfl : c = '-' := by simpa using hc
      decide
    · exact hdigits c hc

/-! ## Digits -/

theorem le_ofDigitChars (cs : List Char) (value : Nat) : value ≤ Nat.ofDigitChars 10 cs value := by
  rw [Nat.ofDigitChars_eq_ofDigitChars_zero]
  have hpow : 0 < 10 ^ cs.length := Nat.pow_pos (by decide)
  exact Nat.le_add_right_of_le (Nat.le_mul_of_pos_left value hpow)

/-- Digits whose number is not beyond the limit are read as their number. No number on the way to it
is beyond the limit either. -/
theorem digits_eq_ok {limit value : Nat} {beyond : Fault} {cs : List Char}
    (hd : ∀ c ∈ cs, c.isDigit = true) (hl : Nat.ofDigitChars 10 cs value ≤ limit) :
    digits limit beyond value cs = .ok (Nat.ofDigitChars 10 cs value) := by
  induction cs generalizing value with
  | nil => rw [Nat.ofDigitChars_nil, digits]
  | cons c rest ih =>
    obtain ⟨hc, hr⟩ := List.forall_mem_cons.1 hd
    rw [Nat.ofDigitChars_cons, Nat.mul_comm] at hl ⊢
    have hle := le_ofDigitChars rest (value * 10 + (c.toNat - '0'.toNat))
    rw [digits, digit?, if_pos hc]
    dsimp only
    rw [if_neg (by omega)]
    exact ih hr hl

/-- What is read is digits, and their number is not beyond the limit. -/
theorem of_digits_eq_ok {limit value n : Nat} {beyond : Fault} {cs : List Char}
    (hv : value ≤ limit) (h : digits limit beyond value cs = .ok n) :
    (∀ c ∈ cs, c.isDigit = true) ∧ Nat.ofDigitChars 10 cs value = n ∧ n ≤ limit := by
  induction cs generalizing value with
  | nil =>
    obtain rfl := Except.ok.inj h
    exact ⟨nofun, Nat.ofDigitChars_nil, hv⟩
  | cons c rest ih =>
    rw [digits, digit?] at h
    by_cases hc : c.isDigit = true
    · rw [if_pos hc] at h
      dsimp only at h
      split_ifs at h with hl
      obtain ⟨hd, hn, hle⟩ := ih (Nat.le_of_not_lt hl) h
      rw [Nat.ofDigitChars_cons, Nat.mul_comm]
      exact ⟨List.forall_mem_cons.2 ⟨hc, hd⟩, hn, hle⟩
    · rw [if_neg hc] at h
      cases h

theorem ofDigitChars_eq_ofDigits (cs : List Char) :
    Nat.ofDigitChars 10 cs 0 = Nat.ofDigits 10 (cs.reverse.map fun c => c.toNat - '0'.toNat) := by
  rw [Nat.ofDigitChars_eq_foldl]
  simp only [Nat.mul_comm 10]
  rw [foldl_digits, Nat.zero_mul, Nat.zero_add]

theorem digits1_eq_ok_iff {limit n : Nat} {beyond : Fault} {text : String} :
    digits1 limit beyond text.toList = .ok n ↔ Denotes text n ∧ n ≤ limit := by
  rw [Denotes, ← ofDigitChars_eq_ofDigits]
  cases text.toList with
  | nil => simp [digits1]
  | cons c rest =>
    show digits limit beyond 0 (c :: rest) = .ok n ↔ _
    constructor
    · intro h
      obtain ⟨hd, hn, hle⟩ := of_digits_eq_ok (Nat.zero_le _) h
      exact ⟨⟨List.cons_ne_nil _ _, hd, hn⟩, hle⟩
    · rintro ⟨⟨-, hd, rfl⟩, hle⟩
      exact digits_eq_ok hd hle

theorem denotes_toString (n : Nat) : Denotes (toString n) n :=
  ofDigits?_eq_some_iff.1 (DeclaredLength.ofDigits?_toString n)

theorem digits1_toDigits {limit n : Nat} (beyond : Fault) (hn : n ≤ limit) :
    digits1 limit beyond (Nat.toDigits 10 n) = .ok n := by
  rw [← DeclaredLength.toList_toString]
  exact digits1_eq_ok_iff.2 ⟨denotes_toString n, hn⟩

/-! ## Unsigned words -/

/-- The text denotes the number, behind a plus sign or behind nothing. -/
def IsUnsigned (text : String) (n : Nat) : Prop :=
  Denotes text n ∨ ∃ rest, text = "+" ++ rest ∧ Denotes rest n

theorem not_denotes_plus (rest : String) (n : Nat) : ¬ Denotes ("+" ++ rest) n := by
  rintro ⟨-, hd, -⟩
  exact absurd (hd '+' (by simp [String.toList_append])) (by decide)

/-- The texts that are read as unsigned integers. -/
theorem unsigned_eq_ok_iff {limit n : Nat} {text : String} :
    unsigned limit text = .ok n ↔ IsUnsigned text n ∧ n ≤ limit := by
  by_cases hp : ∃ rest, text = "+" ++ rest
  · obtain ⟨rest, rfl⟩ := hp
    have hs : unsigned limit ("+" ++ rest) = digits1 limit .tooLarge rest.toList := by
      rw [unsigned, String.toList_append]
      rfl
    have hu : IsUnsigned ("+" ++ rest) n ↔ Denotes rest n := by
      simp [IsUnsigned, not_denotes_plus]
    rw [hs, hu, digits1_eq_ok_iff]
  · have hu : IsUnsigned text n ↔ Denotes text n := or_iff_left fun ⟨rest, he, _⟩ => hp ⟨rest, he⟩
    rw [hu, ← @digits1_eq_ok_iff _ _ .tooLarge, unsigned]
    split
    · rename_i he
      simp [he, digits1]
    · rename_i rest he
      refine absurd ⟨String.ofList rest, ?_⟩ hp
      simp [← String.toList_inj, he, String.toList_append]
    · rfl

/-! ## Signed words -/

theorem signed64_toString {n : Nat} (hn : n ≤ maxSigned) :
    signed64 (toString n) = .ok (Int64.ofNat n) := by
  -- The first character is a digit, hence no sign.
  have hsign : ∀ c rest, (toString n).toList = c :: rest → c.isDigit = true := by
    intro c rest he
    rw [DeclaredLength.toList_toString] at he
    refine Nat.isDigit_of_mem_toDigits (n := n) (by decide : 0 < 10) (by decide) ?_
    rw [he]
    exact List.mem_cons_self
  unfold signed64
  split
  · rename_i he
    rw [DeclaredLength.toList_toString] at he
    exact absurd he Nat.toDigits_ne_nil
  · rename_i he
    exact absurd (hsign _ _ he) (by decide)
  · rename_i he
    exact absurd (hsign _ _ he) (by decide)
  · rw [DeclaredLength.toList_toString, digits1_toDigits _ hn]
    rfl

theorem signed64_minus_toString {n : Nat} (hn : n ≤ maxSigned + 1) :
    signed64 ("-" ++ toString n) = .ok (Int64.ofInt (-n)) := by
  have he : ("-" ++ toString n).toList = '-' :: Nat.toDigits 10 n := by
    rw [String.toList_append, DeclaredLength.toList_toString]
    rfl
  simp only [signed64, he]
  rw [digits1_toDigits _ hn]
  rfl

/-- What a word is written as is read as the word. -/
theorem signed64_ofInt (n : Int64) : signed64 (ofInt n.toInt) = .ok n := by
  have hlower := n.le_toInt
  have hupper := n.toInt_lt
  cases hn : n.toInt with
  | ofNat m =>
    have hm : m ≤ maxSigned := by
      rw [hn, Int.ofNat_eq_natCast] at hupper
      rw [maxSigned]
      omega
    rw [ofInt, signed64_toString hm, ← Int64.ofInt_eq_ofNat, ← Int.ofNat_eq_natCast, ← hn,
      Int64.ofInt_toInt]
  | negSucc m =>
    have hm : m + 1 ≤ maxSigned + 1 := by
      rw [maxSigned]
      omega
    have hneg : -((m + 1 : Nat) : Int) = n.toInt := by
      rw [hn]
      rfl
    rw [ofInt, signed64_minus_toString hm, hneg, Int64.ofInt_toInt]

end Courier.Numeral
