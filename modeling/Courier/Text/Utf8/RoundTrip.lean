import Courier.Text.Utf8.Basic

/-!
# What UTF-8 reads back

Reading accepts exactly what writing produces (`decode_eq_ok_iff`), so every text has one written
form. One half rests on `lead_encodeChar`: the bytes of a character begin with it, whatever follows
them. The other rests on `encodeChar_of_lead`: a character that bytes begin with has just those
bytes.
-/

namespace Courier.Utf8

/-! ## Bytes and numbers -/

theorem toNat_ofNat {n : Nat} (h : n < 256) : (UInt8.ofNat n).toNat = n := by
  rw [UInt8.toNat_ofNat']
  exact Nat.mod_eq_of_lt h

theorem ofNat_eq_iff {n : Nat} (h : n < 256) (b : UInt8) : UInt8.ofNat n = b ↔ n = b.toNat := by
  rw [← UInt8.toNat_inj, toNat_ofNat h]

theorem ofNat_eq {n : Nat} {b : UInt8} (h : n = b.toNat) : UInt8.ofNat n = b := by
  rw [h, UInt8.ofNat_toNat]

theorem toNat_valid (c : Char) : c.toNat < 0xD800 ∨ 0xDFFF < c.toNat ∧ c.toNat < 0x110000 :=
  c.valid

theorem toNat_charOfNat {n : Nat} (h : n < 0xD800 ∨ 0xDFFF < n ∧ n < 0x110000) :
    (Char.ofNat n).toNat = n := by
  rw [Char.ofNat, dif_pos h]
  rfl

/-! ## Continuation bytes -/

theorem isContinuation_iff {b : UInt8} :
    isContinuation b = true ↔ 0x80 ≤ b.toNat ∧ b.toNat < 0xC0 := by
  simp only [isContinuation, Bool.and_eq_true, decide_eq_true_iff]
  omega

theorem isContinuation_ofNat {m : Nat} (h : m < 0x40) :
    isContinuation (.ofNat (0x80 + m)) = true := by
  rw [isContinuation_iff, toNat_ofNat (by omega)]
  omega

theorem payload_ofNat {m : Nat} (h : m < 0x40) : payload (.ofNat (0x80 + m)) = m := by
  rw [payload, toNat_ofNat (by omega)]
  omega

theorem isSecond_iff {b c : UInt8} :
    isSecond b c = true ↔ 0x80 ≤ c.toNat ∧ c.toNat < 0xC0 ∧
      (b.toNat = 0xE0 → 0xA0 ≤ c.toNat) ∧ (b.toNat = 0xF0 → 0x90 ≤ c.toNat) ∧
      (b.toNat = 0xED → c.toNat < 0xA0) ∧ (b.toNat = 0xF4 → c.toNat < 0x90) := by
  simp only [isSecond, Bool.and_eq_true, decide_eq_true_iff, ← UInt8.toNat_inj, UInt8.toNat_ofNat,
    Nat.reduceMod, Nat.reducePow]
  split <;> split <;> (try split) <;> (try split) <;> omega

theorem isSecond_ofNat {f m : Nat} (hf : f < 256) (hm : m < 0x40)
    (h : (f = 0xE0 → 0x20 ≤ m) ∧ (f = 0xF0 → 0x10 ≤ m) ∧ (f = 0xED → m < 0x20) ∧
      (f = 0xF4 → m < 0x10)) :
    isSecond (.ofNat f) (.ofNat (0x80 + m)) = true := by
  rw [isSecond_iff, toNat_ofNat hf, toNat_ofNat (by omega)]
  omega

/-! ## One character -/

/-- The bytes of a character begin with it, whatever follows them. -/
theorem lead_encodeChar (c : Char) (rest : Bytes) :
    ∃ b more, encodeChar c = b :: more ∧ lead b (more ++ rest) = .char c more.length := by
  have hv := toNat_valid c
  have h₀ : c.toNat % 0x40 < 0x40 := by omega
  have h₁ : c.toNat / 0x40 % 0x40 < 0x40 := by omega
  have h₂ : c.toNat / 0x1000 % 0x40 < 0x40 := by omega
  unfold encodeChar
  dsimp only
  split
  · refine ⟨_, [], rfl, ?_⟩
    unfold lead
    dsimp only
    rw [toNat_ofNat (by omega), if_pos ‹_›, Char.ofNat_toNat]
    rfl
  split
  · refine ⟨_, [_], rfl, ?_⟩
    unfold lead
    dsimp only
    rw [toNat_ofNat (by omega), if_neg (by omega), if_neg (by omega), if_pos (by omega)]
    simp only [List.cons_append, List.length_cons, List.length_nil, isContinuation_ofNat h₀,
      payload_ofNat h₀, Bool.not_true, Bool.false_eq_true, if_false]
    rw [show (0xC0 + c.toNat / 0x40) % 0x20 * 0x40 + c.toNat % 0x40 = c.toNat by omega,
      Char.ofNat_toNat]
  split
  · refine ⟨_, [_, _], rfl, ?_⟩
    have hs := isSecond_ofNat (f := 0xE0 + c.toNat / 0x1000) (by omega) h₁ (by omega)
    unfold lead
    dsimp only
    rw [toNat_ofNat (by omega), if_neg (by omega), if_neg (by omega), if_neg (by omega),
      if_pos (by omega)]
    simp only [List.cons_append, List.length_cons, List.length_nil, hs, isContinuation_ofNat h₀,
      payload_ofNat h₀, payload_ofNat h₁, Bool.not_true, Bool.false_eq_true, if_false]
    rw [show (0xE0 + c.toNat / 0x1000) % 0x10 * 0x1000 + c.toNat / 0x40 % 0x40 * 0x40 +
      c.toNat % 0x40 = c.toNat by omega, Char.ofNat_toNat]
  · refine ⟨_, [_, _, _], rfl, ?_⟩
    have hs := isSecond_ofNat (f := 0xF0 + c.toNat / 0x40000) (by omega) h₂ (by omega)
    unfold lead
    dsimp only
    rw [toNat_ofNat (by omega), if_neg (by omega), if_neg (by omega), if_neg (by omega),
      if_neg (by omega), if_pos (by omega)]
    simp only [List.cons_append, List.length_cons, List.length_nil, hs, isContinuation_ofNat h₀,
      isContinuation_ofNat h₁, payload_ofNat h₀, payload_ofNat h₁, payload_ofNat h₂, Bool.not_true,
      Bool.false_eq_true, if_false]
    rw [show (0xF0 + c.toNat / 0x40000) % 0x08 * 0x40000 + c.toNat / 0x1000 % 0x40 * 0x1000 +
      c.toNat / 0x40 % 0x40 * 0x40 + c.toNat % 0x40 = c.toNat by omega, Char.ofNat_toNat]

/-- A character that bytes begin with has just those bytes. -/
theorem encodeChar_of_lead {b : UInt8} {rest : Bytes} {c : Char} {extra : Nat}
    (h : lead b rest = .char c extra) :
    extra ≤ rest.length ∧ encodeChar c = b :: rest.take extra := by
  have hb := b.toNat_lt
  unfold lead at h
  dsimp only at h
  split at h
  · cases h
    refine ⟨Nat.zero_le _, ?_⟩
    rw [encodeChar, toNat_charOfNat (by omega), if_pos ‹_›, ofNat_eq rfl, List.take_zero]
  split at h
  · cases h
  split at h
  · split at h
    · cases h
    · rename_i second tail
      split at h
      · cases h
      · rename_i hs
        cases h
        have := (isContinuation_iff (b := second)).1 (by simpa using hs)
        refine ⟨Nat.le_add_left .., ?_⟩
        unfold encodeChar
        dsimp only [payload]
        rw [toNat_charOfNat (by omega), if_neg (by omega), if_pos (by omega),
          ofNat_eq (b := b) (by omega), ofNat_eq (b := second) (by omega)]
        rfl
  split at h
  · split at h
    · cases h
    · split at h <;> cases h
    · rename_i second third tail
      split at h
      · cases h
      split at h
      · cases h
      · rename_i hs ht
        cases h
        have := (isSecond_iff (b := b) (c := second)).1 (by simpa using hs)
        have := (isContinuation_iff (b := third)).1 (by simpa using ht)
        refine ⟨Nat.le_add_left .., ?_⟩
        unfold encodeChar
        dsimp only [payload]
        rw [toNat_charOfNat (by omega), if_neg (by omega), if_neg (by omega), if_pos (by omega),
          ofNat_eq (b := b) (by omega), ofNat_eq (b := second) (by omega),
          ofNat_eq (b := third) (by omega)]
        rfl
  split at h
  · split at h
    · cases h
    · split at h <;> cases h
    · split at h
      · cases h
      · split at h <;> cases h
    · rename_i second third fourth tail
      split at h
      · cases h
      split at h
      · cases h
      split at h
      · cases h
      · rename_i hs ht hf
        cases h
        have := (isSecond_iff (b := b) (c := second)).1 (by simpa using hs)
        have := (isContinuation_iff (b := third)).1 (by simpa using ht)
        have := (isContinuation_iff (b := fourth)).1 (by simpa using hf)
        refine ⟨Nat.le_add_left .., ?_⟩
        unfold encodeChar
        dsimp only [payload]
        rw [toNat_charOfNat (by omega), if_neg (by omega), if_neg (by omega), if_neg (by omega),
          ofNat_eq (b := b) (by omega), ofNat_eq (b := second) (by omega),
          ofNat_eq (b := third) (by omega), ofNat_eq (b := fourth) (by omega)]
        rfl
  · cases h

/-! ## Texts -/

theorem decodeFrom_length_append (offset : Nat) (skipped rest : Bytes) :
    decodeFrom offset skipped.length (skipped ++ rest) =
      decodeFrom (offset + skipped.length) 0 rest := by
  induction skipped generalizing offset with
  | nil => rfl
  | cons b more ih =>
    rw [List.length_cons, List.cons_append, decodeFrom, ih, Nat.add_right_comm]
    rfl

theorem decodeFrom_eq_drop {offset skip : Nat} {bs : Bytes} (h : skip ≤ bs.length) :
    decodeFrom offset skip bs = decodeFrom (offset + skip) 0 (bs.drop skip) := by
  have := decodeFrom_length_append offset (bs.take skip) (bs.drop skip)
  rwa [List.take_append_drop, List.length_take_of_le h] at this

theorem decodeFrom_encodeChars (offset : Nat) (cs : List Char) :
    decodeFrom offset 0 (encodeChars cs) = .ok cs := by
  induction cs generalizing offset with
  | nil => rfl
  | cons c cs ih =>
    obtain ⟨b, more, he, hl⟩ := lead_encodeChar c (encodeChars cs)
    rw [encodeChars, List.flatMap_cons, he, ← encodeChars, List.cons_append, decodeFrom, hl]
    dsimp only
    rw [decodeFrom_length_append, ih]
    rfl

theorem eq_encodeChars_of_decodeFrom {offset : Nat} {bs : Bytes} {cs : List Char}
    (h : decodeFrom offset 0 bs = .ok cs) : bs = encodeChars cs := by
  induction hn : bs.length using Nat.strongRecOn generalizing offset bs cs with
  | ind n ih =>
    cases bs with
    | nil => cases h; rfl
    | cons b rest =>
      rw [decodeFrom] at h
      cases hl : lead b rest with
      | bad length => rw [hl] at h; cases h
      | cut => rw [hl] at h; cases h
      | char c extra =>
        rw [hl] at h
        dsimp only at h
        obtain ⟨hle, he⟩ := encodeChar_of_lead hl
        rw [decodeFrom_eq_drop hle] at h
        cases hd : decodeFrom (offset + 1 + extra) 0 (rest.drop extra) with
        | error fault => rw [hd] at h; cases h
        | ok tail =>
          rw [hd] at h
          cases h
          have hlt : (rest.drop extra).length < n := by
            rw [← hn, List.length_drop, List.length_cons]
            omega
          rw [encodeChars, List.flatMap_cons, he, ← encodeChars, ← ih _ hlt hd rfl,
            List.cons_append, List.take_append_drop]

theorem length_encodeChar_le (c : Char) : (encodeChar c).length ≤ 4 := by
  unfold encodeChar
  dsimp only
  repeat' split
  all_goals simp

/-- A character takes at most four bytes. -/
theorem length_encode_le (s : String) : (encode s).length ≤ 4 * s.toList.length := by
  rw [encode]
  induction s.toList with
  | nil => exact Nat.le_refl 0
  | cons c rest ih =>
    have hc := length_encodeChar_le c
    rw [encodeChars, List.flatMap_cons, List.length_append, ← encodeChars, List.length_cons]
    omega

theorem decode_encode (s : String) : decode (encode s) = .ok s := by
  rw [decode, encode, decodeFrom_encodeChars]
  exact congrArg Except.ok String.ofList_toList

theorem encode_injective : Function.Injective encode := fun s t h =>
  Except.ok.inj ((decode_encode s).symm.trans (h ▸ decode_encode t))

theorem eq_encode_of_decode {bs : Bytes} {s : String} (h : decode bs = .ok s) : bs = encode s := by
  rw [decode] at h
  cases hd : decodeFrom 0 0 bs with
  | error fault => rw [hd] at h; cases h
  | ok cs =>
    rw [hd] at h
    cases h
    rw [encode, String.toList_ofList]
    exact eq_encodeChars_of_decodeFrom hd

theorem decode_eq_ok_iff {bs : Bytes} {s : String} : decode bs = .ok s ↔ bs = encode s :=
  ⟨eq_encode_of_decode, fun h => h ▸ decode_encode s⟩

end Courier.Utf8
