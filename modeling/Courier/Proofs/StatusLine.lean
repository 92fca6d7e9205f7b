import Courier.Proofs.DeclaredLength
import Courier.Proofs.StartLine

/-!
# Status lines in writing

The texts that are read as a status are three digits the first of which is not zero
(`Status.isCode_iff`), and a status is written as the digits that it is read from
(`Status.ofString?_eq_some_iff`). So a text is a status line exactly if it is the written form of
one (`StatusLine.parse_eq_ok_iff`), and all that this asks of a line is a protocol that is not empty
and has no space inside.
-/

namespace Courier

namespace Status

/-! ## Codes -/

/-- Three digits the first of which is not zero. -/
def IsCode (s : String) : Prop :=
  s.toList.length = 3 ∧ (∀ c ∈ s.toList, c.isDigit = true) ∧ s.toList.head? ≠ some '0'

theorem isDigit_digitChar {d : Nat} (h : d < 10) : d.digitChar.isDigit = true := by
  rw [Char.isDigit_iff_toNat, Nat.toNat_digitChar_of_lt_ten h]
  exact ⟨by simp, by simp; omega⟩

theorem exists_digitChar {c : Char} (h : c.isDigit = true) : ∃ d < 10, c = d.digitChar := by
  obtain ⟨hl, hu⟩ : 48 ≤ c.toNat ∧ c.toNat ≤ 57 := Char.isDigit_iff_toNat.1 h
  refine ⟨c.toNat - 48, by omega, ?_⟩
  rw [← Char.toNat_inj, Nat.toNat_digitChar_of_lt_ten (by omega)]
  omega

/-- A number of three digits is written as these. -/
theorem toDigits_three {a b c : Nat} (hpos : 0 < a) (ha : a < 10) (hb : b < 10) (hc : c < 10) :
    Nat.toDigits 10 (a * 100 + b * 10 + c) = [a.digitChar, b.digitChar, c.digitChar] := by
  have hn : a * 100 + b * 10 + c = 10 * (10 * a + b) + c := by omega
  rw [hn, ← Nat.toDigits_append_toDigits (by decide) (by omega) hc,
    ← Nat.toDigits_append_toDigits (by decide) hpos hb, Nat.toDigits_of_lt_base ha,
    Nat.toDigits_of_lt_base hb, Nat.toDigits_of_lt_base hc]
  rfl

/-- A status is written as three digits that make its number. -/
theorem exists_toList_render (status : Status) :
    ∃ a b c, 0 < a ∧ a < 10 ∧ b < 10 ∧ c < 10 ∧ status.code = a * 100 + b * 10 + c ∧
      status.render.toList = [a.digitChar, b.digitChar, c.digitChar] := by
  have hlow := status.low
  have hhigh := status.high
  have hcode : status.code =
      status.code / 100 * 100 + status.code / 10 % 10 * 10 + status.code % 10 := by
    omega
  refine ⟨status.code / 100, status.code / 10 % 10, status.code % 10, by omega, by omega, by omega,
    by omega, hcode, ?_⟩
  rw [render, DeclaredLength.toList_toString, ← toDigits_three (by omega) (by omega) (by omega)
    (by omega), ← hcode]

theorem ofString?_of_digits {s : String} {a b c : Nat} (ha : a < 10) (hb : b < 10) (hc : c < 10)
    (hs : s.toList = [a.digitChar, b.digitChar, c.digitChar]) :
    ofString? s = ofNat? (a * 100 + b * 10 + c) := by
  unfold ofString?
  rw [hs]
  simp only [isDigit_digitChar ha, isDigit_digitChar hb, isDigit_digitChar hc, Bool.and_self,
    if_true, Nat.toNat_digitChar_of_lt_ten ha, Nat.toNat_digitChar_of_lt_ten hb,
    Nat.toNat_digitChar_of_lt_ten hc, Nat.add_sub_cancel_left]

theorem ofString?_render (status : Status) : ofString? status.render = some status := by
  obtain ⟨a, b, c, -, ha, hb, hc, hcode, hs⟩ := status.exists_toList_render
  rw [ofString?_of_digits ha hb hc hs, ← hcode, ofNat?, dif_pos ⟨status.low, status.high⟩]

theorem isCode_render (status : Status) : IsCode status.render := by
  obtain ⟨a, b, c, hpos, ha, hb, hc, -, hs⟩ := status.exists_toList_render
  unfold IsCode
  rw [hs]
  refine ⟨rfl, ?_, ?_⟩
  · simp [isDigit_digitChar ha, isDigit_digitChar hb, isDigit_digitChar hc]
  · intro hz
    have hnat : a.digitChar.toNat = 48 := congrArg Char.toNat (Option.some.inj hz)
    rw [Nat.toNat_digitChar_of_lt_ten ha] at hnat
    omega

/-- The texts that are the code of a status are those of its form. -/
theorem isCode_iff {s : String} : IsCode s ↔ ∃ status : Status, s = status.render := by
  constructor
  · rintro ⟨hl, hd, hz⟩
    obtain ⟨x, y, z, hs⟩ := List.length_eq_three.1 hl
    rw [hs] at hd hz
    obtain ⟨a, ha, rfl⟩ := exists_digitChar (hd x (by simp))
    obtain ⟨b, hb, rfl⟩ := exists_digitChar (hd y (by simp))
    obtain ⟨c, hc, rfl⟩ := exists_digitChar (hd z (by simp))
    have hpos : 0 < a := Nat.pos_of_ne_zero (by rintro rfl; exact hz rfl)
    refine ⟨⟨a * 100 + b * 10 + c, by omega, by omega⟩, ?_⟩
    rw [← String.toList_inj, hs, render, DeclaredLength.toList_toString,
      toDigits_three hpos ha hb hc]
  · rintro ⟨status, rfl⟩
    exact status.isCode_render

theorem isCode_of_ofString? {s : String} {status : Status} (h : ofString? s = some status) :
    IsCode s := by
  unfold ofString? at h
  split at h
  · rename_i x y z hs
    split_ifs at h with hd
    simp only [Bool.and_eq_true] at hd
    obtain ⟨⟨hx, hy⟩, hz⟩ := hd
    unfold IsCode
    rw [hs]
    refine ⟨rfl, by simp [hx, hy, hz], ?_⟩
    -- With a zero in front the number has two digits, and no status has that.
    intro hzero
    cases hzero
    obtain ⟨b, hb, rfl⟩ := exists_digitChar hy
    obtain ⟨c, hc, rfl⟩ := exists_digitChar hz
    rw [Nat.toNat_digitChar_of_lt_ten hb, Nat.toNat_digitChar_of_lt_ten hc, ofNat?,
      dif_neg (by simp; omega)] at h
    cases h
  · cases h

/-- A text is read as the status that is written as this text. -/
theorem ofString?_eq_some_iff {s : String} {status : Status} :
    ofString? s = some status ↔ s = status.render := by
  constructor
  · intro h
    obtain ⟨other, rfl⟩ := isCode_iff.1 (isCode_of_ofString? h)
    rw [other.ofString?_render] at h
    rw [Option.some.inj h]
  · rintro rfl
    exact status.ofString?_render

end Status

namespace StatusLine

/-- The text is the line in writing: a protocol, a status and a phrase with a space between any two
of them. The protocol is not empty and has no space inside. -/
def IsWritten (s : String) (line : StatusLine) : Prop :=
  s = line.render ∧ line.protocol ≠ "" ∧ ' ' ∉ line.protocol.toList

theorem space_notMem_render (status : Status) : ' ' ∉ status.render.toList :=
  Text.notMem_of_isToken (DeclaredLength.isToken_toString status.code) (by decide)

/-- The texts that are read as a status line are its written form. -/
theorem parse_eq_ok_iff {s : String} {line : StatusLine} :
    parse s = .ok line ↔ IsWritten s line := by
  constructor
  · intro h
    unfold parse at h
    split at h
    · cases h
    · rename_i protocol rest hs
      obtain ⟨rfl, hp⟩ := Text.splitOnce_eq_some_iff.1 hs
      split at h
      · cases h
      · rename_i code phrase hr
        obtain ⟨rfl, -⟩ := Text.splitOnce_eq_some_iff.1 hr
        split_ifs at h with he
        · cases hc : Status.ofString? code with
          | none =>
            rw [hc] at h
            cases h
          | some status =>
            rw [hc] at h
            cases h
            obtain rfl := Status.ofString?_eq_some_iff.1 hc
            refine ⟨?_, mt String.isEmpty_iff.2 he, hp⟩
            simp [render, String.append_assoc]
  · rintro ⟨rfl, hne, hp⟩
    have hfirst : Text.splitOnce ' ' line.render =
        some (line.protocol, line.status.render ++ " " ++ line.phrase) :=
      Text.splitOnce_eq_some_iff.2 ⟨by simp [render, String.append_assoc], hp⟩
    have hsecond : Text.splitOnce ' ' (line.status.render ++ " " ++ line.phrase) =
        some (line.status.render, line.phrase) :=
      Text.splitOnce_eq_some_iff.2 ⟨rfl, space_notMem_render line.status⟩
    rw [parse, hfirst]
    dsimp only
    rw [hsecond]
    dsimp only
    rw [if_neg (mt String.isEmpty_iff.1 hne), line.status.ofString?_render]

/-- A text that is no status line is refused as one that is malformed. -/
theorem eq_malformed_of_parse {s : String} {error : ValidationError} (h : parse s = .error error) :
    error = .malformedStatusLine s := by
  unfold parse at h
  split at h
  · cases h
    rfl
  · split at h
    · cases h
      rfl
    · split_ifs at h
      · cases h
        rfl
      · split at h
        · cases h
        · cases h
          rfl

/-! ## Three parts -/

/-- The text is a protocol, a code and a phrase, with a space between any two of them. The protocol
is not empty and has no space inside; the phrase is any text. -/
def IsCut (s protocol code phrase : String) : Prop :=
  s = protocol ++ " " ++ code ++ " " ++ phrase ∧ (protocol ≠ "" ∧ ' ' ∉ protocol.toList) ∧
    Status.IsCode code

theorem isCut_iff {s protocol code phrase : String} :
    IsCut s protocol code phrase ↔
      ∃ line, parse s = .ok line ∧ line.protocol = protocol ∧ line.status.render = code ∧
        line.phrase = phrase := by
  constructor
  · rintro ⟨hs, hprotocol, hcode⟩
    obtain ⟨status, rfl⟩ := Status.isCode_iff.1 hcode
    have hw : IsWritten s { protocol, status, phrase } := ⟨hs, hprotocol⟩
    exact ⟨_, parse_eq_ok_iff.2 hw, rfl, rfl, rfl⟩
  · rintro ⟨line, hline, rfl, rfl, rfl⟩
    obtain ⟨hs, hprotocol⟩ := parse_eq_ok_iff.1 hline
    exact ⟨hs, hprotocol, line.status.isCode_render⟩

theorem exists_parse_eq_ok_iff {s : String} :
    (∃ line, parse s = .ok line) ↔ ∃ protocol code phrase, IsCut s protocol code phrase := by
  constructor
  · rintro ⟨line, hline⟩
    exact ⟨_, _, _, isCut_iff.2 ⟨line, hline, rfl, rfl, rfl⟩⟩
  · rintro ⟨protocol, code, phrase, hcut⟩
    obtain ⟨line, hline, -⟩ := isCut_iff.1 hcut
    exact ⟨line, hline⟩

/-- The texts that are read as status lines are those that are cut into a protocol, a code and a
phrase; these are the parts of the line, and the line is written as the text again. Every other text
is malformed. A line of any status and any two texts is read back from its written form exactly if
its protocol is not empty and has no space inside. -/
theorem parse_reads_code_between :
    (∀ s protocol code phrase, IsCut s protocol code phrase ↔
      ∃ line, parse s = .ok line ∧ line.protocol = protocol ∧ line.status.render = code ∧
        line.phrase = phrase) ∧
    (∀ s line, parse s = .ok line → line.render = s) ∧
    (∀ s, parse s = .error (.malformedStatusLine s) ↔
      ¬ ∃ protocol code phrase, IsCut s protocol code phrase) ∧
    ∀ line : StatusLine, parse line.render = .ok line ↔
      line.protocol ≠ "" ∧ ' ' ∉ line.protocol.toList := by
  refine ⟨fun s protocol code phrase => isCut_iff, fun s line h => ?_, fun s => ?_, fun line => ?_⟩
  · exact (parse_eq_ok_iff.1 h).1.symm
  · rw [eq_error_iff_of_forall fun _ => eq_malformed_of_parse, exists_parse_eq_ok_iff]
  · rw [parse_eq_ok_iff]
    exact ⟨fun h => h.2, fun h => ⟨rfl, h⟩⟩

/-- A line whose protocol has a space inside is read as another line. -/
example :
    parse (render { protocol := "A 100", status := .notFound, phrase := "B" }) =
      .ok { protocol := "A", status := { code := 100 }, phrase := "404 B" } := by
  decide +kernel

end StatusLine

end Courier
