import Courier.DeclaredLength
import Courier.Proofs.Headers.Field

/-!
# Fields that declare a length

Fields declare a length when those whose name is that of the length header, in any case, all have
digits of one number as their value, and a signed 64-bit word holds it
(`DeclaredLength.IsDeclared`). The headers that the fields make give just that length
(`ofHeaders_eq_ok_iff`).

A number that is written in digits is declared by its digits (`ofHeaders_set`), and a length that is
taken off is not declared any more (`ofHeaders_remove`).
-/

namespace Courier.DeclaredLength

/-- The values of the fields that declare the length. -/
def values (fields : List (String × String)) : List String :=
  (fields.filter fun field => Text.sameFold field.1 header).map (·.2)

/-- What the fields declare: no length if none of them is about it, otherwise the one that each of
their values gives in digits. -/
def IsDeclared (fields : List (String × String)) : Option Nat → Prop
  | none => values fields = []
  | some n => values fields ≠ [] ∧ n ≤ Numeral.maxSigned ∧
      ∀ value ∈ values fields, Numeral.ofDigits? value = some n

/-! ## Values -/

theorem ofValue_eq_ok_iff {value : String} {n : Nat} :
    ofValue value = .ok n ↔ Numeral.ofDigits? value = some n ∧ n ≤ Numeral.maxSigned := by
  unfold ofValue
  cases hd : Numeral.ofDigits? value with
  | none => simp
  | some m =>
    dsimp only
    split_ifs with hm
    · apply iff_of_false (by simp)
      rintro ⟨he, hn⟩
      cases he
      omega
    · rw [Except.ok.injEq, Option.some.injEq]
      exact ⟨fun h => ⟨h, by omega⟩, fun h => h.1⟩

/-- After one value that gave `length`, the values give `length` when each of them does. -/
theorem ofValues_some_eq_ok_iff {length : Nat} {values : List String} {result : Option Nat} :
    ofValues (some length) values = .ok result ↔
      result = some length ∧ ∀ value ∈ values, ofValue value = .ok length := by
  induction values with
  | nil => simp [ofValues, eq_comm]
  | cons value rest ih =>
    rw [ofValues]
    cases hv : ofValue value with
    | error e => simp [bind, Except.bind, hv]
    | ok n =>
      simp only [bind, Except.bind]
      by_cases hn : length = n
      · subst hn
        simp [ih, hv]
      · simp [hn, Ne.symm hn, hv]

theorem ofValues_none_eq_ok_iff {values : List String} {result : Option Nat} :
    ofValues none values = .ok result ↔
      match result with
      | none => values = []
      | some n => values ≠ [] ∧ ∀ value ∈ values, ofValue value = .ok n := by
  cases values with
  | nil => cases result <;> simp [ofValues]
  | cons value rest =>
    rw [ofValues]
    cases hv : ofValue value with
    | error e => cases result <;> simp [bind, Except.bind, hv]
    | ok n =>
      simp only [bind, Except.bind, ofValues_some_eq_ok_iff]
      cases result with
      | none => simp
      | some m =>
        simp only [Option.some.injEq, ne_eq, reduceCtorEq, not_false_eq_true, true_and,
          List.forall_mem_cons, hv, Except.ok.injEq]
        constructor
        · rintro ⟨rfl, h⟩
          exact ⟨rfl, h⟩
        · rintro ⟨rfl, h⟩
          exact ⟨rfl, h⟩

/-! ## Headers -/

/-- The headers that fields without padding make hold the declaring values. -/
theorem getAll_header_of_ofPairs {fields : List (String × String)} {headers : Headers}
    (hp : Headers.ofPairs fields = .ok headers)
    (ht : ∀ field ∈ fields, Text.trim field.1 = field.1 ∧ Text.trim field.2 = field.2) :
    headers.getAll header = values fields := by
  have name : Text.trim header = header := by decide
  rw [Headers.getAll_ofPairs hp, values]
  have hf : ∀ field ∈ fields, (HeaderName.normal field.1 == HeaderName.normal header) =
      Text.sameFold field.1 header := by
    intro field hm
    rw [Bool.eq_iff_iff, beq_iff_eq, HeaderName.normal_eq_iff, (ht field hm).1, name]
  rw [List.filter_congr hf]
  exact List.map_congr_left fun field hm => (ht field (List.mem_of_mem_filter hm)).2

/-- The headers give the length that their fields declare. -/
theorem ofHeaders_eq_ok_iff {fields : List (String × String)} {headers : Headers}
    (hp : Headers.ofPairs fields = .ok headers)
    (ht : ∀ field ∈ fields, Text.trim field.1 = field.1 ∧ Text.trim field.2 = field.2)
    {length : Option Nat} : ofHeaders headers = .ok length ↔ IsDeclared fields length := by
  rw [ofHeaders, getAll_header_of_ofPairs hp ht, ofValues_none_eq_ok_iff]
  cases length with
  | none => rfl
  | some n =>
    simp only [IsDeclared, ofValue_eq_ok_iff]
    apply and_congr_right
    intro hne
    constructor
    · intro h
      obtain ⟨value, hv⟩ := List.exists_mem_of_ne_nil _ hne
      exact ⟨(h value hv).2, fun value hv => (h value hv).1⟩
    · rintro ⟨hn, h⟩ value hv
      exact ⟨h value hv, hn⟩

/-! ## Lengths in digits -/

theorem toList_toString (n : Nat) : (toString n).toList = Nat.toDigits 10 n :=
  Nat.toList_repr

theorem isToken_toString (n : Nat) : Text.isToken (toString n) = true := by
  rw [Text.isToken_iff, toList_toString]
  refine ⟨Nat.toDigits_ne_nil, fun c hc => ?_⟩
  have hd : c.isDigit = true := Nat.isDigit_of_mem_toDigits (by decide) (by decide) hc
  simp [Text.isTokenChar, Char.isAlphanum, hd]

/-- The digits of a number give it back. -/
theorem ofDigits?_toString (n : Nat) : Numeral.ofDigits? (toString n) = some n := by
  have hd : (Nat.toDigits 10 n).all Char.isDigit = true :=
    List.all_eq_true.2 fun c hc => Nat.isDigit_of_mem_toDigits (by decide) (by decide) hc
  have hn : (Nat.toDigits 10 n).isEmpty = false := by simp
  rw [Numeral.ofDigits?, toList_toString, hd, hn]
  simp only [Bool.not_false, Bool.and_self, if_true, Option.some.injEq]
  have hf := @Nat.ofDigitChars_ten_toDigits n
  rw [Nat.ofDigitChars_eq_foldl] at hf
  simpa only [Nat.mul_comm] using hf

/-- Headers declare the length that is set. -/
theorem ofHeaders_set {headers headers' : Headers} {n : Nat} (hn : n ≤ Numeral.maxSigned)
    (hs : headers.set header (toString n) = .ok headers') : ofHeaders headers' = .ok (some n) := by
  rw [ofHeaders, Headers.getAll_set hs, if_pos rfl, Text.trim_of_isToken (isToken_toString n)]
  refine ofValues_none_eq_ok_iff.2 ⟨by simp, fun value hv => ?_⟩
  obtain rfl := List.mem_singleton.1 hv
  exact ofValue_eq_ok_iff.2 ⟨ofDigits?_toString n, hn⟩

/-- Headers declare no length when it is removed. -/
theorem ofHeaders_remove (headers : Headers) : ofHeaders (headers.remove header) = .ok none := by
  rw [ofHeaders, Headers.getAll_remove, if_pos rfl]
  rfl

end Courier.DeclaredLength
