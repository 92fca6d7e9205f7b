import Courier.Proofs.DeclaredLength
import Courier.Proofs.Headers.Valid
import Mathlib.Data.Nat.Digits.Defs
import Mathlib.Logic.Relation

/-!
# What headers can say about the length

A text of digits denotes a number, read in base ten and with any number of zeros in front
(`Numeral.Denotes`). Headers give no length if they have no value for it, a length if all of their
values denote it and a signed 64-bit word holds it, and a fault in all other cases
(`DeclaredLength.ofHeaders_outcomes`).

The order of the values, how often one of them is there and the zeros in front of it make no
difference (`DeclaredLength.Restated`).
-/

namespace Courier

namespace Numeral

/-- The text is made of ASCII digits, one at least, and `n` is what they are in base ten. -/
def Denotes (text : String) (n : Nat) : Prop :=
  text.toList ≠ [] ∧ (∀ c ∈ text.toList, c.isDigit = true) ∧
    Nat.ofDigits 10 (text.toList.reverse.map fun c => c.toNat - '0'.toNat) = n

/-- So many zeros. -/
def zeros (count : Nat) : String :=
  String.ofList (List.replicate count '0')

theorem foldl_digits (cs : List Char) (n : Nat) :
    cs.foldl (fun n c => n * 10 + (c.toNat - '0'.toNat)) n =
      n * 10 ^ cs.length + Nat.ofDigits 10 (cs.reverse.map fun c => c.toNat - '0'.toNat) := by
  induction cs generalizing n with
  | nil => simp
  | cons c rest ih =>
    rw [List.foldl_cons, ih, List.reverse_cons, List.map_append, List.map_singleton,
      Nat.ofDigits_append, Nat.ofDigits_singleton, List.length_map, List.length_reverse,
      List.length_cons]
    ring

theorem ofDigits?_eq_some_iff {text : String} {n : Nat} :
    ofDigits? text = some n ↔ Denotes text n := by
  unfold ofDigits? Denotes
  rw [foldl_digits, Nat.zero_mul, Nat.zero_add]
  split_ifs with h
  · rw [Bool.and_eq_true, List.all_eq_true] at h
    have hne : text.toList ≠ [] := by simpa using h.1
    rw [Option.some.injEq]
    exact ⟨fun hn => ⟨hne, h.2, hn⟩, fun hn => hn.2.2⟩
  · refine iff_of_false (by simp) fun ⟨hne, hd, _⟩ => h ?_
    rw [Bool.and_eq_true, List.all_eq_true]
    exact ⟨by simpa using hne, hd⟩

/-- Zeros in front of a number do not change it. -/
theorem Denotes.zeros_append {text : String} {n : Nat} (h : Denotes text n) (count : Nat) :
    Denotes (zeros count ++ text) n := by
  obtain ⟨hne, hd, hn⟩ := h
  rw [Denotes, zeros, String.toList_append, String.toList_ofList]
  refine ⟨by simp [hne], fun c hc => ?_, ?_⟩
  · rcases List.mem_append.1 hc with hc | hc
    · rw [List.eq_of_mem_replicate hc]
      rfl
    · exact hd c hc
  · rw [List.reverse_append, List.reverse_replicate, List.map_append, List.map_replicate, ← hn]
    exact Nat.ofDigits_append_replicate_zero _

theorem Denotes.unique {text : String} {m n : Nat} (hm : Denotes text m) (hn : Denotes text n) :
    m = n :=
  hm.2.2.symm.trans hn.2.2

end Numeral

namespace DeclaredLength

open Numeral (Denotes zeros maxSigned)

/-! ## Values that say the same -/

/-- One step that leaves the length as it is: other order, one value once more, zeros in front of
one that is a number. -/
inductive Restated : List String → List String → Prop
  | reordered {values values' : List String} (h : values.Perm values') : Restated values values'
  | repeated {value : String} {values : List String} (h : value ∈ values) :
      Restated values (value :: values)
  | padded {value : String} {before after : List String} {n : Nat} (h : Denotes value n)
      (count : Nat) :
      Restated (before ++ value :: after) (before ++ (zeros count ++ value) :: after)

/-- The values are numbers that agree, and not too large a number. -/
def Agree (values : List String) (n : Nat) : Prop :=
  values ≠ [] ∧ n ≤ maxSigned ∧ ∀ value ∈ values, Denotes value n

theorem Restated.nil_iff {values values' : List String} (h : Restated values values') :
    values = [] ↔ values' = [] := by
  cases h with
  | reordered h => rw [← List.length_eq_zero_iff, h.length_eq, List.length_eq_zero_iff]
  | repeated h => exact iff_of_false (List.ne_nil_of_mem h) (by simp)
  | padded => simp

theorem Restated.agree_iff {values values' : List String} (h : Restated values values') (n : Nat) :
    Agree values n ↔ Agree values' n := by
  refine and_congr (not_congr h.nil_iff) (and_congr_right fun _ => ?_)
  cases h with
  | reordered h =>
    exact ⟨fun ha v hv => ha v (h.mem_iff.2 hv), fun ha v hv => ha v (h.mem_iff.1 hv)⟩
  | repeated h =>
    rw [List.forall_mem_cons]
    exact ⟨fun ha => ⟨ha _ h, ha⟩, fun ha => ha.2⟩
  | @padded value before after m hm count =>
    have hv : Denotes value n ↔ Denotes (zeros count ++ value) n := by
      refine ⟨fun h => h.zeros_append count, fun h => ?_⟩
      rwa [h.unique (hm.zeros_append count)]
    simp only [List.forall_mem_append, List.forall_mem_cons, hv]

theorem nil_iff_of_restated {values values' : List String}
    (h : Relation.ReflTransGen Restated values values') : values = [] ↔ values' = [] := by
  induction h with
  | refl => rfl
  | tail _ hstep ih => exact ih.trans hstep.nil_iff

theorem agree_iff_of_restated {values values' : List String}
    (h : Relation.ReflTransGen Restated values values') (n : Nat) :
    Agree values n ↔ Agree values' n := by
  induction h with
  | refl => rfl
  | tail _ hstep ih => exact ih.trans (hstep.agree_iff n)

/-! ## The three outcomes -/

section

variable {headers headers' : Headers} (hr : headers.Reachable)

include hr

theorem ofHeaders_eq_ok_iff_of_reachable {length : Option Nat} :
    ofHeaders headers = .ok length ↔ IsDeclared headers.pairs length :=
  DeclaredLength.ofHeaders_eq_ok_iff hr.valid.ofPairs_pairs fun _ hm =>
    have hp := hr.valid.of_mem_pairs hm
    ⟨HeaderName.trim_of_isValid hp.1, hp.2.2.1⟩

theorem ofHeaders_eq_some_iff_of_reachable {n : Nat} :
    ofHeaders headers = .ok (some n) ↔ Agree (values headers.pairs) n := by
  rw [ofHeaders_eq_ok_iff_of_reachable hr, IsDeclared, Agree]
  simp only [Numeral.ofDigits?_eq_some_iff]

/-- Restated values give the same length, and none if there was none before. -/
theorem ofHeaders_eq_ok_iff_of_restated (hr' : headers'.Reachable)
    (hv : Relation.ReflTransGen Restated (values headers.pairs) (values headers'.pairs))
    (length : Option Nat) : ofHeaders headers' = .ok length ↔ ofHeaders headers = .ok length := by
  cases length with
  | none =>
    rw [ofHeaders_eq_ok_iff_of_reachable hr', ofHeaders_eq_ok_iff_of_reachable hr]
    exact (nil_iff_of_restated hv).symm
  | some n =>
    rw [ofHeaders_eq_some_iff_of_reachable hr', ofHeaders_eq_some_iff_of_reachable hr]
    exact (agree_iff_of_restated hv n).symm

end

/-- Headers that can be made give no length exactly if they have no value for it, a length exactly
if all of their values, one at least, are that number in digits and it fits a signed 64-bit word,
and a fault otherwise. Restated values change nothing about that. -/
theorem ofHeaders_outcomes {headers : Headers} (hr : headers.Reachable) :
    (ofHeaders headers = .ok none ↔ values headers.pairs = []) ∧
      (∀ n, ofHeaders headers = .ok (some n) ↔
        values headers.pairs ≠ [] ∧ n ≤ 2 ^ 63 - 1 ∧
          ∀ value ∈ values headers.pairs, Denotes value n) ∧
      ((∃ fault, ofHeaders headers = .error fault) ↔
        values headers.pairs ≠ [] ∧
          ¬∃ n, n ≤ 2 ^ 63 - 1 ∧ ∀ value ∈ values headers.pairs, Denotes value n) ∧
      ∀ headers', headers'.Reachable →
        Relation.ReflTransGen Restated (values headers.pairs) (values headers'.pairs) →
          (ofHeaders headers').toOption = (ofHeaders headers).toOption := by
  have hnone : ofHeaders headers = .ok none ↔ values headers.pairs = [] :=
    ofHeaders_eq_ok_iff_of_reachable hr
  have hsome : ∀ n, ofHeaders headers = .ok (some n) ↔ Agree (values headers.pairs) n :=
    fun n => ofHeaders_eq_some_iff_of_reachable hr
  refine ⟨hnone, hsome, ?_, fun headers' hr' hv => ?_⟩
  · cases ho : ofHeaders headers with
    | ok length =>
      refine iff_of_false (by simp) fun ⟨hne, hno⟩ => ?_
      cases length with
      | none => exact hne (hnone.1 ho)
      | some n => exact hno ⟨n, ((hsome n).1 ho).2⟩
    | error fault =>
      refine iff_of_true ⟨fault, rfl⟩ ⟨fun he => ?_, fun ⟨n, hn⟩ => ?_⟩
      · rw [hnone.2 he] at ho
        cases ho
      · by_cases he : values headers.pairs = []
        · rw [hnone.2 he] at ho
          cases ho
        · rw [(hsome n).2 ⟨he, hn⟩] at ho
          cases ho
  · have hok := ofHeaders_eq_ok_iff_of_restated hr hr' hv
    cases ho : ofHeaders headers with
    | ok length => rw [(hok length).2 ho]
    | error fault =>
      cases ho' : ofHeaders headers' with
      | ok length =>
        rw [(hok length).1 ho'] at ho
        cases ho
      | error fault' => rfl

theorem ofHeaders_outcomes_of_repeated :
    ∃ once twice : Headers, once.Reachable ∧ twice.Reachable ∧ values once.pairs = ["7"] ∧
      values twice.pairs = ["7", "007"] ∧ ofHeaders once = .ok (some 7) ∧
      (ofHeaders twice).toOption = (ofHeaders once).toOption := by
  obtain ⟨once, hone, hseven⟩ : ∃ h, Headers.ofPairs [("content-LENGTH", "7")] = .ok h ∧
      values h.pairs = ["7"] :=
    ⟨⟨⟨[("Content-Length", ["7"])], by decide⟩⟩, by decide +kernel, by decide +kernel⟩
  obtain ⟨twice, htwo, hagain⟩ : ∃ h,
      Headers.ofPairs [("Content-Length", "7 "), ("CONTENT-LENGTH", " 007")] = .ok h ∧
        values h.pairs = ["7", "007"] :=
    ⟨⟨⟨[("Content-Length", ["7", "007"])], by decide⟩⟩, by decide +kernel, by decide +kernel⟩
  have hdigits : "7".toList.all Char.isDigit = true := by decide
  have hdenotes : Denotes "7" 7 := ⟨by decide, List.all_eq_true.1 hdigits, rfl⟩
  obtain ⟨-, hsome, -, hsame⟩ := ofHeaders_outcomes (.ofPairs hone)
  refine ⟨once, twice, .ofPairs hone, .ofPairs htwo, hseven, hagain, ?_,
    hsame twice (.ofPairs htwo) ?_⟩
  · rw [hsome, hseven]
    exact ⟨by simp, by decide, by simpa using hdenotes⟩
  · rw [hseven, hagain]
    exact (Relation.ReflTransGen.single (.repeated (List.mem_singleton_self "7"))).tail
      (@Restated.padded "7" ["7"] [] 7 hdenotes 2)

end DeclaredLength

end Courier
