import Courier.Headers.Name
import Courier.Proofs.Text.Trim
import Mathlib.Data.List.Basic
import Mathlib.Tactic.SplitIfs

/-!
# Spellings of a header name

Two texts have one kept spelling exactly when they differ in padding and in the case of ASCII
letters only (`HeaderName.same`, `normal_eq_iff`, `same_iff`). A valid name has no padding and no
colon, and a kept spelling is valid if the name is (`isValid_normal_eq`).
-/

namespace Courier

/-! ## Token characters -/

namespace Text

/-- The numbers of the token characters that are neither letters nor digits. -/
def tokenMarks : List Nat := [33, 35, 36, 37, 38, 39, 42, 43, 45, 46, 94, 95, 96, 124, 126]

theorem isTokenChar_iff (c : Char) :
    isTokenChar c = true ↔
      (48 ≤ c.toNat ∧ c.toNat ≤ 57) ∨ (65 ≤ c.toNat ∧ c.toNat ≤ 90) ∨
        (97 ≤ c.toNat ∧ c.toNat ≤ 122) ∨ c.toNat ∈ tokenMarks := by
  have marks : "!#$%&'*+-.^_`|~".toList.contains c = true ↔ c.toNat ∈ tokenMarks := by
    rw [List.contains_iff_mem, ← List.mem_map_of_injective fun _ _ => Char.toNat_inj.1]
    exact iff_of_eq (congrArg (c.toNat ∈ ·) (by decide))
  have alphanum : c.isAlphanum = true ↔ (48 ≤ c.toNat ∧ c.toNat ≤ 57) ∨
      (65 ≤ c.toNat ∧ c.toNat ≤ 90) ∨ (97 ≤ c.toNat ∧ c.toNat ≤ 122) := by
    delta Char.isAlphanum Char.isAlpha Char.isUpper Char.isLower Char.isDigit
    simp only [Bool.or_eq_true, Bool.and_eq_true, decide_eq_true_eq, ge_iff_le,
      UInt32.le_iff_toNat_le, Char.toNat_val, Char.reduceToNat]
    omega
  rw [isTokenChar, Bool.or_eq_true, marks, alphanum, or_assoc, or_assoc]

theorem isBlank_of_isTokenChar {c : Char} (h : isTokenChar c = true) : isBlank c = false := by
  rw [isTokenChar_iff] at h
  simp only [tokenMarks, List.mem_cons, List.not_mem_nil, or_false] at h
  rw [Bool.eq_false_iff]
  simp only [isBlank, ne_eq, Bool.or_eq_true, Bool.and_eq_true, decide_eq_true_eq, beq_iff_eq]
  omega

theorem isTokenChar_toUpper (c : Char) : isTokenChar c.toUpper = isTokenChar c := by
  rw [Bool.eq_iff_iff, isTokenChar_iff, isTokenChar_iff, toNat_toUpper]
  simp only [tokenMarks, List.mem_cons, List.not_mem_nil, or_false]
  split_ifs <;> omega

theorem isTokenChar_toLower (c : Char) : isTokenChar c.toLower = isTokenChar c := by
  rw [Bool.eq_iff_iff, isTokenChar_iff, isTokenChar_iff, toNat_toLower]
  simp only [tokenMarks, List.mem_cons, List.not_mem_nil, or_false]
  split_ifs <;> omega

theorem isToken_iff (s : String) :
    isToken s = true ↔ s.toList ≠ [] ∧ ∀ c ∈ s.toList, isTokenChar c = true := by
  simp [isToken]

theorem notMem_of_isToken {s : String} {c : Char} (h : isToken s = true)
    (hc : isTokenChar c = false) : c ∉ s.toList := by
  intro hm
  have := ((isToken_iff s).1 h).2 c hm
  rw [hc] at this
  cases this

theorem hasLineBreak_of_isToken {s : String} (h : isToken s = true) : hasLineBreak s = false := by
  rw [hasLineBreak, List.any_eq_false]
  intro c hm
  have := ((isToken_iff s).1 h).2 c hm
  rw [Bool.or_eq_true, beq_iff_eq, beq_iff_eq, not_or]
  constructor
  · rintro rfl
    exact absurd this (by decide)
  · rintro rfl
    exact absurd this (by decide)

/-- A token has no padding. -/
theorem trim_of_isToken {s : String} (h : isToken s = true) : trim s = s :=
  trim_of_forall_isBlank fun c hc => isBlank_of_isTokenChar (((isToken_iff s).1 h).2 c hc)

theorem toLower_toUpper (c : Char) : c.toUpper.toLower = c.toLower := by
  rw [← Char.toNat_inj, toNat_toLower, toNat_toLower, toNat_toUpper]
  split_ifs <;> omega

theorem toUpper_toLower (c : Char) : c.toLower.toUpper = c.toUpper := by
  rw [← Char.toNat_inj, toNat_toUpper, toNat_toUpper, toNat_toLower]
  split_ifs <;> omega

theorem sameFold_iff (s t : String) :
    sameFold s t = true ↔ s.toList.map Char.toLower = t.toList.map Char.toLower := by
  rw [sameFold, beq_iff_eq, lower, lower, String.ofList_inj]

end Text

/-! ## Kept spellings -/

namespace HeaderName

theorem map_toLower_spell (raised : Bool) (cs : List Char) :
    (spell raised cs).map Char.toLower = cs.map Char.toLower := by
  induction cs generalizing raised with
  | nil => rfl
  | cons c rest ih =>
    rw [spell, List.map_cons, List.map_cons, ih]
    cases raised
    · exact congrArg (· :: _) (Text.toLower_toLower c)
    · exact congrArg (· :: _) (Text.toLower_toUpper c)

theorem spellChar_eq_of_toLower_eq {raised : Bool} {c d : Char} (h : c.toLower = d.toLower) :
    spellChar raised c = spellChar raised d := by
  cases raised
  · exact h
  · show c.toUpper = d.toUpper
    rw [← Text.toUpper_toLower c, h, Text.toUpper_toLower]

theorem spell_eq_of_map_toLower_eq {raised : Bool} {cs ds : List Char}
    (h : cs.map Char.toLower = ds.map Char.toLower) : spell raised cs = spell raised ds := by
  induction cs generalizing raised ds with
  | nil =>
    obtain rfl := List.map_eq_nil_iff.1 h.symm
    rfl
  | cons c cs ih =>
    cases ds with
    | nil => simp at h
    | cons d ds =>
      rw [List.map_cons, List.map_cons, List.cons.injEq] at h
      have hyphen : (c == '-') = (d == '-') := by
        rw [Bool.eq_iff_iff, beq_iff_eq, beq_iff_eq,
          ← @spellChar_eq_hyphen_iff false c, ← @spellChar_eq_hyphen_iff false d,
          spellChar_eq_of_toLower_eq h.1]
      rw [spell, spell, spellChar_eq_of_toLower_eq h.1, hyphen, ih h.2]

/-- Names that differ in padding and in the case of ASCII letters only have one kept spelling. -/
theorem normal_eq_iff {a b : String} :
    normal a = normal b ↔ Text.sameFold (Text.trim a) (Text.trim b) = true := by
  rw [Text.sameFold_iff, Text.toList_trim, Text.toList_trim, normal, normal, String.ofList_inj]
  constructor
  · intro h
    rw [← map_toLower_spell true, h, map_toLower_spell]
  · exact spell_eq_of_map_toLower_eq

/-- Whether two texts are spellings of one name: padding and the case of ASCII letters do not
count. -/
def same (a b : String) : Bool :=
  Text.sameFold (Text.trim a) (Text.trim b)

theorem same_iff {a b : String} : same a b = true ↔ normal a = normal b :=
  normal_eq_iff.symm

theorem same_eq_beq (a b : String) : same a b = (normal a == normal b) := by
  rw [Bool.eq_iff_iff, same_iff, beq_iff_eq]

/-! ## Valid names -/

theorem isToken_of_isValid {name : String} (h : isValid name = true) :
    Text.isToken name = true :=
  (Bool.and_eq_true_iff.1 h).1

theorem trim_of_isValid {name : String} (h : isValid name = true) : Text.trim name = name :=
  Text.trim_of_isToken (isToken_of_isValid h)

theorem colon_notMem_of_isValid {name : String} (h : isValid name = true) :
    ':' ∉ name.toList :=
  Text.notMem_of_isToken (isToken_of_isValid h) (by decide)

theorem isTokenChar_spellChar (raised : Bool) (c : Char) :
    Text.isTokenChar (spellChar raised c) = Text.isTokenChar c := by
  cases raised
  · exact Text.isTokenChar_toLower c
  · exact Text.isTokenChar_toUpper c

theorem all_isTokenChar_spell (raised : Bool) (cs : List Char) :
    (spell raised cs).all Text.isTokenChar = cs.all Text.isTokenChar := by
  induction cs generalizing raised with
  | nil => rfl
  | cons c rest ih => rw [spell, List.all_cons, List.all_cons, isTokenChar_spellChar, ih]

theorem length_spell (raised : Bool) (cs : List Char) : (spell raised cs).length = cs.length := by
  induction cs generalizing raised with
  | nil => rfl
  | cons c rest ih => rw [spell, List.length_cons, List.length_cons, ih]

/-- The kept spelling of a name is valid if the name is. -/
theorem isValid_normal_eq (name : String) : isValid (normal name) = isValid (Text.trim name) := by
  have hl : (normal name).toList = spell true (Text.trim name).toList := by
    rw [toList_normal, Text.toList_trim]
  have hn : (normal name).toList.isEmpty = (Text.trim name).toList.isEmpty := by
    rw [Bool.eq_iff_iff, List.isEmpty_iff_length_eq_zero, List.isEmpty_iff_length_eq_zero, hl,
      length_spell]
  rw [isValid, isValid, Text.isToken, Text.isToken, ← String.length_toList, ← String.length_toList,
    hn, hl, all_isTokenChar_spell, length_spell]

theorem isValid_normal {name : String} (h : isValid (Text.trim name) = true) :
    isValid (normal name) = true := by
  rwa [isValid_normal_eq]

end HeaderName

end Courier
