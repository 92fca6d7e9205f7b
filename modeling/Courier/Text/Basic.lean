import Courier.Text.Blank

/-!
# Text

The few questions that the grammars of this library ask of a text: what stands between separators,
how ASCII letters fold, and what a token is. Everything is defined on lists of characters and
carried over to `String`.

`splitOnceChars_eq_some_iff` says where a text is cut: at the first separator.
-/

namespace Courier.Text

/-! ## Separators -/

/-- The characters before the first `sep` and those behind it; none if `sep` does not occur. -/
def splitOnceChars (sep : Char) : List Char → Option (List Char × List Char)
  | [] => none
  | c :: rest =>
    if c = sep then some ([], rest) else (splitOnceChars sep rest).map fun (l, r) => (c :: l, r)

/-- The parts between the occurrences of `sep`: always one more than there are occurrences. -/
def splitChars (sep : Char) : List Char → List (List Char)
  | [] => [[]]
  | c :: rest =>
    if c = sep then [] :: splitChars sep rest
    else
      match splitChars sep rest with
      | [] => [[c]]
      | part :: parts => (c :: part) :: parts

/-- The text before the first `sep` and the text behind it. -/
def splitOnce (sep : Char) (s : String) : Option (String × String) :=
  (splitOnceChars sep s.toList).map fun (l, r) => (String.ofList l, String.ofList r)

/-- The texts between the occurrences of `sep`. -/
def split (sep : Char) (s : String) : List String :=
  (splitChars sep s.toList).map String.ofList

/-- The texts, each followed by `sep`'s text except the last. -/
def join (sep : String) (parts : List String) : String :=
  sep.intercalate parts

theorem splitOnceChars_eq_none_iff {sep : Char} {cs : List Char} :
    splitOnceChars sep cs = none ↔ sep ∉ cs := by
  induction cs with
  | nil => simp [splitOnceChars]
  | cons c rest ih =>
    by_cases h : c = sep
    · simp [splitOnceChars, h]
    · rw [splitOnceChars, if_neg h, Option.map_eq_none_iff, ih]
      simp [Ne.symm h]

theorem splitOnceChars_eq_some_iff {sep : Char} {cs l r : List Char} :
    splitOnceChars sep cs = some (l, r) ↔ cs = l ++ sep :: r ∧ sep ∉ l := by
  induction cs generalizing l with
  | nil => simp [splitOnceChars]
  | cons c rest ih =>
    by_cases h : c = sep
    · subst h
      cases l with
      | nil => simp [splitOnceChars]
      | cons d l => simp +contextual [splitOnceChars]
    · cases l with
      | nil => simp [splitOnceChars, h]
      | cons d l =>
        simp only [splitOnceChars, h, if_false, Option.map_eq_some_iff, Prod.exists, Prod.mk.injEq,
          List.cons_append, List.cons.injEq, List.mem_cons, not_or]
        constructor
        · rintro ⟨a, b, hab, ⟨rfl, rfl⟩, rfl⟩
          obtain ⟨rfl, ha⟩ := ih.1 hab
          exact ⟨⟨rfl, rfl⟩, fun e => h e.symm, ha⟩
        · rintro ⟨⟨rfl, rfl⟩, -, hl⟩
          exact ⟨l, r, ih.2 ⟨rfl, hl⟩, ⟨rfl, rfl⟩, rfl⟩

theorem splitChars_ne_nil (sep : Char) (cs : List Char) : splitChars sep cs ≠ [] := by
  cases cs with
  | nil => simp [splitChars]
  | cons c rest => unfold splitChars; split <;> (try split) <;> simp

/-! ## Letters -/

/-- Folds the ASCII letters to lower case. -/
def lower (s : String) : String :=
  String.ofList (s.toList.map Char.toLower)

/-- Whether two texts differ at most in the case of ASCII letters. -/
def sameFold (s t : String) : Bool :=
  lower s == lower t

theorem toNat_toUpper (c : Char) :
    c.toUpper.toNat = if 97 ≤ c.toNat ∧ c.toNat ≤ 122 then c.toNat - 32 else c.toNat := by
  unfold Char.toUpper
  split <;> rename_i h <;> rw [UInt32.le_iff_toNat_le, UInt32.le_iff_toNat_le] at h
  · have h : 97 ≤ c.toNat ∧ c.toNat ≤ 122 := h
    rw [if_pos h]
    show (c.val + ('A'.val - 'a'.val)).toNat = c.toNat - 32
    rw [UInt32.toNat_add]
    show (c.toNat + 4294967264) % 4294967296 = _
    omega
  · exact (if_neg h).symm

theorem toNat_toLower (c : Char) :
    c.toLower.toNat = if 65 ≤ c.toNat ∧ c.toNat ≤ 90 then c.toNat + 32 else c.toNat := by
  unfold Char.toLower
  split <;> rename_i h <;> rw [ge_iff_le, UInt32.le_iff_toNat_le, UInt32.le_iff_toNat_le] at h
  · have h : 65 ≤ c.toNat ∧ c.toNat ≤ 90 := h
    rw [if_pos h]
    show (c.val + ('a'.val - 'A'.val)).toNat = c.toNat + 32
    rw [UInt32.toNat_add]
    show (c.toNat + 32) % 4294967296 = _
    omega
  · exact (if_neg h).symm

theorem toUpper_toUpper (c : Char) : c.toUpper.toUpper = c.toUpper := by
  rw [← Char.toNat_inj, toNat_toUpper, toNat_toUpper]
  repeat' split
  all_goals omega

theorem toLower_toLower (c : Char) : c.toLower.toLower = c.toLower := by
  rw [← Char.toNat_inj, toNat_toLower, toNat_toLower]
  repeat' split
  all_goals omega

theorem isBlank_toUpper (c : Char) : isBlank c.toUpper = isBlank c := by
  rw [Bool.eq_iff_iff]
  simp only [isBlank, toNat_toUpper, Bool.or_eq_true, Bool.and_eq_true, decide_eq_true_eq,
    beq_iff_eq]
  split <;> omega

theorem isBlank_toLower (c : Char) : isBlank c.toLower = isBlank c := by
  rw [Bool.eq_iff_iff]
  simp only [isBlank, toNat_toLower, Bool.or_eq_true, Bool.and_eq_true, decide_eq_true_eq,
    beq_iff_eq]
  split <;> omega

/-! ## Tokens and lines -/

/-- The characters of tokens: header names, methods, cookie names and the parts of media types. -/
def isTokenChar (c : Char) : Bool :=
  c.isAlphanum || "!#$%&'*+-.^_`|~".toList.contains c

/-- A token is a nonempty sequence of token characters. -/
def isToken (s : String) : Bool :=
  !s.toList.isEmpty && s.toList.all isTokenChar

/-- Whether a text would break a line. -/
def hasLineBreak (s : String) : Bool :=
  s.toList.any fun c => c == '\r' || c == '\n'

end Courier.Text
