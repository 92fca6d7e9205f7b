import Courier.Text.Basic

/-!
# Header names

A header is found under any spelling of its name that differs in padding and in the case of ASCII
letters only. `HeaderName.normal` is the spelling that is kept and written: the first letter and
each letter behind a hyphen in upper case, all others in lower case.

The kept spelling is its own (`normal_normal`), and does not depend on padding (`normal_trim`).
-/

namespace Courier.HeaderName

/-- The spelling of one character. -/
def spellChar (raised : Bool) (c : Char) : Char :=
  if raised then c.toUpper else c.toLower

theorem spellChar_eq_hyphen_iff {raised : Bool} {c : Char} :
    spellChar raised c = '-' ↔ c = '-' := by
  rw [← Char.toNat_inj, ← Char.toNat_inj, spellChar]
  have : '-'.toNat = 45 := rfl
  cases raised
  · rw [if_neg (by decide), Text.toNat_toLower]
    split <;> omega
  · rw [if_pos rfl, Text.toNat_toUpper]
    split <;> omega

theorem spellChar_spellChar (raised : Bool) (c : Char) :
    spellChar raised (spellChar raised c) = spellChar raised c := by
  cases raised
  · exact Text.toLower_toLower c
  · exact Text.toUpper_toUpper c

theorem isBlank_spellChar (raised : Bool) (c : Char) :
    Text.isBlank (spellChar raised c) = Text.isBlank c := by
  cases raised
  · exact Text.isBlank_toLower c
  · exact Text.isBlank_toUpper c

/-- The kept spelling of characters; `raised` tells whether the first is put in upper case. -/
def spell (raised : Bool) : List Char → List Char
  | [] => []
  | c :: rest => spellChar raised c :: spell (c == '-') rest

theorem spell_spell (raised : Bool) (cs : List Char) :
    spell raised (spell raised cs) = spell raised cs := by
  induction cs generalizing raised with
  | nil => rfl
  | cons c rest ih =>
    have : (spellChar raised c == '-') = (c == '-') := by
      rw [Bool.eq_iff_iff, beq_iff_eq, beq_iff_eq, spellChar_eq_hyphen_iff]
    rw [spell, spell, spellChar_spellChar, this, ih]

theorem exists_of_mem_getLast?_spell {raised : Bool} {cs : List Char} {c : Char}
    (h : c ∈ (spell raised cs).getLast?) : ∃ up, ∃ d ∈ cs.getLast?, c = spellChar up d := by
  induction cs generalizing raised with
  | nil => simp [spell] at h
  | cons d rest ih =>
    cases rest with
    | nil =>
      simp only [spell, List.getLast?_singleton, Option.mem_def, Option.some.injEq] at h
      exact ⟨raised, d, rfl, h.symm⟩
    | cons e rest =>
      rw [spell, spell, List.getLast?_cons_cons, ← spell] at h
      obtain ⟨up, f, hf, hc⟩ := ih h
      exact ⟨up, f, by rwa [List.getLast?_cons_cons], hc⟩

theorem trimChars_spell {raised : Bool} {cs : List Char} (h : Text.trimChars cs = cs) :
    Text.trimChars (spell raised cs) = spell raised cs := by
  rw [Text.trimChars_eq_self_iff] at h ⊢
  constructor
  · intro c hc
    cases cs with
    | nil => simp [spell] at hc
    | cons d rest =>
      simp only [spell, List.head?_cons, Option.mem_def, Option.some.injEq] at hc
      rw [← hc, isBlank_spellChar]
      exact h.1 d rfl
  · intro c hc
    obtain ⟨up, d, hd, rfl⟩ := exists_of_mem_getLast?_spell hc
    rw [isBlank_spellChar]
    exact h.2 d hd

/-- The kept spelling of a name. -/
def normal (name : String) : String :=
  String.ofList (spell true (Text.trimChars name.toList))

theorem toList_normal (name : String) :
    (normal name).toList = spell true (Text.trimChars name.toList) :=
  String.toList_ofList

theorem normal_normal (name : String) : normal (normal name) = normal name := by
  rw [normal, toList_normal, trimChars_spell (Text.trimChars_trimChars _), spell_spell]
  rfl

theorem normal_trim (name : String) : normal (Text.trim name) = normal name := by
  rw [normal, Text.toList_trim, Text.trimChars_trimChars]
  rfl

/-- The most bytes that a name may have. -/
def maxSize : Nat := 65535

/-- Whether a name without padding may name a header. Tokens are ASCII, so characters are bytes. -/
def isValid (name : String) : Bool :=
  Text.isToken name && name.length ≤ maxSize

end Courier.HeaderName
