/-!
# Blanks

What a blank is, and the text between the blanks at both ends of a text. Everything is defined on
lists of characters and carried over to `String`.

`trimChars_eq_self_iff` says which texts have no blanks at their ends; `trim` makes such a text of
any text (`trim_trim`).
-/

namespace Courier.Text

/-- The characters with the property `White_Space`. -/
def isBlank (c : Char) : Bool :=
  let n := c.toNat
  (0x09 ≤ n && n ≤ 0x0D) || n == 0x20 || n == 0x85 || n == 0xA0 || n == 0x1680 ||
    (0x2000 ≤ n && n ≤ 0x200A) || n == 0x2028 || n == 0x2029 || n == 0x202F || n == 0x205F ||
    n == 0x3000

/-! ## Both ends -/

/-- The list without its longest end whose members all satisfy `p`. -/
def dropEnd (p : Char → Bool) (cs : List Char) : List Char :=
  (cs.reverse.dropWhile p).reverse

/-- The characters between the blanks at both ends. -/
def trimChars (cs : List Char) : List Char :=
  dropEnd isBlank (cs.dropWhile isBlank)

/-- The text without the blanks at both ends. -/
def trim (s : String) : String :=
  String.ofList (trimChars s.toList)

theorem dropEnd_isPrefix (p : Char → Bool) (cs : List Char) : dropEnd p cs <+: cs := by
  rw [dropEnd, ← List.reverse_suffix, List.reverse_reverse]
  exact List.dropWhile_suffix p

theorem dropWhile_eq_self_iff {p : Char → Bool} {cs : List Char} :
    cs.dropWhile p = cs ↔ ∀ c ∈ cs.head?, p c = false := by
  cases cs with
  | nil => simp
  | cons c rest =>
    rw [List.dropWhile_cons]
    cases hp : p c with
    | false => simp [hp]
    | true =>
      have := (List.dropWhile_suffix p (l := rest)).length_le
      simp only [if_true, List.head?_cons, Option.mem_def, Option.some.injEq, forall_eq', hp,
        Bool.true_eq_false, iff_false]
      intro he
      rw [he, List.length_cons] at this
      omega

theorem eq_false_of_mem_head?_dropWhile {p : Char → Bool} {cs : List Char} {c : Char}
    (h : c ∈ (cs.dropWhile p).head?) : p c = false := by
  have := List.head?_dropWhile_not p cs
  rw [Option.mem_def.1 h] at this
  exact this

theorem dropEnd_eq_self_iff {p : Char → Bool} {cs : List Char} :
    dropEnd p cs = cs ↔ ∀ c ∈ cs.getLast?, p c = false := by
  rw [dropEnd, ← List.head?_reverse, ← dropWhile_eq_self_iff, ← List.reverse_inj,
    List.reverse_reverse]

theorem eq_false_of_mem_getLast?_dropEnd {p : Char → Bool} {cs : List Char} {c : Char}
    (h : c ∈ (dropEnd p cs).getLast?) : p c = false := by
  rw [dropEnd, List.getLast?_reverse] at h
  exact eq_false_of_mem_head?_dropWhile h

theorem eq_false_of_mem_head?_trimChars {cs : List Char} {c : Char}
    (h : c ∈ (trimChars cs).head?) : isBlank c = false := by
  obtain ⟨rest, hr⟩ := dropEnd_isPrefix isBlank (cs.dropWhile isBlank)
  refine @eq_false_of_mem_head?_dropWhile isBlank cs c ?_
  rw [← hr, List.head?_append]
  rw [trimChars] at h
  rw [h]
  rfl

theorem trimChars_eq_self_iff {cs : List Char} :
    trimChars cs = cs ↔
      (∀ c ∈ cs.head?, isBlank c = false) ∧ ∀ c ∈ cs.getLast?, isBlank c = false := by
  constructor
  · intro h
    rw [← h]
    exact ⟨fun _ => eq_false_of_mem_head?_trimChars, fun _ => eq_false_of_mem_getLast?_dropEnd⟩
  · rintro ⟨hh, hl⟩
    rw [trimChars, dropWhile_eq_self_iff.2 hh, dropEnd_eq_self_iff.2 hl]

theorem trimChars_trimChars (cs : List Char) : trimChars (trimChars cs) = trimChars cs :=
  trimChars_eq_self_iff.2
    ⟨fun _ => eq_false_of_mem_head?_trimChars, fun _ => eq_false_of_mem_getLast?_dropEnd⟩

theorem toList_trim (s : String) : (trim s).toList = trimChars s.toList :=
  String.toList_ofList

theorem trim_trim (s : String) : trim (trim s) = trim s := by
  rw [trim, toList_trim, trimChars_trimChars]
  rfl

end Courier.Text
