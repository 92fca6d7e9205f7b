import Courier.Text.Basic
import Mathlib.Data.List.TakeWhile

/-!
# Texts without their padding

A text has one trimmed form, and blanks around it (`trim_eq_iff`); what has no blank at either end
is its own (`trim_eq_self_iff`). Where a text is cut at a character that is not a blank, its trimmed
form is cut as well, into parts whose trimmed forms are the same (`exists_trim_append`).
-/

namespace Courier.Text

theorem trim_eq_self_iff {s : String} : trim s = s ↔ trimChars s.toList = s.toList := by
  rw [← String.toList_inj, toList_trim]

/-- A text without blanks has no padding. -/
theorem trim_of_forall_isBlank {s : String} (h : ∀ c ∈ s.toList, isBlank c = false) :
    trim s = s :=
  trim_eq_self_iff.2 (trimChars_eq_self_iff.2
    ⟨fun c hm => h c (List.mem_of_mem_head? hm), fun c hm => h c (List.mem_of_mem_getLast? hm)⟩)

theorem trim_blank_append (s : String) : trim (" " ++ s) = trim s := by
  rw [trim, trim, String.toList_append]
  rfl

theorem trimChars_subset (cs : List Char) : trimChars cs ⊆ cs := fun _ hc =>
  (List.dropWhile_suffix _).mem ((dropEnd_isPrefix _ _).mem hc)

/-- The second text is the first one with blanks around it; it has no blanks at its own ends. -/
def IsTrimOf (t s : String) : Prop :=
  ∃ before after : List Char, s.toList = before ++ t.toList ++ after ∧
    (∀ c ∈ before, isBlank c = true) ∧ (∀ c ∈ after, isBlank c = true) ∧
    (∀ c ∈ t.toList.head?, isBlank c = false) ∧ ∀ c ∈ t.toList.getLast?, isBlank c = false

theorem dropWhile_eq_iff {p : Char → Bool} {cs kept : List Char} :
    cs.dropWhile p = kept ↔
      ∃ front, cs = front ++ kept ∧ (∀ c ∈ front, p c = true) ∧ ∀ c ∈ kept.head?, p c = false := by
  constructor
  · rintro rfl
    exact ⟨cs.takeWhile p, List.takeWhile_append_dropWhile.symm,
      fun c hc => List.mem_takeWhile_imp hc, fun c hc => eq_false_of_mem_head?_dropWhile hc⟩
  · rintro ⟨front, rfl, hf, hk⟩
    rw [List.dropWhile_append_of_pos hf, dropWhile_eq_self_iff.2 hk]

theorem dropEnd_eq_iff {p : Char → Bool} {cs kept : List Char} :
    dropEnd p cs = kept ↔
      ∃ tail, cs = kept ++ tail ∧ (∀ c ∈ tail, p c = true) ∧ ∀ c ∈ kept.getLast?, p c = false := by
  rw [dropEnd, List.reverse_eq_iff, dropWhile_eq_iff, List.head?_reverse]
  constructor
  · rintro ⟨front, hc, hf, hk⟩
    refine ⟨front.reverse, ?_, fun c hc => hf c (List.mem_reverse.1 hc), hk⟩
    rw [← List.reverse_inj, hc, List.reverse_append, List.reverse_reverse]
  · rintro ⟨tail, rfl, ht, hk⟩
    exact ⟨tail.reverse, List.reverse_append, fun c hc => ht c (List.mem_reverse.1 hc), hk⟩

/-- A text has one trimmed form. -/
theorem trim_eq_iff {s t : String} : trim s = t ↔ IsTrimOf t s := by
  rw [← String.toList_inj, toList_trim, IsTrimOf]
  generalize t.toList = kept
  constructor
  · intro h
    obtain ⟨hh, hl⟩ := trimChars_eq_self_iff.1 (h ▸ trimChars_trimChars s.toList)
    obtain ⟨tail, ht, htail, -⟩ := dropEnd_eq_iff.1 h
    obtain ⟨front, hs, hfront, -⟩ := dropWhile_eq_iff.1 ht
    exact ⟨front, tail, by rw [hs, List.append_assoc], hfront, htail, hh, hl⟩
  · rintro ⟨front, tail, hs, hfront, htail, hh, hl⟩
    rw [trimChars, hs, List.append_assoc, List.dropWhile_append_of_pos hfront]
    -- Where nothing is kept, the blanks at the end go with those at the front.
    cases kept with
    | nil =>
      rw [List.nil_append, List.dropWhile_eq_nil_iff.2 htail]
      rfl
    | cons c rest =>
      have hd : (c :: rest ++ tail).dropWhile isBlank = c :: rest ++ tail :=
        dropWhile_eq_self_iff.2 hh
      rw [hd]
      exact dropEnd_eq_iff.2 ⟨tail, rfl, htail, hl⟩

/-- Trimming takes away blanks only. -/
theorem mem_trim_iff {s : String} {c : Char} (hc : isBlank c = false) :
    c ∈ (trim s).toList ↔ c ∈ s.toList := by
  obtain ⟨before, after, hs, hbefore, hafter, -⟩ := trim_eq_iff.1 (rfl : trim s = _)
  constructor
  · intro h
    rw [hs]
    exact List.mem_append_left _ (List.mem_append_right _ h)
  · intro h
    rw [hs, List.mem_append, List.mem_append] at h
    rcases h with (h | h) | h
    · exact absurd (hbefore c h) (by simp [hc])
    · exact h
    · exact absurd (hafter c h) (by simp [hc])

/-! ## Around a character that is not a blank -/

theorem dropWhile_append_cons {p : Char → Bool} {c : Char} (hc : p c = false)
    (front back : List Char) :
    (front ++ c :: back).dropWhile p = front.dropWhile p ++ c :: back := by
  rw [List.dropWhile_append]
  split
  · rename_i h
    rw [List.isEmpty_iff.1 h, List.dropWhile_cons, hc]
    rfl
  · rfl

theorem dropEnd_append_cons {p : Char → Bool} {c : Char} (hc : p c = false)
    (front back : List Char) : dropEnd p (front ++ c :: back) = front ++ c :: dropEnd p back := by
  rw [dropEnd, List.reverse_append, List.reverse_cons, List.append_assoc, List.singleton_append,
    dropWhile_append_cons hc, List.reverse_append, List.reverse_cons, List.reverse_reverse,
    List.append_assoc]
  rfl

theorem trimChars_append_cons {c : Char} (hc : isBlank c = false) (front back : List Char) :
    trimChars (front ++ c :: back) = front.dropWhile isBlank ++ c :: dropEnd isBlank back := by
  rw [trimChars, dropWhile_append_cons hc, dropEnd_append_cons hc]

theorem trimChars_dropWhile (cs : List Char) : trimChars (cs.dropWhile isBlank) = trimChars cs := by
  rw [trimChars, dropWhile_eq_self_iff.2 fun _ => eq_false_of_mem_head?_dropWhile]
  rfl

theorem trimChars_append_blanks {tail : List Char} (ht : ∀ c ∈ tail, isBlank c = true)
    (cs : List Char) : trimChars (cs ++ tail) = trimChars cs := by
  rw [trimChars, trimChars, List.dropWhile_append]
  split
  · rename_i h
    rw [List.isEmpty_iff.1 h, List.dropWhile_eq_nil_iff.2 ht]
  · rw [dropEnd, dropEnd, List.reverse_append,
      List.dropWhile_append_of_pos fun c hc => ht c (List.mem_reverse.1 hc)]

theorem trimChars_dropEnd (cs : List Char) : trimChars (dropEnd isBlank cs) = trimChars cs := by
  obtain ⟨tail, hcs, ht, -⟩ := dropEnd_eq_iff.1 (rfl : dropEnd isBlank cs = _)
  have h := trimChars_append_blanks ht (dropEnd isBlank cs)
  rw [← hcs] at h
  exact h.symm

/-- A text cut at a character that is not a blank is trimmed at the far ends of its parts. -/
theorem exists_trim_append {c : Char} (hc : isBlank c = false) (left right : String) :
    ∃ l r, trim (left ++ String.singleton c ++ right) = l ++ String.singleton c ++ r ∧
      trim l = trim left ∧ trim r = trim right ∧ l.toList ⊆ left.toList := by
  refine ⟨String.ofList (left.toList.dropWhile isBlank),
    String.ofList (dropEnd isBlank right.toList), ?_, ?_, ?_, ?_⟩
  · rw [← String.toList_inj, toList_trim]
    simp only [String.toList_append, String.toList_singleton, String.toList_ofList,
      List.append_assoc, List.singleton_append]
    exact trimChars_append_cons hc left.toList right.toList
  · rw [← String.toList_inj, toList_trim, toList_trim, String.toList_ofList, trimChars_dropWhile]
  · rw [← String.toList_inj, toList_trim, toList_trim, String.toList_ofList, trimChars_dropEnd]
  · rw [String.toList_ofList]
    exact (List.dropWhile_suffix isBlank).subset

/-- Between texts without padding such a character makes one without padding. -/
theorem trim_append {c : Char} (hc : isBlank c = false) {left right : String}
    (hl : trim left = left) (hr : trim right = right) :
    trim (left ++ String.singleton c ++ right) = left ++ String.singleton c ++ right := by
  obtain ⟨hfirst, -⟩ := trimChars_eq_self_iff.1 (trim_eq_self_iff.1 hl)
  obtain ⟨-, hlast⟩ := trimChars_eq_self_iff.1 (trim_eq_self_iff.1 hr)
  rw [trim_eq_self_iff]
  simp only [String.toList_append, String.toList_singleton, List.append_assoc,
    List.singleton_append]
  rw [trimChars_append_cons hc, dropWhile_eq_self_iff.2 hfirst, dropEnd_eq_self_iff.2 hlast]

end Courier.Text
