import Courier.Text.Basic
import Mathlib.Data.List.Basic

/-!
# Texts between separators

A text is cut at its first separator (`splitOnce_eq_some_iff`), or at all of them: the parts of two
texts with a separator between them are the parts of the one and those of the other
(`split_append`), and the first part is what stands before the first separator
(`splitChars_eq_cons_iff`).
-/

namespace Courier.Text

/-! ## At the first separator -/

theorem splitOnce_eq_none_iff {sep : Char} {s : String} :
    splitOnce sep s = none ↔ sep ∉ s.toList := by
  rw [splitOnce, Option.map_eq_none_iff, splitOnceChars_eq_none_iff]

theorem splitOnce_eq_some_iff {sep : Char} {s l r : String} :
    splitOnce sep s = some (l, r) ↔ s = l ++ String.singleton sep ++ r ∧ sep ∉ l.toList := by
  rw [← String.toList_inj]
  simp only [splitOnce, Option.map_eq_some_iff, Prod.exists, Prod.mk.injEq,
    splitOnceChars_eq_some_iff, String.toList_append, String.toList_singleton, List.append_assoc,
    List.singleton_append]
  constructor
  · rintro ⟨a, b, ⟨hs, ha⟩, rfl, rfl⟩
    rw [String.toList_ofList, String.toList_ofList]
    exact ⟨hs, ha⟩
  · rintro ⟨hs, hl⟩
    exact ⟨_, _, ⟨hs, hl⟩, String.ofList_toList, String.ofList_toList⟩

/-! ## At all separators -/

theorem splitChars_of_notMem {sep : Char} {cs : List Char} (h : sep ∉ cs) :
    splitChars sep cs = [cs] := by
  induction cs with
  | nil => rfl
  | cons c rest ih =>
    obtain ⟨hc, hr⟩ := not_or.1 (mt List.mem_cons.2 h)
    rw [splitChars, if_neg (Ne.symm hc), ih hr]

theorem splitChars_append_cons (sep : Char) (front back : List Char) :
    splitChars sep (front ++ sep :: back) = splitChars sep front ++ splitChars sep back := by
  induction front with
  | nil => simp [splitChars]
  | cons c front ih =>
    rw [List.cons_append, splitChars, splitChars, ih]
    split
    · rfl
    · cases hf : splitChars sep front with
      | nil => exact absurd hf (splitChars_ne_nil sep front)
      | cons part parts => rfl

theorem splitChars_append {sep : Char} {part : List Char} (h : sep ∉ part) (rest : List Char) :
    splitChars sep (part ++ sep :: rest) = part :: splitChars sep rest := by
  rw [splitChars_append_cons, splitChars_of_notMem h, List.singleton_append]

/-- The first part ends with the text or before a separator, behind which are the other parts. -/
theorem splitChars_eq_cons_iff {sep : Char} {cs part : List Char} {parts : List (List Char)} :
    splitChars sep cs = part :: parts ↔
      sep ∉ part ∧ (parts = [] ∧ cs = part ∨
        ∃ rest, cs = part ++ sep :: rest ∧ splitChars sep rest = parts) := by
  constructor
  · intro h
    cases hs : splitOnceChars sep cs with
    | none =>
      have hn := splitOnceChars_eq_none_iff.1 hs
      rw [splitChars_of_notMem hn] at h
      cases h
      exact ⟨hn, .inl ⟨rfl, rfl⟩⟩
    | some cut =>
      obtain ⟨rfl, hn⟩ := splitOnceChars_eq_some_iff.1 hs
      rw [splitChars_append hn] at h
      cases h
      exact ⟨hn, .inr ⟨cut.2, rfl, rfl⟩⟩
  · rintro ⟨hn, ⟨rfl, rfl⟩ | ⟨rest, rfl, rfl⟩⟩
    · exact splitChars_of_notMem hn
    · exact splitChars_append hn rest

theorem split_of_notMem {sep : Char} {s : String} (h : sep ∉ s.toList) : split sep s = [s] := by
  rw [split, splitChars_of_notMem h, List.map_singleton, String.ofList_toList]

theorem split_append (sep : Char) (front back : String) :
    split sep (front ++ String.singleton sep ++ back) = split sep front ++ split sep back := by
  rw [split, String.append_assoc, String.toList_append, String.toList_append,
    String.toList_singleton, List.singleton_append, splitChars_append_cons, List.map_append]
  rfl

/-- A text has three parts if it is three texts without separators, and separators between them. -/
theorem split_eq_three_iff {sep : Char} {s a b c : String} :
    split sep s = [a, b, c] ↔
      s.toList = a.toList ++ sep :: (b.toList ++ sep :: c.toList) ∧
        sep ∉ a.toList ∧ sep ∉ b.toList ∧ sep ∉ c.toList := by
  have hparts : split sep s = [a, b, c] ↔
      splitChars sep s.toList = [a.toList, b.toList, c.toList] := by
    rw [split]
    constructor
    · intro h
      have hl := congrArg (List.map String.toList) h
      simpa [Function.comp_def] using hl
    · intro h
      rw [h]
      simp
  rw [hparts]
  constructor
  · intro h
    obtain ⟨ha, ⟨hn, -⟩ | ⟨rest, hs, hrest⟩⟩ := splitChars_eq_cons_iff.1 h
    · cases hn
    obtain ⟨hb, ⟨hn, -⟩ | ⟨last, rfl, hlast⟩⟩ := splitChars_eq_cons_iff.1 hrest
    · cases hn
    obtain ⟨hc, ⟨-, rfl⟩ | ⟨more, -, hmore⟩⟩ := splitChars_eq_cons_iff.1 hlast
    · exact ⟨hs, ha, hb, hc⟩
    · exact absurd hmore (splitChars_ne_nil sep more)
  · rintro ⟨hs, ha, hb, hc⟩
    rw [hs, splitChars_append ha, splitChars_append hb, splitChars_of_notMem hc]

theorem notMem_of_mem_splitChars {sep : Char} {cs part : List Char}
    (hm : part ∈ splitChars sep cs) : sep ∉ part := by
  induction hs : splitChars sep cs generalizing cs with
  | nil => exact absurd hs (splitChars_ne_nil sep cs)
  | cons first parts ih =>
    rw [hs] at hm
    obtain ⟨hfirst, ⟨rfl, -⟩ | ⟨rest, -, hrest⟩⟩ := splitChars_eq_cons_iff.1 hs
    · rwa [List.mem_singleton.1 hm]
    · rcases List.mem_cons.1 hm with rfl | hm
      · exact hfirst
      · exact ih (hrest ▸ hm) hrest

theorem notMem_of_mem_split {sep : Char} {s part : String} (hm : part ∈ split sep s) :
    sep ∉ part.toList := by
  obtain ⟨cs, hcs, rfl⟩ := List.mem_map.1 hm
  rw [String.toList_ofList]
  exact notMem_of_mem_splitChars hcs

/-- Texts with a separator before each but the first are the parts of what they make. -/
theorem split_join {sep : Char} {first : String} {parts : List String}
    (hf : sep ∉ first.toList) (hp : ∀ part ∈ parts, sep ∉ part.toList) :
    split sep (first ++ String.join (parts.map fun part => String.singleton sep ++ part)) =
      first :: parts := by
  induction parts generalizing first with
  | nil => rw [List.map_nil, String.join_nil, String.append_empty, split_of_notMem hf]
  | cons part rest ih =>
    obtain ⟨hpart, hrest⟩ := List.forall_mem_cons.1 hp
    rw [List.map_cons, String.join_cons, String.append_assoc, ← String.append_assoc, split_append,
      split_of_notMem hf, ih hpart hrest, List.singleton_append]

end Courier.Text
