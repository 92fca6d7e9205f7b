import Courier.MediaType
import Courier.Proofs.Headers.Field

/-!
# What the text of a media type is made of

Each character of a media type stands in the text that it was read from, or is the lower case of one
that does (`MediaType.madeOf_parse`). So the text of a media type breaks no line if what it
was read from does not.
-/

namespace Courier.MediaType

/-- The characters are characters of the text, folded or not. -/
def MadeOf (written read : List Char) : Prop :=
  ∀ c ∈ written, ∃ d ∈ read, c = d ∨ c = d.toLower

theorem eq_or_eq_toLower_of_step {place next : Place} {c written : Char}
    (h : step place c = some (next, written)) : written = c ∨ written = c.toLower := by
  unfold step at h
  split at h <;> split_ifs at h <;> cases h <;> simp

theorem madeOf_scan {place : Place} {position : Nat} {read written : List Char}
    (h : scan place position read = .ok written) : MadeOf written read := by
  induction read generalizing place position written with
  | nil =>
    unfold scan at h
    cases hf : place.finish with
    | error fault =>
      rw [hf] at h
      cases h
    | ok done =>
      rw [hf] at h
      cases h
      rintro _ ⟨⟩
  | cons c rest ih =>
    unfold scan at h
    split at h
    · rename_i next first hs
      dsimp only at h
      cases hr : scan next (position + (Utf8.encodeChar c).length) rest with
      | error fault =>
        rw [hr] at h
        cases h
      | ok others =>
        rw [hr] at h
        cases h
        intro d hd
        rcases List.mem_cons.1 hd with rfl | hd
        · exact ⟨c, List.mem_cons_self, eq_or_eq_toLower_of_step hs⟩
        · obtain ⟨e, he, hde⟩ := ih hr d hd
          exact ⟨e, List.mem_cons_of_mem _ he, hde⟩
    · cases h

theorem dropLoneSemicolon_subset (written : List Char) : dropLoneSemicolon written ⊆ written := by
  unfold dropLoneSemicolon
  split
  · rename_i essence rest hs
    split
    · rw [(Text.splitOnceChars_eq_some_iff.1 hs).1]
      exact List.subset_append_left ..
    · exact List.Subset.refl _
  · exact List.Subset.refl _

theorem madeOf_parse {s : String} {m : MediaType} (h : parse s = .ok m) :
    MadeOf m.text.toList s.toList := by
  unfold parse at h
  cases hs : scan (.type true) 0 s.toList with
  | error fault =>
    rw [hs] at h
    cases h
  | ok written =>
    rw [hs] at h
    cases h
    intro c hc
    rw [String.toList_ofList] at hc
    exact madeOf_scan hs c (dropLoneSemicolon_subset _ hc)

/-- Folding makes no line break of another character. -/
theorem toLower_ne_lineBreak {c : Char} (hr : c ≠ '\r') (hn : c ≠ '\n') :
    c.toLower ≠ '\r' ∧ c.toLower ≠ '\n' := by
  simp only [ne_eq, ← Char.toNat_inj, Text.toNat_toLower] at hr hn ⊢
  have hcr : '\r'.toNat = 13 := rfl
  have hlf : '\n'.toNat = 10 := rfl
  split_ifs <;> omega

theorem hasLineBreak_of_parse {s : String} {m : MediaType} (h : parse s = .ok m)
    (hs : Text.hasLineBreak s = false) : Text.hasLineBreak m.text = false := by
  rw [Text.hasLineBreak, List.any_eq_false] at hs ⊢
  simp only [Bool.or_eq_true, beq_iff_eq, not_or] at hs ⊢
  intro c hc
  obtain ⟨d, hd, rfl | rfl⟩ := madeOf_parse h c hc
  · exact hs c hd
  · exact toLower_ne_lineBreak (hs d hd).1 (hs d hd).2

end Courier.MediaType
