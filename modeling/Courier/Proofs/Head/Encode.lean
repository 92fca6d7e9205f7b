import Courier.Proofs.Head.Grammar
import Courier.Proofs.Headers.Valid

/-!
# Heads in writing

What a head is written as is one of its written forms (`Head.isWritten_encode`), if its headers are
valid, its first line is a line, and it declares what its headers do. A head that was read is such a
head, so that what it is written as is read as the same head (`Head.IsWritten.encode`).
-/

namespace Courier

namespace Headers

/-- One header line without its end. -/
def lineOf (pair : String × String) : String :=
  pair.1 ++ ": " ++ pair.2

variable {h : Headers} {pair : String × String}

theorem Valid.hasLineBreak_lineOf (hv : h.Valid) (hm : pair ∈ h.pairs) :
    Text.hasLineBreak (lineOf pair) = false := by
  obtain ⟨hname, -, -, hvalue⟩ := hv.of_mem_pairs hm
  have hn : Text.hasLineBreak pair.1 = false := by
    rw [Text.hasLineBreak, List.any_eq_false]
    intro c hc
    have ht := ((Text.isToken_iff pair.1).1 (HeaderName.isToken_of_isValid hname)).2 c hc
    simp only [Bool.or_eq_true, beq_iff_eq]
    rintro (rfl | rfl) <;> exact absurd ht (by decide)
  rw [lineOf, Text.hasLineBreak_append, Text.hasLineBreak_append, hn, hvalue]
  decide

theorem Valid.isWritten_encodePair (hv : h.Valid) (hm : pair ∈ h.pairs) :
    Line.IsWritten (encodePair pair) (lineOf pair) := by
  refine ⟨hv.hasLineBreak_lineOf hm, .inr ?_⟩
  rw [lineOf, Utf8.encode_append, Utf8.encode_append]
  rfl

theorem Valid.isField_lineOf (hv : h.Valid) (hm : pair ∈ h.pairs) : IsField (lineOf pair) pair := by
  obtain ⟨hname, -, hvalue, -⟩ := hv.of_mem_pairs hm
  refine ⟨pair.1, " " ++ pair.2, ?_, HeaderName.colon_notMem_of_isValid hname, ?_, hname⟩
  · have hc : ": " = ":" ++ " " := by decide
    simp only [lineOf, hc, String.append_assoc]
  · rw [HeaderName.trim_of_isValid hname, Text.trim_blank_append, hvalue]

theorem Valid.areWritten_encode (hv : h.Valid) :
    Line.AreWritten h.encode (h.pairs.map lineOf) := by
  have key : ∀ pairs : List (String × String), (∀ pair ∈ pairs, pair ∈ h.pairs) →
      Line.AreWritten (pairs.flatMap encodePair) (pairs.map lineOf) := by
    intro pairs hp
    induction pairs with
    | nil => exact .nil
    | cons pair rest ih =>
      obtain ⟨hm, hr⟩ := List.forall_mem_cons.1 hp
      exact .cons (hv.isWritten_encodePair hm) (ih hr)
  exact key h.pairs fun _ hm => hm

theorem length_encode (h : Headers) : h.encode.length = h.encodedSize := by
  unfold encode encodedSize
  induction h.pairs with
  | nil => rfl
  | cons pair rest ih =>
    rw [List.flatMap_cons, List.length_append, ih, List.foldr_cons]
    simp only [encodePair, List.length_append, Utf8.size]
    rfl

end Headers

namespace Head

/-- What a head is written as is a written form of it. -/
theorem isWritten_encode {head : Head} {limits : Limits} (hv : head.headers.Valid)
    (hs : Text.hasLineBreak head.statusLine = false)
    (hd : DeclaredLength.ofHeaders head.headers = .ok head.contentLength)
    (hsize : head.size = head.encode.length)
    (hn : head.headers.valueCount ≤ limits.maxHeaders.toNat)
    (hm : head.size ≤ limits.maxHeadBytes.toNat) : IsWritten limits head.encode head := by
  have hp := hv.ofPairs_pairs
  refine ⟨head.headers.pairs.map Headers.lineOf, head.headers.pairs, ?_, ?_, ?_, ?_, hp, ?_, hsize⟩
  · refine Line.areWritten_append_iff.2 ⟨_, Bytes.crlf, rfl, ?_, ?_⟩
    · exact .cons ⟨hs, .inr rfl⟩ hv.areWritten_encode
    · exact Line.areWritten_singleton_iff.2 ⟨by decide, .inr rfl⟩
  · rw [List.forall₂_map_left_iff, List.forall₂_same]
    exact fun pair hm => hv.isField_lineOf hm
  · rwa [List.length_map]
  · rwa [← hsize]
  · refine (DeclaredLength.ofHeaders_eq_ok_iff hp fun pair hm => ?_).1 hd
    obtain ⟨hname, -, hvalue, -⟩ := hv.of_mem_pairs hm
    exact ⟨HeaderName.trim_of_isValid hname, hvalue⟩

/-! ## The normal form -/

/-- The head with the size that it has as it is written. -/
def normal (head : Head) : Head :=
  { head with size := head.encode.length }

/-- The headers of a head in writing are valid. -/
theorem IsWritten.valid {limits : Limits} {bytes : Bytes} {head : Head}
    (h : IsWritten limits bytes head) : head.headers.Valid := by
  obtain ⟨lines, fields, -, -, -, -, hp, -⟩ := h
  exact Headers.valid_empty.foldlM hp

/-- However a head is written, what it is written as has nothing but another size. -/
theorem IsWritten.encode {limits large : Limits} {bytes : Bytes} {head : Head}
    (h : IsWritten limits bytes head) (hn : head.headers.valueCount ≤ large.maxHeaders.toNat)
    (hm : head.encode.length ≤ large.maxHeadBytes.toNat) :
    IsWritten large head.encode head.normal := by
  have hv := h.valid
  obtain ⟨lines, fields, hlines, hfields, -, -, hp, hd, -⟩ := h
  have hs : Text.hasLineBreak head.statusLine = false := by
    cases hlines with
    | cons hw _ => exact hw.1
  have hof := (DeclaredLength.ofHeaders_eq_ok_iff hp (Progress.trim_of_forall₂ hfields)).2 hd
  have hw : IsWritten large head.normal.encode head.normal :=
    isWritten_encode hv hs hof rfl hn hm
  exact hw

end Head

end Courier
