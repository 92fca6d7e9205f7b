import Courier.Line.Stream
import Courier.Proofs.Line
import Mathlib.Data.List.Forall2

/-!
# Lines of bytes that come in chunks

Bytes are segments, each of which ends at its first line feed, with bytes behind them that have no
line feed. Cutting gives one result for each segment and leaves the bytes behind them
(`exists_segments`): a line that the segment is a written form of, or a fault, exactly if what
stands before the line end has a carriage return in it or is no text (`IsReadAs`).

Chunks are put behind what is left of those before them (`feed`). As cutting goes on with what was
left (`cutAll_append`), the lines do not depend on where the bytes are cut into chunks.
-/

namespace Courier.Line

/-! ## Cutting all lines off -/

theorem cutAll_of_cut?_eq_none {bytes : Bytes} (h : cut? bytes = none) :
    cutAll bytes = ([], bytes) := by
  rw [cutAll]
  split
  · rfl
  · rename_i h'
    rw [h] at h'
    cases h'

theorem cutAll_eq_of_cut? {bytes rest : Bytes} {line : Except Fault Line}
    (h : cut? bytes = some (line, rest)) :
    cutAll bytes = (line :: (cutAll rest).1, (cutAll rest).2) := by
  rw [cutAll]
  split <;> rename_i h' <;> rw [h] at h' <;> cases h'
  rfl

/-- Cutting goes on with what was left. -/
theorem cutAll_append (bytes more : Bytes) :
    cutAll (bytes ++ more) =
      ((cutAll bytes).1 ++ (cutAll ((cutAll bytes).2 ++ more)).1,
        (cutAll ((cutAll bytes).2 ++ more)).2) := by
  induction bytes using cutInduction with
  | rest bytes hc =>
    rw [cutAll_of_cut?_eq_none hc]
    rfl
  | step bytes line rest hc ih =>
    rw [cutAll_eq_of_cut? (cut?_append hc more), cutAll_eq_of_cut? hc, ih]
    rfl

theorem lineFeed_notMem_cutAll (bytes : Bytes) : Bytes.lineFeed ∉ (cutAll bytes).2 := by
  induction bytes using cutInduction with
  | rest bytes hc =>
    rw [cutAll_of_cut?_eq_none hc]
    exact cut?_eq_none_iff.1 hc
  | step bytes line rest hc ih =>
    rw [cutAll_eq_of_cut? hc]
    exact ih

/-! ## Chunks -/

/-- The lines that are cut off after each chunk, put behind what is left of those before it, and
what is left of all of them. -/
def feed (held : Bytes) : List Bytes → List (Except Fault Line) × Bytes
  | [] => ([], held)
  | chunk :: chunks =>
    let (lines, left) := cutAll (held ++ chunk)
    let (more, left) := feed left chunks
    (lines ++ more, left)

theorem feed_eq_cutAll {held : Bytes} (hf : Bytes.lineFeed ∉ held) (chunks : List Bytes) :
    feed held chunks = cutAll (held ++ chunks.flatten) := by
  induction chunks generalizing held with
  | nil =>
    rw [List.flatten_nil, List.append_nil, cutAll_of_cut?_eq_none (cut?_eq_none_iff.2 hf)]
    rfl
  | cons chunk chunks ih =>
    have hrest := ih (lineFeed_notMem_cutAll (held ++ chunk))
    rw [List.flatten_cons, ← List.append_assoc, cutAll_append, ← hrest]
    rfl

/-! ## Segments -/

/-- The bytes end at their first line feed. -/
def IsSegment (bytes : Bytes) : Prop :=
  ∃ content, bytes = content ++ [Bytes.lineFeed] ∧ Bytes.lineFeed ∉ content

/-- The segment is the body with its line end: a line feed, and the carriage return that stands
right before it, if one does. -/
inductive IsBody (segment body : Bytes) : Prop
  | crlf (h : segment = body ++ Bytes.crlf)
  | lineFeed (h : segment = body ++ [Bytes.lineFeed])
      (hr : body.getLast? ≠ some Bytes.carriageReturn)

theorem isBody_iff {content body : Bytes} :
    IsBody (content ++ [Bytes.lineFeed]) body ↔ dropReturn content = body := by
  have hcrlf : body ++ Bytes.crlf = body ++ [Bytes.carriageReturn] ++ [Bytes.lineFeed] := by
    rw [List.append_assoc]
    rfl
  constructor
  · rintro (h | ⟨h, hr⟩)
    · rw [hcrlf, List.append_left_inj] at h
      rw [h, dropReturn_concat]
    · rw [List.append_left_inj] at h
      rw [h, dropReturn, if_neg hr]
  · rintro rfl
    by_cases hl : content.getLast? = some Bytes.carriageReturn
    · obtain ⟨body, rfl⟩ := List.getLast?_eq_some_iff.1 hl
      rw [dropReturn_concat]
      exact .crlf (by rw [List.append_assoc]; rfl)
    · rw [dropReturn, if_neg hl]
      exact .lineFeed rfl hl

/-- The result is what comes of the segment. -/
structure IsReadAs (segment : Bytes) (result : Except Fault Line) : Prop where
  /-- Whatever comes of it, all of the segment is taken off, and nothing behind it. -/
  next (rest : Bytes) :
    Line.next (segment ++ rest) = ((result.map some).mapError .invalidLine, rest)
  line (line : Line) :
    result = .ok line ↔ IsWritten segment line.text ∧ line.size = segment.length
  fault : (∃ fault, result = .error fault) ↔ ∃ body, IsBody segment body ∧
    (Bytes.carriageReturn ∈ body ∨ ∀ text, body ≠ Utf8.encode text)
  blank : (∃ line, result = .ok line ∧ line.isBlank = true) ↔
    segment = [Bytes.lineFeed] ∨ segment = Bytes.crlf

theorem next_segment {content : Bytes} (hf : Bytes.lineFeed ∉ content) (rest : Bytes) :
    next (content ++ [Bytes.lineFeed] ++ rest) =
      (((ofContent content).map some).mapError .invalidLine, rest) := by
  have hc : cut? (content ++ [Bytes.lineFeed] ++ rest) = some (ofContent content, rest) :=
    cut?_eq_some_iff.2 ⟨content, by simp, hf, rfl⟩
  rw [next, hc]
  cases ofContent content <;> rfl

theorem exists_ofContent_eq_error_iff {content : Bytes} :
    (∃ fault, ofContent content = .error fault) ↔
      Bytes.carriageReturn ∈ dropReturn content ∨
        ∀ text, dropReturn content ≠ Utf8.encode text := by
  unfold ofContent
  by_cases hr : Bytes.carriageReturn ∈ dropReturn content
  · simp [hr]
  · cases hd : Utf8.decode (dropReturn content) with
    | ok text =>
      apply iff_of_false
      · simp [hr, hd]
      · rintro (h | h)
        · exact hr h
        · exact h text (Utf8.decode_eq_ok_iff.1 hd)
    | error fault =>
      apply iff_of_true
      · simp [hr, hd]
      · refine .inr fun text h => ?_
        rw [Utf8.decode_eq_ok_iff.2 h] at hd
        cases hd

theorem isWritten_empty_iff {segment : Bytes} :
    IsWritten segment "" ↔ segment = [Bytes.lineFeed] ∨ segment = Bytes.crlf :=
  and_iff_right (by decide)

theorem isReadAs_ofContent {content : Bytes} (hf : Bytes.lineFeed ∉ content) :
    IsReadAs (content ++ [Bytes.lineFeed]) (ofContent content) where
  next := next_segment hf
  line line := by rw [ofContent_eq_ok_iff hf, List.length_append, List.length_singleton]
  fault := by simp only [exists_ofContent_eq_error_iff, isBody_iff, exists_eq_left']
  blank := by
    simp only [← isWritten_empty_iff, ofContent_eq_ok_iff hf, isBlank, String.isEmpty_iff]
    constructor
    · rintro ⟨line, ⟨hw, -⟩, ht⟩
      rwa [ht] at hw
    · exact fun hw => ⟨⟨"", content.length + 1⟩, ⟨hw, rfl⟩, rfl⟩

/-- Cutting takes bytes apart into segments, of each of which comes one result, and bytes without a
line feed. -/
theorem exists_segments (bytes : Bytes) :
    ∃ segments, bytes = segments.flatten ++ (cutAll bytes).2 ∧
      (∀ segment ∈ segments, IsSegment segment) ∧
      List.Forall₂ IsReadAs segments (cutAll bytes).1 := by
  induction bytes using cutInduction with
  | rest bytes hc =>
    rw [cutAll_of_cut?_eq_none hc]
    exact ⟨[], rfl, nofun, .nil⟩
  | step bytes line rest hc ih =>
    obtain ⟨segments, hrest, hsegments, hresults⟩ := ih
    obtain ⟨content, rfl, hf, rfl⟩ := cut?_eq_some_iff.1 hc
    rw [cutAll_eq_of_cut? hc]
    refine ⟨(content ++ [Bytes.lineFeed]) :: segments, ?_, ?_, ?_⟩
    · rw [List.flatten_cons, List.append_assoc, ← hrest, List.append_assoc]
      rfl
    · exact List.forall_mem_cons.2 ⟨⟨content, rfl, hf⟩, hsegments⟩
    · exact .cons (isReadAs_ofContent hf) hresults

/-- However bytes are fed in chunks, they are taken apart into segments, each of which ends at its
first line feed, and the bytes that are left, which have none and give no line. The results are
those of the segments in their order, and neither they nor the bytes that are left depend on the
chunks. -/
theorem feed_cuts_segments (chunks : List Bytes) :
    feed [] chunks = cutAll chunks.flatten ∧
    ∃ segments results left, feed [] chunks = (results, left) ∧
      chunks.flatten = segments.flatten ++ left ∧
      (∀ segment ∈ segments, IsSegment segment) ∧
      List.Forall₂ IsReadAs segments results ∧
      Bytes.lineFeed ∉ left ∧ next left = (.ok none, left) := by
  have hfeed : feed [] chunks = cutAll chunks.flatten := feed_eq_cutAll List.not_mem_nil chunks
  obtain ⟨segments, hbytes, hsegments, hresults⟩ := exists_segments chunks.flatten
  have hleft := lineFeed_notMem_cutAll chunks.flatten
  refine ⟨hfeed, segments, _, _, hfeed, hbytes, hsegments, hresults, hleft, ?_⟩
  rw [next, cut?_eq_none_iff.2 hleft]

/-- A line end and a character are cut in two, and a line between them is at fault. -/
example :
    feed [] [[97, 13], [10, 13, 98, 10, 0xC3], [0xA9, 10, 99]] =
      ([.ok ⟨"a", 3⟩, .error .strayReturn, .ok ⟨"é", 3⟩], [99]) := by
  cbv

end Courier.Line
