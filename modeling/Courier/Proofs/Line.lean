import Courier.Line.Stream
import Courier.Text.Basic
import Courier.Text.Utf8.RoundTrip
import Mathlib.Tactic.SplitIfs

/-!
# The written forms of a line

A text without line breaks is written as its UTF-8 bytes with a line feed behind them, or with a
carriage return and a line feed (`Line.IsWritten`). Cutting a line off bytes gives a text exactly
when the bytes begin with a written form of it (`cut?_eq_ok_iff`), finds nothing exactly when there
is no line feed (`cut?_eq_none_iff`), and does not look behind the line feed (`cut?_append`).
`cutInduction` is induction along the lines that are cut off one after the other.
-/

namespace Courier

/-! ## ASCII bytes -/

namespace Utf8

/-- An ASCII byte is part of a character only if it is that character. -/
theorem mem_encodeChar_iff {b : UInt8} (hb : b.toNat < 0x80) (c : Char) :
    b ∈ encodeChar c ↔ c.toNat = b.toNat := by
  have hv := toNat_valid c
  unfold encodeChar
  dsimp only
  split_ifs
  · rw [List.mem_singleton, eq_comm, ofNat_eq_iff (by omega)]
  all_goals
    simp only [List.mem_cons, List.not_mem_nil, or_false, @eq_comm _ b]
    repeat rw [ofNat_eq_iff (by omega)]
    omega

theorem mem_encode_iff {b : UInt8} (hb : b.toNat < 0x80) (s : String) :
    b ∈ encode s ↔ ∃ c ∈ s.toList, c.toNat = b.toNat := by
  simp only [encode, encodeChars, List.mem_flatMap, mem_encodeChar_iff hb]

theorem encode_append (s t : String) : encode (s ++ t) = encode s ++ encode t := by
  simp only [encode, encodeChars, String.toList_append, List.flatMap_append]

end Utf8

theorem Text.hasLineBreak_eq_false_iff {s : String} :
    hasLineBreak s = false ↔
      Bytes.carriageReturn ∉ Utf8.encode s ∧ Bytes.lineFeed ∉ Utf8.encode s := by
  rw [Utf8.mem_encode_iff (by decide), Utf8.mem_encode_iff (by decide)]
  simp only [hasLineBreak, List.any_eq_false, Bool.or_eq_true, beq_iff_eq, not_or, not_exists,
    not_and, ← forall_and, ← Char.toNat_inj]
  rfl

/-! ## One line -/

namespace Line

/-- The bytes are the text with a line end behind it. -/
def IsWritten (bytes : Bytes) (text : String) : Prop :=
  Text.hasLineBreak text = false ∧
    (bytes = Utf8.encode text ++ [Bytes.lineFeed] ∨ bytes = Utf8.encode text ++ Bytes.crlf)

theorem splitFeed?_eq_some_iff {bytes content rest : Bytes} :
    splitFeed? bytes = some (content, rest) ↔
      bytes = content ++ Bytes.lineFeed :: rest ∧ Bytes.lineFeed ∉ content := by
  induction bytes generalizing content with
  | nil => simp [splitFeed?]
  | cons b bs ih =>
    cases content with
    | nil =>
      by_cases hb : b = Bytes.lineFeed <;> simp [splitFeed?, hb]
    | cons c cs =>
      by_cases hb : b = Bytes.lineFeed
      · subst hb
        simp +contextual [splitFeed?]
      · simp only [splitFeed?, hb, if_false, Option.map_eq_some_iff, Prod.exists, Prod.mk.injEq,
          List.cons_append, List.cons.injEq, List.mem_cons, not_or]
        constructor
        · rintro ⟨content, rest, h, ⟨rfl, rfl⟩, rfl⟩
          obtain ⟨rfl, hc⟩ := ih.1 h
          exact ⟨⟨rfl, rfl⟩, Ne.symm hb, hc⟩
        · rintro ⟨⟨rfl, rfl⟩, -, hc⟩
          exact ⟨cs, rest, ih.2 ⟨rfl, hc⟩, ⟨rfl, rfl⟩, rfl⟩

theorem splitFeed?_eq_none_iff {bytes : Bytes} :
    splitFeed? bytes = none ↔ Bytes.lineFeed ∉ bytes := by
  induction bytes with
  | nil => simp [splitFeed?]
  | cons b bs ih =>
    by_cases hb : b = Bytes.lineFeed
    · simp [splitFeed?, hb]
    · simp [splitFeed?, hb, ih, Ne.symm hb]

theorem dropReturn_of_not_mem {content : Bytes} (h : Bytes.carriageReturn ∉ content) :
    dropReturn content = content :=
  if_neg fun hl => h (List.mem_of_getLast? hl)

theorem dropReturn_concat (content : Bytes) :
    dropReturn (content ++ [Bytes.carriageReturn]) = content := by
  rw [dropReturn, if_pos List.getLast?_concat, List.dropLast_concat]

theorem eq_or_eq_dropReturn (content : Bytes) :
    content = dropReturn content ∨ content = dropReturn content ++ [Bytes.carriageReturn] := by
  unfold dropReturn
  split
  · rename_i h
    obtain ⟨kept, rfl⟩ := List.getLast?_eq_some_iff.1 h
    rw [List.dropLast_concat]
    exact .inr rfl
  · exact .inl rfl

/-- Bytes before a line feed are a line when they are a text without line breaks, but for one
carriage return at their end. -/
theorem ofContent_eq_ok_iff {content : Bytes} {line : Line} (hf : Bytes.lineFeed ∉ content) :
    ofContent content = .ok line ↔
      IsWritten (content ++ [Bytes.lineFeed]) line.text ∧ line.size = content.length + 1 := by
  obtain ⟨text, size⟩ := line
  simp only [ofContent, IsWritten, List.append_left_inj, Text.hasLineBreak_eq_false_iff]
  have hcrlf : ∀ bs : Bytes, bs ++ Bytes.crlf = bs ++ [Bytes.carriageReturn] ++ [Bytes.lineFeed] :=
    fun bs => by rw [List.append_assoc]; rfl
  rw [hcrlf, List.append_left_inj]
  constructor
  · intro h
    split_ifs at h with hr
    cases hd : Utf8.decode (dropReturn content) with
    | error fault => rw [hd] at h; cases h
    | ok kept =>
      rw [hd] at h
      cases h
      have hk := Utf8.eq_encode_of_decode hd
      have hmem : ∀ b, b ∈ dropReturn content → b ∈ content := by
        intro b hb
        rcases eq_or_eq_dropReturn content with he | he
        · rwa [he]
        · rw [he]
          exact List.mem_append_left _ hb
      rw [← hk]
      refine ⟨⟨⟨by simpa using hr, fun h => hf (hmem _ h)⟩, ?_⟩, rfl⟩
      exact eq_or_eq_dropReturn content
  · rintro ⟨⟨⟨hr, -⟩, hc⟩, rfl⟩
    have hk : dropReturn content = Utf8.encode text := by
      rcases hc with rfl | rfl
      · exact dropReturn_of_not_mem hr
      · exact dropReturn_concat _
    rw [hk, if_neg (by simpa using hr), Utf8.decode_encode]

/-! ## Cutting a line off -/

theorem cut?_eq_some_iff {bytes rest : Bytes} {line : Except Fault Line} :
    cut? bytes = some (line, rest) ↔
      ∃ content, bytes = content ++ Bytes.lineFeed :: rest ∧ Bytes.lineFeed ∉ content ∧
        ofContent content = line := by
  simp only [cut?, Option.map_eq_some_iff, Prod.exists, Prod.mk.injEq, splitFeed?_eq_some_iff]
  constructor
  · rintro ⟨content, rest', ⟨rfl, hf⟩, rfl, rfl⟩
    exact ⟨content, rfl, hf, rfl⟩
  · rintro ⟨content, rfl, hf, rfl⟩
    exact ⟨content, rest, ⟨rfl, hf⟩, rfl, rfl⟩

theorem cut?_eq_none_iff {bytes : Bytes} : cut? bytes = none ↔ Bytes.lineFeed ∉ bytes := by
  rw [cut?, Option.map_eq_none_iff, splitFeed?_eq_none_iff]

theorem cut?_append {bytes rest : Bytes} {line : Except Fault Line}
    (h : cut? bytes = some (line, rest)) (more : Bytes) :
    cut? (bytes ++ more) = some (line, rest ++ more) := by
  obtain ⟨content, rfl, hf, rfl⟩ := cut?_eq_some_iff.1 h
  exact cut?_eq_some_iff.2 ⟨content, by simp, hf, rfl⟩

/-- Induction along the lines that are cut off bytes. -/
theorem cutInduction {motive : Bytes → Prop} (rest : ∀ bytes, cut? bytes = none → motive bytes)
    (step : ∀ bytes line rest, cut? bytes = some (line, rest) → motive rest → motive bytes)
    (bytes : Bytes) : motive bytes := by
  induction hn : bytes.length using Nat.strongRecOn generalizing bytes with
  | ind n ih =>
    cases hc : cut? bytes with
    | none => exact rest bytes hc
    | some cut =>
      obtain ⟨line, left⟩ := cut
      exact step bytes line left hc (ih _ (hn ▸ length_lt_of_cut? hc) left rfl)

theorem IsWritten.exists_content {bytes : Bytes} {text : String} (h : IsWritten bytes text) :
    ∃ content, bytes = content ++ [Bytes.lineFeed] ∧ Bytes.lineFeed ∉ content := by
  obtain ⟨hb, h⟩ := h
  obtain ⟨-, hf⟩ := Text.hasLineBreak_eq_false_iff.1 hb
  rcases h with rfl | rfl
  · exact ⟨_, rfl, hf⟩
  · refine ⟨Utf8.encode text ++ [Bytes.carriageReturn], by rw [List.append_assoc]; rfl, ?_⟩
    rw [List.mem_append, not_or]
    exact ⟨hf, by decide⟩

/-- What is cut off as a line is a written form of it. -/
theorem cut?_eq_ok_iff {bytes rest : Bytes} {line : Line} :
    cut? bytes = some (.ok line, rest) ↔
      ∃ written, bytes = written ++ rest ∧ IsWritten written line.text ∧
        line.size = written.length := by
  rw [cut?_eq_some_iff]
  constructor
  · rintro ⟨content, rfl, hf, h⟩
    obtain ⟨hw, hs⟩ := (ofContent_eq_ok_iff hf).1 h
    exact ⟨content ++ [Bytes.lineFeed], by simp, hw, by simpa using hs⟩
  · rintro ⟨written, rfl, hw, hs⟩
    obtain ⟨content, rfl, hf⟩ := hw.exists_content
    exact ⟨content, by simp, hf, (ofContent_eq_ok_iff hf).2 ⟨hw, by simpa using hs⟩⟩

theorem size_add_length_of_cut? {bytes rest : Bytes} {line : Line}
    (h : cut? bytes = some (.ok line, rest)) : line.size + rest.length = bytes.length := by
  obtain ⟨written, rfl, -, hs⟩ := cut?_eq_ok_iff.1 h
  rw [hs, List.length_append]

end Line

end Courier
