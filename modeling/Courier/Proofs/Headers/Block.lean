import Courier.Proofs.Head.Grammar
import Courier.Proofs.Line.Segments

/-!
# Header blocks in chunks

The bytes of a block are header lines (`AreHeaders`), and what stands behind them decides the answer
(`Decides`): a blank line completes the block, any other line is refused for the first thing that is
wrong with it, and without a line there is no answer yet (`decides_of_decode`).

As a block is decoded line by line, an answer stays whatever bytes follow, and where there is none,
decoding goes on with the bytes that were left (`decode_append`). Feeding chunks, each behind what
is left of those before it, therefore comes to decoding all bytes at once (`decode_of_feed`).
-/

namespace Courier.HeaderBlock.Progress

variable {p q r : Progress}

/-! ## Lines one after the other -/

theorem decode_rest {bytes : Bytes} (p : Progress) (hc : Line.cut? bytes = none) :
    p.decode bytes = (.ok none, p, bytes) := by
  rw [decode]
  split
  · rfl
  all_goals
    rename_i h
    rw [hc] at h
    cases h

theorem decode_fault {bytes rest : Bytes} {fault : Line.Fault} (p : Progress)
    (hc : Line.cut? bytes = some (.error fault, rest)) :
    p.decode bytes = (.error (.invalidLine fault), p, rest) := by
  rw [decode]
  split <;> rename_i h <;> rw [hc] at h <;> cases h
  rfl

theorem decode_line {bytes rest : Bytes} {line : Line} (p : Progress)
    (hc : Line.cut? bytes = some (.ok line, rest)) :
    p.decode bytes =
      match p.push line with
      | (.ok none, q) => q.decode rest
      | (answer, q) => (answer, q, rest) := by
  rw [decode]
  split <;> rename_i h <;> rw [hc] at h <;> cases h
  rfl

/-- An answer stays whatever follows, and without one decoding goes on with the bytes that were
left. -/
theorem decode_append (p : Progress) (bytes more : Bytes) :
    p.decode (bytes ++ more) =
      match p.decode bytes with
      | (.ok none, q, left) => q.decode (left ++ more)
      | (answer, q, left) => (answer, q, left ++ more) := by
  induction bytes using Line.cutInduction generalizing p with
  | rest bytes hc => rw [p.decode_rest hc]
  | step bytes line rest hc ih =>
    have hmore := Line.cut?_append hc more
    cases line with
    | error fault => rw [p.decode_fault hc, p.decode_fault hmore]
    | ok line =>
      rw [p.decode_line hc, p.decode_line hmore]
      rcases p.push line with ⟨error | _ | block, q⟩
      · rfl
      · exact ih q
      · rfl

/-! ## What decides the answer -/

/-- The bytes are header lines that may all be taken, and give the headers. -/
structure AreHeaders (p : Progress) (bytes : Bytes) (lines : List String) (headers : Headers) :
    Prop where
  written : Line.AreWritten bytes lines
  fits : p.lines + lines.length ≤ p.maxHeaders
  given : ∃ fields, List.Forall₂ Headers.IsField lines fields ∧
    Head.Progress.addAll p.headers fields = .ok headers

/-- What stands behind header lines decides the answer: so many lines of so many bytes, and the
headers that they give. -/
inductive Decides (maxHeaders lines size : Nat) (headers : Headers) :
    Bytes → Except ReceiveError (Option HeaderBlock) → Bytes → Prop
  | unfinished {left : Bytes} (hf : Bytes.lineFeed ∉ left) :
      Decides maxHeaders lines size headers left (.ok none) left
  | blank {written rest : Bytes} (hw : Line.IsWritten written "") :
      Decides maxHeaders lines size headers (written ++ rest)
        (.ok (some ⟨headers, size + written.length⟩)) rest
  | invalidLine {bytes rest : Bytes} {fault : Line.Fault}
      (hc : Line.cut? bytes = some (.error fault, rest)) :
      Decides maxHeaders lines size headers bytes (.error (.invalidLine fault)) rest
  | tooMany {written rest : Bytes} {text : String} (hw : Line.IsWritten written text)
      (hne : text ≠ "") (hn : maxHeaders ≤ lines) :
      Decides maxHeaders lines size headers (written ++ rest)
        (.error (.tooManyHeaders maxHeaders)) rest
  | malformed {written rest : Bytes} {text : String} (hw : Line.IsWritten written text)
      (hne : text ≠ "") (hn : lines < maxHeaders) (hf : ∀ field, ¬ Headers.IsField text field) :
      Decides maxHeaders lines size headers (written ++ rest) (.error (.malformedHeader text)) rest

theorem AreHeaders.nil (hn : p.lines ≤ p.maxHeaders) : p.AreHeaders [] [] p.headers :=
  ⟨.nil, hn, [], .nil, rfl⟩

theorem AreHeaders.valueCount_eq {bytes : Bytes} {lines : List String} {headers : Headers}
    (h : p.AreHeaders bytes lines headers) :
    headers.valueCount = p.headers.valueCount + lines.length := by
  obtain ⟨fields, hf, ha⟩ := h.given
  rw [Headers.valueCount_foldlM ha, hf.length_eq]

theorem AreHeaders.ne_empty {bytes : Bytes} {lines : List String} {headers : Headers}
    (h : p.AreHeaders bytes lines headers) : ∀ line ∈ lines, line ≠ "" := by
  obtain ⟨fields, hf, -⟩ := h.given
  intro line hm
  obtain ⟨field, hfield⟩ := exists_forall₂_iff.1 ⟨fields, hf⟩ line hm
  exact hfield.ne_empty

/-- A line that is pushed decides the answer, unless it is one more header line. -/
theorem cases_of_push {line : Line} {written : Bytes}
    {answer : Except ReceiveError (Option HeaderBlock)} (hw : Line.IsWritten written line.text)
    (hs : line.size = written.length) (h : p.push line = (answer, q)) :
    (answer ≠ .ok none ∧ (∀ block, answer = .ok (some block) → q = p.reset) ∧
        ∀ rest, Decides p.maxHeaders p.lines p.consumed p.headers (written ++ rest) answer rest) ∨
      ∃ field headers, answer = .ok none ∧ p.lines < p.maxHeaders ∧
        Headers.IsField line.text field ∧ p.headers.add field.1 field.2 = .ok headers ∧
        q = { p with headers, lines := p.lines + 1, consumed := p.consumed + line.size } := by
  unfold push at h
  dsimp only at h
  split_ifs at h with hb hl
  · cases h
    rw [hs]
    rw [String.isEmpty_iff.1 hb] at hw
    exact .inl ⟨nofun, fun _ _ => rfl, fun rest => .blank hw⟩
  · cases h
    have hne : line.text ≠ "" := fun ht => hb (String.isEmpty_iff.2 ht)
    exact .inl ⟨nofun, nofun, fun rest => .tooMany hw hne (by omega)⟩
  · split at h
    · rename_i headers ha
      cases h
      obtain ⟨field, hfield, hadd⟩ := Headers.addLine_eq_ok_iff.1 ha
      exact .inr ⟨field, headers, rfl, by omega, hfield, hadd, rfl⟩
    · rename_i error ha
      cases h
      have hne : line.text ≠ "" := fun ht => hb (String.isEmpty_iff.2 ht)
      have hf (field : String × String) : ¬ Headers.IsField line.text field := fun hf => by
        obtain ⟨headers, hadd⟩ := hf.exists_add hw.1 p.headers
        rw [Headers.addLine_eq_ok_iff.2 ⟨field, hf, hadd⟩] at ha
        cases ha
      rw [Headers.eq_malformed_of_addLine ha]
      exact .inl ⟨nofun, nofun, fun rest => .malformed hw hne (by omega) hf⟩

/-- A header line in front of header lines is one more of them. -/
theorem AreHeaders.cons {line : Line} {first bytes : Bytes} {lines : List String}
    {field : String × String} {added headers : Headers} (hw : Line.IsWritten first line.text)
    (hf : Headers.IsField line.text field) (ha : p.headers.add field.1 field.2 = .ok added)
    (h : AreHeaders { p with
      headers := added, lines := p.lines + 1, consumed := p.consumed + line.size }
      bytes lines headers) :
    p.AreHeaders (first ++ bytes) (line.text :: lines) headers := by
  obtain ⟨hwritten, hfits, fields, hfields, hall⟩ := h
  refine ⟨.cons hw hwritten, ?_, field :: fields, .cons hf hfields, ?_⟩
  · rw [List.length_cons]
    dsimp only at hfits
    omega
  · exact foldlM_cons_eq_ok_iff.2 ⟨added, ha, hall⟩

/-- Decoding takes header lines, and what stands behind them decides the answer. Behind a block it
starts over. -/
theorem decides_of_decode {bytes rest : Bytes} {answer : Except ReceiveError (Option HeaderBlock)}
    (hn : p.lines ≤ p.maxHeaders) (h : p.decode bytes = (answer, q, rest)) :
    (∀ block, answer = .ok (some block) → q = p.reset) ∧
      ∃ taken more lines headers, bytes = taken ++ more ∧ p.AreHeaders taken lines headers ∧
        Decides p.maxHeaders (p.lines + lines.length) (p.consumed + taken.length) headers more
          answer rest := by
  induction bytes using Line.cutInduction generalizing p with
  | rest bytes hc =>
    rw [p.decode_rest hc] at h
    cases h
    exact ⟨nofun, [], _, [], _, rfl, .nil hn, .unfinished (Line.cut?_eq_none_iff.1 hc)⟩
  | step bytes line left hc ih =>
    cases line with
    | error fault =>
      rw [p.decode_fault hc] at h
      cases h
      exact ⟨nofun, [], _, [], _, rfl, .nil hn, .invalidLine hc⟩
    | ok line =>
      rw [p.decode_line hc] at h
      obtain ⟨written, rfl, hw, hs⟩ := Line.cut?_eq_ok_iff.1 hc
      rcases hp : p.push line with ⟨pushed, p'⟩
      rw [hp] at h
      rcases cases_of_push hw hs hp with ⟨hne, hreset, hd⟩ | ⟨field, added, rfl, hl, hf, ha, rfl⟩
      · obtain ⟨rfl, rfl, rfl⟩ : pushed = answer ∧ p' = q ∧ left = rest := by
          rcases pushed with error | _ | block
          · simpa using h
          · exact absurd rfl hne
          · simpa using h
        exact ⟨hreset, [], _, [], _, rfl, .nil hn, hd left⟩
      · obtain ⟨hreset, taken, more, lines, headers, rfl, ht, hd⟩ := ih (Nat.succ_le_of_lt hl) h
        refine ⟨hreset, written ++ taken, more, line.text :: lines, headers,
          (List.append_assoc ..).symm, .cons hw hf ha ht, ?_⟩
        rw [List.length_cons, Nat.add_comm lines.length, ← Nat.add_assoc, List.length_append, ← hs,
          ← Nat.add_assoc]
        exact hd

/-! ## Chunks -/

/-- Decodes after each chunk, put behind the bytes that are held, until there is an answer; with the
chunks that are not fed then. -/
def feed (p : Progress) (held : Bytes) :
    List Bytes → Except ReceiveError (Option HeaderBlock) × Progress × Bytes × List Bytes
  | [] => (.ok none, p, held, [])
  | chunk :: rest =>
    match p.decode (held ++ chunk) with
    | (.ok none, p, held) => feed p held rest
    | (answer, p, held) => (answer, p, held, rest)

/-- Feeding chunks behind bytes that gave no answer comes to decoding all of them at once. -/
theorem decode_of_feed {taken held left : Bytes} {chunks after : List Bytes}
    {answer : Except ReceiveError (Option HeaderBlock)}
    (hd : p.decode taken = (.ok none, q, held))
    (h : q.feed held chunks = (answer, r, left, after)) :
    p.decode (taken ++ chunks.flatten) = (answer, r, left ++ after.flatten) ∧ after <:+ chunks := by
  induction chunks generalizing q taken held with
  | nil =>
    cases h
    simpa using hd
  | cons chunk chunks ih =>
    have happend : p.decode (taken ++ chunk) = q.decode (held ++ chunk) := by
      rw [decode_append, hd]
    rw [List.flatten_cons, ← List.append_assoc]
    rcases hq : q.decode (held ++ chunk) with ⟨error | _ | block, q', held'⟩ <;>
      rw [feed, hq] at h
    · cases h
      rw [decode_append, happend, hq]
      exact ⟨rfl, List.suffix_cons ..⟩
    · obtain ⟨hall, hafter⟩ := ih (happend.trans hq) h
      exact ⟨hall, hafter.trans (List.suffix_cons ..)⟩
    · cases h
      rw [decode_append, happend, hq]
      exact ⟨rfl, List.suffix_cons ..⟩

/-- However bytes are cut into chunks, feeding them comes to what decoding them at once does: the
same answer, the same state, and the same bytes behind it, of which some may not have been fed. The
answer is decided by what stands behind the header lines. A block counts the bytes up to and with
the first blank line and has a value for each line before it, no more than there may be, and behind
it decoding starts as it did at first. -/
theorem feed_decodes_flatten (maxHeaders : Nat) (chunks : List Bytes) :
    let new : Progress := { maxHeaders }
    ∃ answer p left after,
      new.feed [] chunks = (answer, p, left, after) ∧
      new.decode chunks.flatten = (answer, p, left ++ after.flatten) ∧
      after <:+ chunks ∧
      ∃ taken more lines headers,
        chunks.flatten = taken ++ more ∧
        new.AreHeaders taken lines headers ∧
        Decides maxHeaders lines.length taken.length headers more answer (left ++ after.flatten) ∧
        ∀ block, answer = .ok (some block) →
          p = new ∧ ∃ blank,
            chunks.flatten = taken ++ blank ++ (left ++ after.flatten) ∧
            (∀ line ∈ lines, line ≠ "") ∧
            Line.IsWritten blank "" ∧
            block.consumed = (taken ++ blank).length ∧
            block.headers.valueCount = lines.length ∧
            lines.length ≤ maxHeaders := by
  intro new
  rcases hfeed : new.feed [] chunks with ⟨answer, p, left, after⟩
  obtain ⟨hdecode, hafter⟩ := decode_of_feed (new.decode_rest rfl) hfeed
  rw [List.nil_append] at hdecode
  obtain ⟨hreset, taken, more, lines, headers, hbytes, ht, hd⟩ :=
    decides_of_decode (Nat.zero_le maxHeaders) hdecode
  have hsize : new.consumed + taken.length = taken.length := Nat.zero_add _
  have hlines : new.lines + lines.length = lines.length := Nat.zero_add _
  rw [hsize, hlines] at hd
  refine ⟨answer, p, left, after, rfl, hdecode, hafter, taken, more, lines, headers, hbytes, ht, hd,
    ?_⟩
  rintro block rfl
  have hp : p = new := hreset block rfl
  generalize left ++ after.flatten = rest at hd ⊢
  cases hd with
  | @blank written _ hw =>
    refine ⟨hp, written, ?_, ht.ne_empty, hw, (List.length_append ..).symm, ?_, ?_⟩
    · rw [hbytes, List.append_assoc]
    · rw [ht.valueCount_eq]
      exact Nat.zero_add _
    · exact hlines ▸ ht.fits

/-- A blank line is cut in two, and a chunk behind the block is not fed. -/
example :
    feed { maxHeaders := 0 } [] [[13], [10, 98], [58]] =
      (.ok (some ⟨.empty, 2⟩), { maxHeaders := 0 }, [98], [[58]]) := by
  cbv

end Courier.HeaderBlock.Progress
