import Courier.Proofs.Head.Lines

/-!
# What a head in the making holds

However far a head has come and whatever is wrong with it, it has no more header values than it may
have (`Counted.push`), decoding holds no more bytes than it has been given (`holds_decode`), and a
size is complained of only if it has been reached (`size_of_decodeLines`).
-/

namespace Courier

namespace Head.Progress

/-- There are no more header values than header lines, and no more than there may be. -/
structure Counted (p : Progress) : Prop where
  lines : p.block.headers.valueCount ≤ p.block.lines
  bound : p.block.headers.valueCount ≤ p.block.maxHeaders

theorem counted_reset (p : Progress) : p.reset.Counted :=
  ⟨Nat.zero_le _, Nat.zero_le _⟩

/-- Whatever a line does, the header values stay counted. -/
theorem Counted.push {p q : Progress} {line : Except Line.Fault Line}
    {answer : Except ReceiveError (Option Head)} (hp : p.Counted) (h : p.push line = (answer, q)) :
    q.Counted ∧ q.block.maxHeaders = p.block.maxHeaders := by
  obtain ⟨hlines, hbound⟩ := hp
  cases line with
  | error fault =>
    cases h
    exact ⟨⟨hlines, hbound⟩, rfl⟩
  | ok line =>
    cases hs : p.statusLine with
    | none =>
      rw [push_first hs] at h
      split_ifs at h <;> cases h <;> exact ⟨⟨hlines, hbound⟩, rfl⟩
    | some status =>
      rw [push_started hs] at h
      split_ifs at h with hm hb hl
      · cases h
        exact ⟨⟨hlines, hbound⟩, rfl⟩
      · cases h
        exact ⟨p.counted_reset, rfl⟩
      · cases h
        exact ⟨⟨Nat.le_succ_of_le hlines, hbound⟩, rfl⟩
      · split at h
        · rename_i headers ha
          cases h
          obtain ⟨field, -, hadd⟩ := Headers.addLine_eq_ok_iff.1 ha
          have hcount := Headers.valueCount_add hadd
          refine ⟨⟨?_, ?_⟩, rfl⟩
          · show headers.valueCount ≤ p.block.lines + 1
            omega
          · show headers.valueCount ≤ p.block.maxHeaders
            omega
        · cases h
          exact ⟨⟨Nat.le_succ_of_le hlines, hbound⟩, rfl⟩

theorem Counted.decodeLines {p q : Progress} {bytes left : Bytes}
    {answer : Except ReceiveError (Option Head)} (hp : p.Counted)
    (h : p.decodeLines bytes = (answer, q, left)) :
    q.Counted ∧ q.block.maxHeaders = p.block.maxHeaders := by
  induction p, bytes using linesInduction with
  | rest p bytes hc =>
    rw [decodeLines_rest p hc] at h
    split_ifs at h <;> cases h <;> exact ⟨hp, rfl⟩
  | stop p bytes line rest answer q hc hpush ha =>
    rw [decodeLines_stop hc hpush ha] at h
    cases h
    exact hp.push hpush
  | step p bytes line rest q' hc hpush ih =>
    rw [decodeLines_push hc hpush] at h
    obtain ⟨hq, hm⟩ := hp.push hpush
    obtain ⟨hc, hm'⟩ := ih hq h
    exact ⟨hc, hm'.trans hm⟩

/-! ## Heads that are too large -/

/-- A line is refused for its size if it does not fit. -/
theorem size_of_push {p q : Progress} {line : Except Line.Fault Line} {size limit : Nat}
    (h : p.push line = (.error (.headTooLarge size limit), q)) :
    ∃ taken, line = .ok taken ∧ size = p.received + taken.size ∧ limit = p.maxBytes.toNat ∧
      limit < size := by
  cases line with
  | error fault => cases h
  | ok line =>
    cases hs : p.statusLine with
    | none =>
      rw [push_first hs] at h
      split_ifs at h with hm
      · cases h
        exact ⟨line, rfl, rfl, rfl, hm⟩
      · cases h
    | some status =>
      rw [push_started hs] at h
      split_ifs at h with hm hb hl
      · cases h
        exact ⟨line, rfl, rfl, rfl, hm⟩
      · unfold Head.make at h
        split at h <;> cases h
      · cases h
      · split at h
        · cases h
        · rename_i ha
          rw [Headers.eq_malformed_of_addLine ha] at h
          cases h

theorem received_push_le {p q : Progress} {line : Line} {answer : Except ReceiveError (Option Head)}
    (h : p.push (.ok line) = (answer, q)) : q.received ≤ p.received + line.size := by
  cases hs : p.statusLine with
  | none =>
    rw [push_first hs] at h
    split_ifs at h <;> cases h <;> exact Nat.le_refl _
  | some status =>
    rw [push_started hs] at h
    split_ifs at h
    · cases h
      exact Nat.le_refl _
    · cases h
      exact Nat.zero_le _
    · cases h
      exact Nat.le_refl _
    · split at h <;> cases h <;> exact Nat.le_refl _

/-- A line holds no more bytes than are cut off for it. -/
theorem received_cut_le {p q : Progress} {bytes rest : Bytes} {line : Except Line.Fault Line}
    {answer : Except ReceiveError (Option Head)} (hc : Line.cut? bytes = some (line, rest))
    (hp : p.push line = (answer, q)) : q.received + rest.length ≤ p.received + bytes.length := by
  cases line with
  | error fault =>
    cases hp
    exact Nat.add_le_add_left (Nat.le_of_lt (Line.length_lt_of_cut? hc)) _
  | ok line =>
    have hle := received_push_le hp
    have hsum := Line.size_add_length_of_cut? hc
    omega

/-- Decoding holds no more bytes than it has been given. -/
theorem holds_decodeLines_le {p q : Progress} {bytes left : Bytes}
    {answer : Except ReceiveError (Option Head)} (h : p.decodeLines bytes = (answer, q, left)) :
    q.received + left.length ≤ p.received + bytes.length := by
  induction p, bytes using linesInduction with
  | rest p bytes hc =>
    rw [decodeLines_rest p hc] at h
    split_ifs at h <;> cases h <;> exact Nat.le_refl _
  | stop p bytes line rest answer q hc hp ha =>
    rw [decodeLines_stop hc hp ha] at h
    cases h
    exact received_cut_le hc hp
  | step p bytes line rest q' hc hp ih =>
    rw [decodeLines_push hc hp] at h
    exact Nat.le_trans (ih h) (received_cut_le hc hp)

/-- Bytes are refused for their size if they do not fit, and no more than there are count. -/
theorem size_of_decodeLines {p q : Progress} {bytes left : Bytes} {size limit : Nat}
    (h : p.decodeLines bytes = (.error (.headTooLarge size limit), q, left)) :
    limit = p.maxBytes.toNat ∧ limit < size ∧ size ≤ p.received + bytes.length := by
  induction p, bytes using linesInduction with
  | rest p bytes hc =>
    rw [decodeLines_rest p hc] at h
    split_ifs at h with hm
    · cases h
      exact ⟨rfl, hm, Nat.le_refl _⟩
    · cases h
  | stop p bytes line rest answer q hc hp ha =>
    rw [decodeLines_stop hc hp ha] at h
    cases h
    obtain ⟨taken, rfl, rfl, rfl, hlt⟩ := size_of_push hp
    have hsum := Line.size_add_length_of_cut? hc
    exact ⟨rfl, hlt, by omega⟩
  | step p bytes line rest q' hc hp ih =>
    rw [decodeLines_push hc hp] at h
    obtain ⟨hl, hlt, hle⟩ := ih h
    have hmax : q'.maxBytes = p.maxBytes := by
      cases line with
      | error fault => cases hp
      | ok line => exact (received_of_push hp).2.2.1
    exact ⟨hmax ▸ hl, hlt, Nat.le_trans hle (received_cut_le hc hp)⟩

/-- What decoding leaves, of what was held before and the bytes. -/
structure Holds (p : Progress) (bytes : Bytes) (q : Progress) (left : Bytes) : Prop where
  counted : q.Counted
  maxHeaders : q.block.maxHeaders = p.block.maxHeaders
  bytes : q.received + left.length ≤ p.received + bytes.length

theorem Holds.reset {p q : Progress} {bytes left rest : Bytes} (h : p.Holds bytes q left)
    (hl : rest.length ≤ left.length) : p.Holds bytes q.reset rest := by
  refine ⟨q.counted_reset, h.maxHeaders, ?_⟩
  have := h.bytes
  show 0 + rest.length ≤ _
  omega

theorem holds_decodeLines {p q : Progress} {bytes left : Bytes}
    {answer : Except ReceiveError (Option Head)} (hp : p.Counted)
    (h : p.decodeLines bytes = (answer, q, left)) : p.Holds bytes q left := by
  obtain ⟨hc, hm⟩ := hp.decodeLines h
  exact ⟨hc, hm, holds_decodeLines_le h⟩

theorem holds_decode {p q : Progress} {bytes left : Bytes}
    {answer : Except ReceiveError (Option Head)} (hp : p.Counted)
    (h : p.decode bytes = (answer, q, left)) : p.Holds bytes q left := by
  cases answer with
  | ok answer => exact holds_decodeLines hp (decode_eq_ok_iff.1 h)
  | error error =>
    obtain ⟨q', hd, rfl⟩ := decode_eq_error_iff.1 h
    exact (holds_decodeLines hp hd).reset (Nat.le_refl _)

theorem holds_decodeLast {p q : Progress} {bytes left : Bytes}
    {answer : Except ReceiveError (Option Head)} (hp : p.Counted)
    (h : p.decodeLast bytes = (answer, q, left)) : p.Holds bytes q left := by
  unfold decodeLast at h
  rcases hd : p.decode bytes with ⟨error | _ | head, q', rest⟩
  all_goals
    rw [hd] at h
    have hholds := holds_decode hp hd
    cases h
  · exact hholds
  · exact hholds.reset (Nat.zero_le _)
  · exact hholds

/-- At the end of the stream no size is found that was not there before. -/
theorem decodeLines_of_decodeLast {p q : Progress} {bytes left : Bytes} {size limit : Nat}
    (h : p.decodeLast bytes = (.error (.headTooLarge size limit), q, left)) :
    ∃ q' left', p.decodeLines bytes = (.error (.headTooLarge size limit), q', left') := by
  unfold decodeLast at h
  rcases hd : p.decode bytes with ⟨error | _ | head, q', rest⟩ <;> rw [hd] at h
  · cases h
    obtain ⟨q'', hlines, -⟩ := decode_eq_error_iff.1 hd
    exact ⟨_, _, hlines⟩
  · dsimp only at h
    split_ifs at h <;> cases h
  · cases h

end Head.Progress

end Courier
