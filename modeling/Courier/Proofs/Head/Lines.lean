import Courier.Head.Progress
import Courier.Proofs.Headers.Field
import Courier.Proofs.Line

/-!
# A head line by line

What a head in the making does with one line is `Progress.push`, and decoding is pushing the lines
of the bytes until one of them gives an answer (`decodeLines_push`, `decodeLines_stop`) or there is
no line left (`decodeLines_rest`). `linesInduction` is induction along these three cases.

What a line does is said by `push_first` and `push_started`; `push_eq_none_iff` and
`push_eq_some_iff` tell which lines leave the head unfinished and which complete it. Decoding goes
on where a head was left unfinished (`decodeLines_append`).
-/

namespace Courier

/-- The bytes themselves are at fault, and not where they end. -/
def ReceiveError.IsFault : ReceiveError → Prop
  | .headTooLarge .. | .tooManyHeaders _ | .invalidLine _ | .malformedHeader _
  | .invalidLength _ => True
  | .incompleteHead _ | .body _ | .timeout | .io _ => False

theorem ReceiveError.IsFault.toClass {error : ReceiveError} (h : error.IsFault) :
    error.toClass = .framing := by
  cases error <;> first | rfl | exact h.elim

namespace Head.Progress

/-! ## One line -/

/-- Takes one line. -/
def push (p : Progress) (line : Except Line.Fault Line) :
    Except ReceiveError (Option Head) × Progress :=
  match line with
  | .error fault => (.error (.invalidLine fault), p)
  | .ok line =>
    let p := { p with received := p.received + line.size }
    if p.maxBytes.toNat < p.received then (.error (.headTooLarge p.received p.maxBytes.toNat), p)
    else
      match p.statusLine with
      | none => (.ok none, { p with statusLine := some line.text })
      | some _ =>
        match p.block.push line with
        | (.error error, block) => (.error error, { p with block })
        | (.ok none, block) => (.ok none, { p with block })
        | (.ok (some done), block) =>
          ((p.finish done).map some, { p with statusLine := none, block, received := 0 })

theorem decodeLines_rest {bytes : Bytes} (p : Progress) (hc : Line.cut? bytes = none) :
    p.decodeLines bytes =
      if p.maxBytes.toNat < p.received + bytes.length then
        (.error (.headTooLarge (p.received + bytes.length) p.maxBytes.toNat), p, bytes)
      else (.ok none, p, bytes) := by
  rw [decodeLines]
  split
  · rfl
  all_goals
    rename_i h
    rw [hc] at h
    cases h

theorem decodeLines_nil {p : Progress} (hr : p.received ≤ p.maxBytes.toNat) :
    p.decodeLines [] = (.ok none, p, []) := by
  rw [decodeLines_rest p rfl, if_neg (by simpa using hr)]

theorem decodeLines_cut {bytes rest : Bytes} {line : Except Line.Fault Line} (p : Progress)
    (hc : Line.cut? bytes = some (line, rest)) :
    p.decodeLines bytes =
      match p.push line with
      | (.ok none, q) => q.decodeLines rest
      | (answer, q) => (answer, q, rest) := by
  rw [decodeLines]
  split <;> rename_i h <;> rw [hc] at h <;> cases h
  · rfl
  · unfold push
    dsimp only
    split_ifs
    · rfl
    cases p.statusLine with
    | none => rfl
    | some status =>
      rcases p.block.push _ with ⟨error | _ | done, block⟩
      · rfl
      · rfl
      · dsimp only
        cases Progress.finish _ done <;> rfl

theorem decodeLines_push {bytes rest : Bytes} {line : Except Line.Fault Line} {p q : Progress}
    (hc : Line.cut? bytes = some (line, rest)) (hp : p.push line = (.ok none, q)) :
    p.decodeLines bytes = q.decodeLines rest := by
  rw [decodeLines_cut p hc, hp]

theorem decodeLines_stop {bytes rest : Bytes} {line : Except Line.Fault Line} {p q : Progress}
    {answer : Except ReceiveError (Option Head)} (hc : Line.cut? bytes = some (line, rest))
    (hp : p.push line = (answer, q)) (ha : answer ≠ .ok none) :
    p.decodeLines bytes = (answer, q, rest) := by
  rw [decodeLines_cut p hc, hp]
  split <;> rename_i h <;> cases h
  · exact absurd rfl ha
  · rfl

/-- Induction along the lines that a head in the making takes off bytes. -/
theorem linesInduction {motive : Progress → Bytes → Prop}
    (rest : ∀ p bytes, Line.cut? bytes = none → motive p bytes)
    (stop : ∀ p bytes line rest answer q, Line.cut? bytes = some (line, rest) →
      p.push line = (answer, q) → answer ≠ .ok none → motive p bytes)
    (step : ∀ p bytes line rest q, Line.cut? bytes = some (line, rest) →
      p.push line = (.ok none, q) → motive q rest → motive p bytes)
    (p : Progress) (bytes : Bytes) : motive p bytes := by
  induction bytes using Line.cutInduction generalizing p with
  | rest bytes hc => exact rest p bytes hc
  | step bytes line left hc ih =>
    rcases hp : p.push line with ⟨answer, q⟩
    by_cases ha : answer = .ok none
    · subst ha
      exact step p bytes line left q hc hp (ih q)
    · exact stop p bytes line left answer q hc hp ha

/-! ## What a line does -/

/-- The head in the making with header lines more: their bytes, their number, and the headers with
theirs. -/
def advance (p : Progress) (size lines : Nat) (headers : Headers) : Progress :=
  { p with
    received := p.received + size
    block := { p.block with
      headers, lines := p.block.lines + lines, consumed := p.block.consumed + size } }

theorem advance_advance (p : Progress) (size lines size' lines' : Nat)
    (headers headers' : Headers) :
    (p.advance size lines headers).advance size' lines' headers' =
      p.advance (size + size') (lines + lines') headers' := by
  simp only [advance, Nat.add_assoc]

/-- The first line is taken as it is, if it fits. -/
theorem push_first {p : Progress} (hs : p.statusLine = none) (line : Line) :
    p.push (.ok line) =
      if p.maxBytes.toNat < p.received + line.size then
        (.error (.headTooLarge (p.received + line.size) p.maxBytes.toNat),
          { p with received := p.received + line.size })
      else
        (.ok none,
          { p with received := p.received + line.size, statusLine := some line.text }) := by
  simp only [push, hs]

/-- Behind the first line, a blank line completes the head, and any other has to be a header line.
-/
theorem push_started {p : Progress} {status : String} (hs : p.statusLine = some status)
    (line : Line) :
    p.push (.ok line) =
      if p.maxBytes.toNat < p.received + line.size then
        (.error (.headTooLarge (p.received + line.size) p.maxBytes.toNat),
          { p with received := p.received + line.size })
      else if line.text = "" then
        ((Head.make status p.block.headers (p.received + line.size)).map some, p.reset)
      else if p.block.maxHeaders < p.block.lines + 1 then
        (.error (.tooManyHeaders p.block.maxHeaders), p.advance line.size 1 p.block.headers)
      else
        match HeaderBlock.Progress.addLine p.block.headers line.text with
        | .ok headers => (.ok none, p.advance line.size 1 headers)
        | .error error => (.error error, p.advance line.size 1 p.block.headers) := by
  obtain ⟨maxBytes, statusLine, block, received⟩ := p
  obtain rfl : statusLine = some status := hs
  have hb : line.isBlank = decide (line.text = "") := by
    rw [Bool.eq_iff_iff, decide_eq_true_eq, Line.isBlank, String.isEmpty_iff]
  simp only [push, HeaderBlock.Progress.push, hb, decide_eq_true_eq]
  split_ifs
  · rfl
  · rfl
  · rfl
  · cases HeaderBlock.Progress.addLine block.headers line.text <;> rfl

/-- Behind the first line, a line that leaves the head unfinished is a header line that fits. -/
theorem push_eq_none_iff {p q : Progress} {status : String} (hs : p.statusLine = some status)
    {line : Except Line.Fault Line} :
    p.push line = (.ok none, q) ↔
      ∃ taken headers, line = .ok taken ∧ p.received + taken.size ≤ p.maxBytes.toNat ∧
        taken.text ≠ "" ∧ p.block.lines < p.block.maxHeaders ∧
        HeaderBlock.Progress.addLine p.block.headers taken.text = .ok headers ∧
        q = p.advance taken.size 1 headers := by
  constructor
  · intro h
    cases line with
    | error fault => cases h
    | ok line =>
      rw [push_started hs] at h
      split_ifs at h with hm hb hl
      · cases h
      · cases hf : Head.make status p.block.headers (p.received + line.size) with
        | error error => rw [hf] at h; cases h
        | ok head => rw [hf] at h; cases h
      · cases h
      · split at h
        · rename_i headers ha
          cases h
          exact ⟨line, headers, rfl, by omega, hb, by omega, ha, rfl⟩
        · cases h
  · rintro ⟨taken, headers, rfl, hm, hb, hl, ha, rfl⟩
    rw [push_started hs, if_neg (by omega), if_neg hb, if_neg (by omega), ha]

/-- Behind the first line, a line that completes the head is a blank one that fits. -/
theorem push_eq_some_iff {p q : Progress} {status : String} (hs : p.statusLine = some status)
    {line : Except Line.Fault Line} {head : Head} :
    p.push line = (.ok (some head), q) ↔
      ∃ taken, line = .ok taken ∧ p.received + taken.size ≤ p.maxBytes.toNat ∧ taken.text = "" ∧
        Head.make status p.block.headers (p.received + taken.size) = .ok head ∧ q = p.reset := by
  constructor
  · intro h
    cases line with
    | error fault => cases h
    | ok line =>
      rw [push_started hs] at h
      split_ifs at h with hm hb hl
      · cases h
      · cases hf : Head.make status p.block.headers (p.received + line.size) with
        | error error => rw [hf] at h; cases h
        | ok made =>
          rw [hf] at h
          cases h
          exact ⟨line, rfl, by omega, hb, hf, rfl⟩
      · cases h
      · split at h <;> cases h
  · rintro ⟨taken, rfl, hm, hb, hf, rfl⟩
    rw [push_started hs, if_neg (by omega), if_pos hb, hf]
    rfl

/-- A line that leaves the head unfinished counts, and the limits stay. -/
theorem received_of_push {p q : Progress} {line : Line} (h : p.push (.ok line) = (.ok none, q)) :
    q.received = p.received + line.size ∧ q.received ≤ q.maxBytes.toNat ∧
      q.maxBytes = p.maxBytes ∧ q.block.maxHeaders = p.block.maxHeaders := by
  cases hs : p.statusLine with
  | none =>
    rw [push_first hs] at h
    split_ifs at h with hm
    · cases h
    · cases h
      exact ⟨rfl, Nat.le_of_not_lt hm, rfl, rfl⟩
  | some status =>
    obtain ⟨taken, headers, ht, hm, -, -, -, rfl⟩ := (push_eq_none_iff hs).1 h
    cases ht
    exact ⟨rfl, hm, rfl, rfl⟩

/-- What a line is refused for lies in its bytes. -/
theorem isFault_of_push {p q : Progress} {line : Except Line.Fault Line} {error : ReceiveError}
    (h : p.push line = (.error error, q)) : error.IsFault := by
  cases line with
  | error fault =>
    cases h
    trivial
  | ok line =>
    cases hs : p.statusLine with
    | none =>
      rw [push_first hs] at h
      split_ifs at h <;> cases h
      trivial
    | some status =>
      rw [push_started hs] at h
      split_ifs at h
      · cases h
        trivial
      · unfold Head.make at h
        split at h <;> cases h
        trivial
      · cases h
        trivial
      · split at h
        · cases h
        · rename_i ha
          cases h
          rw [Headers.eq_malformed_of_addLine ha]
          trivial

/-! ## Runs of lines -/

/-- What bytes are refused for lies in them. -/
theorem isFault_of_decodeLines {p q : Progress} {bytes left : Bytes} {error : ReceiveError}
    (h : p.decodeLines bytes = (.error error, q, left)) : error.IsFault := by
  induction p, bytes using linesInduction with
  | rest p bytes hc =>
    rw [decodeLines_rest p hc] at h
    split_ifs at h <;> cases h
    trivial
  | stop p bytes line rest answer q hc hp ha =>
    rw [decodeLines_stop hc hp ha] at h
    cases h
    exact isFault_of_push hp
  | step p bytes line rest q hc hp ih =>
    rw [decodeLines_push hc hp] at h
    exact ih h

/-- Of an unfinished head all bytes are counted or left, and those left are no whole line. -/
theorem received_of_decodeLines {p q : Progress} {bytes left : Bytes}
    (h : p.decodeLines bytes = (.ok none, q, left)) :
    q.received + left.length = p.received + bytes.length ∧ Bytes.lineFeed ∉ left ∧
      q.received + left.length ≤ q.maxBytes.toNat ∧ q.maxBytes = p.maxBytes := by
  induction p, bytes using linesInduction with
  | rest p bytes hc =>
    rw [decodeLines_rest p hc] at h
    split_ifs at h <;> cases h
    exact ⟨rfl, Line.cut?_eq_none_iff.1 hc, by omega, rfl⟩
  | stop p bytes line rest answer q hc hp ha =>
    rw [decodeLines_stop hc hp ha] at h
    cases h
    exact absurd rfl ha
  | step p bytes line rest q' hc hp ih =>
    rw [decodeLines_push hc hp] at h
    obtain ⟨hr, hf, hm, hb⟩ := ih h
    cases line with
    | error fault => cases hp
    | ok line =>
      obtain ⟨hq, -, hqb, -⟩ := received_of_push hp
      have hsum := Line.size_add_length_of_cut? hc
      exact ⟨by omega, hf, hm, hb.trans hqb⟩

/-- Where a head was left unfinished, decoding goes on with the bytes that were left. -/
theorem decodeLines_append {p q : Progress} {bytes left : Bytes}
    (h : p.decodeLines bytes = (.ok none, q, left)) (more : Bytes) :
    p.decodeLines (bytes ++ more) = q.decodeLines (left ++ more) := by
  induction p, bytes using linesInduction with
  | rest p bytes hc =>
    rw [decodeLines_rest p hc] at h
    split_ifs at h <;> cases h
    rfl
  | stop p bytes line rest answer q hc hp ha =>
    rw [decodeLines_stop hc hp ha] at h
    cases h
    exact absurd rfl ha
  | step p bytes line rest q' hc hp ih =>
    rw [decodeLines_push hc hp] at h
    rw [decodeLines_push (Line.cut?_append hc more) hp, ih h]

/-! ## Giving up -/

theorem decode_eq_ok_iff {p q : Progress} {bytes left : Bytes} {answer : Option Head} :
    p.decode bytes = (.ok answer, q, left) ↔ p.decodeLines bytes = (.ok answer, q, left) := by
  unfold decode
  rcases p.decodeLines bytes with ⟨error | answer', q', left'⟩ <;> simp

theorem decode_eq_error_iff {p q : Progress} {bytes left : Bytes} {error : ReceiveError} :
    p.decode bytes = (.error error, q, left) ↔
      ∃ q', p.decodeLines bytes = (.error error, q', left) ∧ q = q'.reset := by
  unfold decode
  rcases p.decodeLines bytes with ⟨error' | answer, q', left'⟩
  · simp only [Prod.mk.injEq, Except.error.injEq]
    constructor
    · rintro ⟨rfl, rfl, rfl⟩
      exact ⟨q', ⟨rfl, rfl, rfl⟩, rfl⟩
    · rintro ⟨_, ⟨rfl, rfl, rfl⟩, rfl⟩
      exact ⟨rfl, rfl, rfl⟩
  · simp

/-! ## The line at fault -/

/-- The bytes of the line that bytes are refused for, as far as they have it, and those of the lines
before it, which are taken. -/
structure IsAtFault (p : Progress) (bytes before line : Bytes) : Prop where
  isLine : Bytes.lineFeed ∉ line.dropLast ∧
    ((∃ rest, bytes = before ++ line ++ rest ∧ line.getLast? = some Bytes.lineFeed) ∨
      bytes = before ++ line)
  taken : ∃ q, p.decode before = (.ok none, q, [])
  refused : ∃ error q left, p.decode (before ++ line) = (.error error, q, left)

/-- Bytes are refused for a line that runs beyond the limit. -/
def Overruns (p : Progress) (bytes : Bytes) : Prop :=
  ∃ before line, p.IsAtFault bytes before line ∧
    p.maxBytes.toNat < p.received + (before.length + line.length)

/-- The lines of an unfinished head are taken from the front. -/
theorem exists_taken {p q : Progress} {bytes left : Bytes}
    (h : p.decodeLines bytes = (.ok none, q, left)) :
    ∃ taken, bytes = taken ++ left ∧ p.decodeLines taken = (.ok none, q, []) := by
  induction p, bytes using linesInduction with
  | rest p bytes hc =>
    rw [decodeLines_rest p hc] at h
    split_ifs at h with hm <;> cases h
    exact ⟨[], rfl, decodeLines_nil (by omega)⟩
  | stop p bytes line rest answer q hc hp ha =>
    rw [decodeLines_stop hc hp ha] at h
    cases h
    exact absurd rfl ha
  | step p bytes line rest q' hc hp ih =>
    rw [decodeLines_push hc hp] at h
    obtain ⟨taken, rfl, ht⟩ := ih h
    obtain ⟨content, rfl, hn, hl⟩ := Line.cut?_eq_some_iff.1 hc
    refine ⟨content ++ Bytes.lineFeed :: taken, by simp, ?_⟩
    rw [decodeLines_push (Line.cut?_eq_some_iff.2 ⟨content, rfl, hn, hl⟩) hp, ht]

/-- A line at fault is so behind lines that are taken, too. -/
theorem IsAtFault.append {p q : Progress} {taken bytes before line : Bytes}
    (ht : p.decodeLines taken = (.ok none, q, [])) (h : q.IsAtFault bytes before line) :
    p.IsAtFault (taken ++ bytes) (taken ++ before) line := by
  have hd : ∀ rest, p.decode (taken ++ rest) = q.decode rest := fun rest => by
    unfold decode
    rw [decodeLines_append ht rest, List.nil_append]
  obtain ⟨⟨hf, hl⟩, htaken, hrefused⟩ := h
  refine ⟨⟨hf, ?_⟩, ?_, ?_⟩
  · simp only [List.append_assoc, List.append_cancel_left_eq] at hl ⊢
    exact hl
  · rwa [hd]
  · rwa [List.append_assoc, hd]

theorem Overruns.append {p q : Progress} {bytes left more : Bytes}
    (h : p.decodeLines bytes = (.ok none, q, left)) (ho : q.Overruns (left ++ more)) :
    p.Overruns (bytes ++ more) := by
  obtain ⟨taken, rfl, ht⟩ := exists_taken h
  obtain ⟨hr, -, -, hb⟩ := received_of_decodeLines ht
  rw [List.length_nil, Nat.add_zero] at hr
  obtain ⟨before, line, hfault, hm⟩ := ho
  rw [List.append_assoc]
  refine ⟨taken ++ before, line, hfault.append ht, ?_⟩
  rw [hb] at hm
  rw [List.length_append]
  omega

/-- A line that does not fit is refused, and for its size if for nothing else. -/
theorem exists_push_long {p : Progress} {content : Bytes} (hf : Bytes.lineFeed ∉ content)
    (hm : p.maxBytes.toNat < p.received + (content.length + 1)) :
    ∃ error q, p.push (Line.ofContent content) = (.error error, q) ∧
      ∀ size limit, error = .headTooLarge size limit →
        size = p.received + (content.length + 1) := by
  cases hl : Line.ofContent content with
  | error fault => exact ⟨.invalidLine fault, p, rfl, nofun⟩
  | ok line =>
    obtain ⟨-, hs⟩ := (Line.ofContent_eq_ok_iff hf).1 hl
    rw [← hs] at hm
    refine ⟨.headTooLarge (p.received + line.size) p.maxBytes.toNat,
      { p with received := p.received + line.size }, ?_, ?_⟩
    · simp only [push, if_pos hm]
    · rintro size limit h
      cases h
      rw [hs]

/-- The beginning of a line that is too long already is refused whatever follows it, for no other
line and no smaller size. -/
theorem isAtFault_of_long {p : Progress} {pending : Bytes} (hr : p.received ≤ p.maxBytes.toNat)
    (hf : Bytes.lineFeed ∉ pending) (hm : p.maxBytes.toNat < p.received + pending.length)
    (more : Bytes) :
    ∃ line error q left, pending.length ≤ line.length ∧
      (more ≠ [] → pending.length < line.length) ∧ p.IsAtFault (pending ++ more) [] line ∧
      p.decodeLines (pending ++ more) = (.error error, q, left) ∧
      ∀ size limit, error = .headTooLarge size limit → size = p.received + line.length := by
  have hnil : ∃ q, p.decode [] = (.ok none, q, []) := ⟨p, decode_eq_ok_iff.2 (decodeLines_nil hr)⟩
  cases hc : Line.cut? (pending ++ more) with
  | none =>
    have hn := Line.cut?_eq_none_iff.1 hc
    have hd := decodeLines_rest p hc
    rw [if_pos (by rw [List.length_append]; omega)] at hd
    refine ⟨pending ++ more, _, _, _, ?_, fun hne => ?_, ⟨⟨?_, .inr rfl⟩, hnil, ?_⟩, hd, ?_⟩
    · rw [List.length_append]
      omega
    · have := List.length_pos_iff.2 hne
      rw [List.length_append]
      omega
    · exact fun h => hn ((List.dropLast_sublist _).subset h)
    · exact ⟨_, _, _, decode_eq_error_iff.2 ⟨_, hd, rfl⟩⟩
    · rintro size limit h
      cases h
      rfl
  | some cut =>
    obtain ⟨line, rest⟩ := cut
    obtain ⟨content, he, hn, rfl⟩ := Line.cut?_eq_some_iff.1 hc
    have hp : pending <+: content := by
      rcases List.append_eq_append_iff.1 he with ⟨a, ha, -⟩ | ⟨c, hpc, hcm⟩
      · exact ⟨a, ha.symm⟩
      · cases c with
        | nil => exact ⟨[], by rw [hpc, List.append_nil, List.append_nil]⟩
        | cons b c =>
          obtain ⟨rfl, -⟩ := List.cons.inj hcm
          exact absurd (by rw [hpc]; simp) hf
    have hle := hp.length_le
    obtain ⟨error, q, hpush, hsize⟩ := exists_push_long (p := p) hn (by omega)
    have hwhole : Line.cut? (content ++ [Bytes.lineFeed]) = some (Line.ofContent content, []) :=
      Line.cut?_eq_some_iff.2 ⟨content, rfl, hn, rfl⟩
    have hlength : (content ++ [Bytes.lineFeed]).length = content.length + 1 := by simp
    refine ⟨content ++ [Bytes.lineFeed], error, q, rest, by omega, fun _ => by omega,
      ⟨⟨?_, .inl ⟨rest, ?_, ?_⟩⟩, hnil, ?_⟩, decodeLines_stop hc hpush nofun, ?_⟩
    · rwa [List.dropLast_concat]
    · rw [he]
      simp
    · simp
    · exact ⟨error, q.reset, [],
        decode_eq_error_iff.2 ⟨q, decodeLines_stop hwhole hpush nofun, rfl⟩⟩
    · rwa [hlength]

/-- Bytes whose line feed comes too late are refused for their first line. -/
theorem overruns_of_notMem {p : Progress} {bytes : Bytes} (hr : p.received ≤ p.maxBytes.toNat)
    (hf : Bytes.lineFeed ∉ bytes.take (p.maxBytes.toNat - p.received + 1))
    (hm : p.maxBytes.toNat < p.received + bytes.length) :
    p.Overruns bytes ∧ ∃ error q left, p.decodeLines bytes = (.error error, q, left) := by
  have hlength : (bytes.take (p.maxBytes.toNat - p.received + 1)).length =
      p.maxBytes.toNat - p.received + 1 := by
    rw [List.length_take]
    omega
  have hlong : p.maxBytes.toNat <
      p.received + (bytes.take (p.maxBytes.toNat - p.received + 1)).length := by omega
  obtain ⟨line, error, q, left, hle, -, hfault, hd, -⟩ := isAtFault_of_long hr hf hlong
    (bytes.drop (p.maxBytes.toNat - p.received + 1))
  rw [List.take_append_drop] at hfault hd
  refine ⟨⟨[], line, hfault, ?_⟩, error, q, left, hd⟩
  rw [List.length_nil]
  omega

end Head.Progress

end Courier
