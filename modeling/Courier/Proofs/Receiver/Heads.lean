import Courier.Proofs.Head.Grammar
import Courier.Proofs.Outcome
import Courier.Proofs.Stream.Inlet
import Courier.Receiver

/-!
# Reading heads

A receiver takes its bytes line by line from an inlet, and comes to what decoding all of them at
once comes to (`Receiver.Reads`, `reads_of_readLines`). There is one difference: of a line that runs
beyond the limit it takes no more than shows that, so it may not find what else is wrong with it.
-/

namespace Courier

/-- The deadline passed, or the stream never went on. -/
def Outcome.IsLate {α : Type} : Outcome ReceiveError α → Prop
  | .ok _ => False
  | .error e => e.toClass = .timeout
  | .expired | .stalled => True

namespace Receiver

/-- What a receiver makes of the line that it takes. -/
theorem readLines_of_readLine {r : Receiver} {clock clock' : Clock} {line : Bytes} {inlet : Inlet}
    (h : r.inlet.readLine clock r.deadline r.lineLimit.toNat = (.ok line, clock', inlet)) :
    r.readLines clock =
      if line.isEmpty then
        match r.progress.decodeLast r.held with
        | (answer, progress, held) => (.ofExcept answer, clock', { r with inlet, progress, held })
      else
        match r.progress.decode (r.held ++ line) with
        | (.ok none, progress, held) => readLines { r with inlet, progress, held } clock'
        | (answer, progress, held) =>
          (.ofExcept answer, clock', { r with inlet, progress, held }) := by
  rw [readLines]
  split
  all_goals
    rename_i hl
    rw [h] at hl
    cases hl
  rfl

/-- What reading a head comes to, and the receiver it leaves, where `p` is the head in the making
and `bytes` are all that is left of the stream. -/
inductive Reads (ending : Ending) (p : Head.Progress) (bytes : Bytes) :
    Outcome ReceiveError (Option Head) → Receiver → Prop
  | head {head : Head} {r : Receiver}
      (hd : p.decodeLines bytes = (.ok (some head), r.progress, r.inlet.bytes))
      (hh : r.held = []) : Reads ending p bytes (.ok (some head)) r
  | nothing {r : Receiver} (hp : p.received = 0) (hb : bytes = []) :
      Reads ending p bytes (.ok none) r
  | incomplete {q : Head.Progress} {left : Bytes} {r : Receiver}
      (hd : p.decodeLines bytes = (.ok none, q, left)) (hb : p.received + bytes.length ≠ 0) :
      Reads ending p bytes (.error (.incompleteHead (p.received + bytes.length))) r
  | refused {error : ReceiveError} {q : Head.Progress} {left : Bytes} {r : Receiver}
      (hd : p.decodeLines bytes = (.error error, q, left)) : Reads ending p bytes (.error error) r
  | overrun {error : ReceiveError} {q : Head.Progress} {left : Bytes} {r : Receiver}
      (hd : p.decodeLines bytes = (.error error, q, left)) (ho : p.Overruns bytes) :
      Reads ending p bytes
        (.error (.headTooLarge (p.maxBytes.toNat + 1) p.maxBytes.toNat)) r
  | failed {reason : String} {r : Receiver} (he : ending = .failure reason) :
      Reads ending p bytes (.error (.io reason)) r
  | expired {r : Receiver} : Reads ending p bytes .expired r
  | stalled {r : Receiver} : Reads ending p bytes .stalled r

/-- Taking lines does not change what reading comes to. -/
theorem Reads.append {ending : Ending} {p q : Head.Progress} {bytes left more : Bytes}
    {outcome : Outcome ReceiveError (Option Head)} {r : Receiver}
    (h : p.decodeLines bytes = (.ok none, q, left)) (hr : Reads ending q (left ++ more) outcome r) :
    Reads ending p (bytes ++ more) outcome r := by
  have hd := Head.Progress.decodeLines_append h more
  obtain ⟨hl, -, -, hb⟩ := Head.Progress.received_of_decodeLines h
  cases hr with
  | head hq hh => exact .head (hd.trans hq) hh
  | nothing hq hn =>
    obtain ⟨rfl, rfl⟩ := List.append_eq_nil_iff.1 hn
    simp only [List.length_nil] at hl
    obtain rfl := List.length_eq_zero_iff.1 (show bytes.length = 0 by omega)
    exact .nothing (by omega) rfl
  | incomplete hq hn =>
    have hs : q.received + (left ++ more).length = p.received + (bytes ++ more).length := by
      simp only [List.length_append]
      omega
    rw [hs] at hn ⊢
    exact .incomplete (hd.trans hq) hn
  | refused hq => exact .refused (hd.trans hq)
  | overrun hq ho =>
    rw [hb]
    exact .overrun (hd.trans hq) (.append h ho)
  | failed he => exact .failed he
  | expired => exact .expired
  | stalled => exact .stalled

/-- The head in the making fits, its limit leaves room for one byte more, and bytes that no line has
taken are the last ones. -/
structure Sound (r : Receiver) : Prop where
  bound : r.progress.maxBytes.toNat < Numeral.maxUnsigned
  fits : r.progress.received + r.held.length ≤ r.progress.maxBytes.toNat
  last : r.held = [] ∨ r.inlet.bytes = [] ∧ Bytes.lineFeed ∉ r.held

theorem Sound.toNat_lineLimit {r : Receiver} (hs : r.Sound) :
    r.lineLimit.toNat = r.progress.maxBytes.toNat - r.progress.received + 1 := by
  have := hs.bound
  simp only [Numeral.maxUnsigned] at this
  simp only [lineLimit, Head.Progress.remaining, UInt64.toNat_add, UInt64.toNat_ofNat',
    UInt64.toNat_one]
  omega

/-- A line that the receiver reads is whole, or too long, or the last. -/
theorem Sound.line_cases {r : Receiver} {clock clock' : Clock} {line : Bytes} {inlet : Inlet}
    (hs : r.Sound)
    (h : r.inlet.readLine clock r.deadline r.lineLimit.toNat = (.ok line, clock', inlet)) :
    line ++ inlet.bytes = r.inlet.bytes ∧
      ((∃ content, line = content ++ [Bytes.lineFeed] ∧ Bytes.lineFeed ∉ content) ∨
        (line.length = r.progress.maxBytes.toNat - r.progress.received + 1 ∧
          Bytes.lineFeed ∉ line) ∨
        line.length ≤ r.progress.maxBytes.toNat - r.progress.received ∧
          inlet.bytes = [] ∧ Bytes.lineFeed ∉ line) := by
  have hb := (Inlet.gives_gather h).bytes
  have ht := Inlet.takeLine_of_readLine h
  rw [hs.toNat_lineLimit] at ht
  refine ⟨hb, ?_⟩
  obtain ⟨content, rest, -, hn, hw⟩ | ⟨hw, hn⟩ :=
    Inlet.takeLine_cases (r.progress.maxBytes.toNat - r.progress.received + 1) r.inlet.bytes
  · exact .inl ⟨content, ht.trans hw, hn⟩
  · rw [← ht] at hw
    rw [← hw] at hn
    by_cases hl : line.length = r.progress.maxBytes.toNat - r.progress.received + 1
    · exact .inr (.inl ⟨hl, hn⟩)
    · have hlength := congrArg List.length hw
      have hsum := congrArg List.length hb
      rw [List.length_take] at hlength
      rw [List.length_append] at hsum
      exact .inr (.inr ⟨by omega, List.length_eq_zero_iff.1 (by omega), hn⟩)

theorem Sound.held_eq_nil {r : Receiver} {line rest : Bytes} (hs : r.Sound)
    (hb : line ++ rest = r.inlet.bytes) (hn : line ≠ []) : r.held = [] := by
  rcases hs.last with h | ⟨h, -⟩
  · exact h
  · rw [h] at hb
    exact absurd (List.append_eq_nil_iff.1 hb).1 hn

/-- A line that leaves the head unfinished leaves the receiver sound. -/
theorem Sound.decode {r : Receiver} {clock clock' : Clock} {line held : Bytes} {inlet : Inlet}
    {q : Head.Progress} (hs : r.Sound)
    (h : r.inlet.readLine clock r.deadline r.lineLimit.toNat = (.ok line, clock', inlet))
    (hn : line ≠ []) (hd : r.progress.decodeLines (r.held ++ line) = (.ok none, q, held)) :
    Sound { r with inlet, progress := q, held } := by
  obtain ⟨hl, hf, hm, hb⟩ := Head.Progress.received_of_decodeLines hd
  obtain ⟨hbytes, hc⟩ := hs.line_cases h
  rw [hs.held_eq_nil hbytes hn, List.nil_append] at hd hl
  refine ⟨hb ▸ hs.bound, hm, ?_⟩
  rcases hc with ⟨content, rfl, hn⟩ | ⟨hlong, -⟩ | ⟨-, hrest, -⟩
  · left
    obtain ⟨taken, ht, -⟩ := Head.Progress.exists_taken hd
    rcases List.eq_nil_or_concat held with rfl | ⟨front, last, rfl⟩
    · rfl
    · rw [List.concat_eq_append, ← List.append_assoc] at ht
      obtain ⟨-, rfl⟩ := List.append_singleton_inj.1 ht
      exact absurd (by simp) hf
  · have := hs.fits
    rw [hb, hl] at hm
    omega
  · exact .inr ⟨hrest, hf⟩

/-- A whole line that ends the reading ends the decoding of all bytes. -/
theorem reads_of_whole {ending : Ending} {p q : Head.Progress} {content rest held : Bytes}
    {answer : Except ReceiveError (Option Head)} {r : Receiver} (hf : Bytes.lineFeed ∉ content)
    (hd : p.decode (content ++ [Bytes.lineFeed]) = (answer, q, held)) (ha : answer ≠ .ok none)
    (hr : r.progress = q ∧ r.held = held ∧ r.inlet.bytes = rest) :
    Reads ending p (content ++ [Bytes.lineFeed] ++ rest) (.ofExcept answer) r := by
  obtain ⟨rfl, rfl, rfl⟩ := hr
  have hcut : Line.cut? (content ++ [Bytes.lineFeed]) = some (Line.ofContent content, []) :=
    Line.cut?_eq_some_iff.2 ⟨content, rfl, hf, rfl⟩
  have hcut' := Line.cut?_append hcut r.inlet.bytes
  rw [List.nil_append] at hcut'
  rcases hp : p.push (Line.ofContent content) with ⟨error | _ | head, p'⟩
  · obtain ⟨rfl, -, -⟩ : _ ∧ _ ∧ _ := by
      simpa [Head.Progress.decode, Head.Progress.decodeLines_stop hcut hp nofun] using hd
    exact .refused (Head.Progress.decodeLines_stop hcut' hp nofun)
  · cases hline : Line.ofContent content with
    | error fault =>
      rw [hline] at hp
      cases hp
    | ok taken =>
      rw [hline] at hp hcut
      obtain ⟨-, hm, -⟩ := Head.Progress.received_of_push hp
      have hstop : p.decodeLines (content ++ [Bytes.lineFeed]) = (.ok none, p', []) := by
        rw [Head.Progress.decodeLines_push hcut hp, Head.Progress.decodeLines_nil hm]
      rw [Head.Progress.decode_eq_ok_iff.2 hstop] at hd
      obtain ⟨rfl, -⟩ := Prod.mk.inj hd
      exact absurd rfl ha
  · have hstop := Head.Progress.decodeLines_stop hcut hp (by simp)
    rw [Head.Progress.decode_eq_ok_iff.2 hstop] at hd
    obtain ⟨rfl, hq⟩ := Prod.mk.inj hd
    obtain ⟨rfl, hh⟩ := Prod.mk.inj hq
    exact .head (Head.Progress.decodeLines_stop hcut' hp (by simp)) hh.symm

/-- A line that is longer than what still fits overruns the limit. -/
theorem reads_of_long {ending : Ending} {p q : Head.Progress} {line rest held : Bytes}
    {answer : Except ReceiveError (Option Head)} {r : Receiver}
    (hfits : p.received ≤ p.maxBytes.toNat)
    (hlong : line.length = p.maxBytes.toNat - p.received + 1) (hf : Bytes.lineFeed ∉ line)
    (hd : p.decode line = (answer, q, held)) :
    Reads ending p (line ++ rest) (.ofExcept answer) r := by
  have hstop := Head.Progress.decodeLines_rest p (Line.cut?_eq_none_iff.2 hf)
  rw [if_pos (by omega)] at hstop
  obtain ⟨rfl, -, -⟩ : _ ∧ _ ∧ _ := by simpa [Head.Progress.decode, hstop] using hd
  have hcount : p.received + line.length = p.maxBytes.toNat + 1 := by omega
  have htake : Bytes.lineFeed ∉ (line ++ rest).take (p.maxBytes.toNat - p.received + 1) := by
    rw [← hlong, List.take_left]
    exact hf
  have hlength : p.maxBytes.toNat < p.received + (line ++ rest).length := by
    rw [List.length_append]
    omega
  obtain ⟨ho, error, q, left, he⟩ := Head.Progress.overruns_of_notMem hfits htake hlength
  rw [hcount]
  exact .overrun he ho

/-- A line that ends the reading ends the decoding of all bytes. -/
theorem reads_of_decode {r : Receiver} {clock clock' : Clock} {line held : Bytes} {inlet : Inlet}
    {q : Head.Progress} {answer : Except ReceiveError (Option Head)} {ending : Ending}
    (hs : r.Sound)
    (h : r.inlet.readLine clock r.deadline r.lineLimit.toNat = (.ok line, clock', inlet))
    (hn : line ≠ []) (hd : r.progress.decode (r.held ++ line) = (answer, q, held))
    (ha : answer ≠ .ok none) :
    Reads ending r.progress (r.held ++ r.inlet.bytes) (.ofExcept answer)
      { r with inlet, progress := q, held } := by
  obtain ⟨hbytes, hc⟩ := hs.line_cases h
  have hfits := hs.fits
  have hheld := hs.held_eq_nil hbytes hn
  rw [hheld, List.nil_append] at hd ⊢
  rw [hheld, List.length_nil, Nat.add_zero] at hfits
  rw [← hbytes]
  rcases hc with ⟨content, rfl, hf⟩ | ⟨hlong, hf⟩ | ⟨hshort, hrest, hf⟩
  · exact reads_of_whole hf hd ha ⟨rfl, rfl, rfl⟩
  · exact reads_of_long hfits hlong hf hd
  · have hstop := Head.Progress.decodeLines_rest r.progress (Line.cut?_eq_none_iff.2 hf)
    rw [if_neg (by omega)] at hstop
    rw [Head.Progress.decode_eq_ok_iff.2 hstop] at hd
    cases hd
    exact absurd rfl ha

/-- What is left when the stream has ended. -/
theorem reads_of_decodeLast {r : Receiver} {inlet : Inlet} {held : Bytes} {q : Head.Progress}
    {answer : Except ReceiveError (Option Head)} {ending : Ending} (hs : r.Sound)
    (hn : r.inlet.bytes = []) (hd : r.progress.decodeLast r.held = (answer, q, held)) :
    Reads ending r.progress (r.held ++ r.inlet.bytes) (.ofExcept answer)
      { r with inlet, progress := q, held } := by
  have hf : Bytes.lineFeed ∉ r.held := by
    rcases hs.last with h | ⟨-, h⟩
    · simp [h]
    · exact h
  have hstop := Head.Progress.decodeLines_rest r.progress (Line.cut?_eq_none_iff.2 hf)
  rw [if_neg (Nat.not_lt.2 hs.fits)] at hstop
  unfold Head.Progress.decodeLast at hd
  rw [Head.Progress.decode_eq_ok_iff.2 hstop] at hd
  dsimp only at hd
  rw [hn, List.append_nil]
  split_ifs at hd with hz
  · cases hd
    exact .nothing (by omega) (List.length_eq_zero_iff.1 (by omega))
  · cases hd
    exact .incomplete hstop hz

/-- Reading lines comes to what decoding all the bytes at once comes to. -/
theorem reads_of_readLines {r r' : Receiver} {clock clock' : Clock}
    {outcome : Outcome ReceiveError (Option Head)} (hs : r.Sound)
    (h : r.readLines clock = (outcome, clock', r')) :
    Reads r.inlet.source.ending r.progress (r.held ++ r.inlet.bytes) outcome r' := by
  fun_induction readLines r clock generalizing outcome clock' r' with
  | case1 r clock reason clock₁ inlet hl =>
    cases h
    exact .failed (Inlet.ending_of_gather hl)
  | case2 r clock clock₁ inlet hl =>
    cases h
    exact .expired
  | case3 r clock clock₁ inlet hl =>
    cases h
    exact .stalled
  | case4 r clock line clock₁ inlet hl he answer q held hd =>
    cases h
    refine reads_of_decodeLast hs ?_ hd
    obtain rfl := List.isEmpty_iff.1 he
    obtain ⟨hb, ⟨content, hc, -⟩ | ⟨hc, -⟩ | ⟨-, hn, -⟩⟩ := hs.line_cases hl
    · simp at hc
    · simp at hc
    · rw [← hb, hn]
      rfl
  | case5 r clock line clock₁ inlet hl he q held hd ih =>
    have hn : line ≠ [] := by simpa using he
    have hd := Head.Progress.decode_eq_ok_iff.1 hd
    have hg := Inlet.gives_gather hl
    have hr := ih (hs.decode hl hn hd) h
    rw [← hg.bytes, ← List.append_assoc, ← hg.ending]
    exact .append hd hr
  | case6 r clock line clock₁ inlet hl he answer q held ha hd =>
    cases h
    have hn : line ≠ [] := by simpa using he
    exact reads_of_decode hs hl hn hd ha

/-- What a head is read from is given by the inlet. -/
theorem gives_readLines {r r' : Receiver} {clock clock' : Clock} {answer : Option Head}
    (h : r.readLines clock = (.ok answer, clock', r')) :
    r'.deadline = r.deadline ∧ ∃ given, r.inlet.Gives clock given r'.inlet clock' := by
  fun_induction readLines r clock generalizing answer clock' r' with
  | case4 r clock line clock₁ inlet hl he answer q held hd =>
    obtain ⟨-, rfl, rfl⟩ : _ ∧ _ ∧ _ := by simpa using h
    exact ⟨rfl, _, Inlet.gives_gather hl⟩
  | case5 r clock line clock₁ inlet hl he q held hd ih =>
    obtain ⟨hr, given, hg⟩ := ih h
    exact ⟨hr, _, (Inlet.gives_gather hl).trans hg⟩
  | case6 r clock line clock₁ inlet hl he answer q held ha hd =>
    obtain ⟨-, rfl, rfl⟩ : _ ∧ _ ∧ _ := by simpa using h
    exact ⟨rfl, _, Inlet.gives_gather hl⟩
  | _ => cases h

/-- A head that is all there in time is read in time. -/
theorem not_late_of_readLines {r r' : Receiver} {clock clock' : Clock}
    {outcome : Outcome ReceiveError (Option Head)} (hi : r.inlet.InTime clock r.deadline)
    (h : r.readLines clock = (outcome, clock', r')) :
    outcome ≠ .expired ∧ outcome ≠ .stalled := by
  fun_induction readLines r clock generalizing outcome clock' r' with
  | case1 r clock reason clock₁ inlet hl =>
    cases h
    exact ⟨nofun, nofun⟩
  | case2 r clock clock₁ inlet hl | case3 r clock clock₁ inlet hl =>
    obtain ⟨line, clock', i', he⟩ := Inlet.exists_gather .line r.lineLimit.toNat hi
    cases hl.symm.trans he
  | case4 r clock line clock₁ inlet hl he answer q held hd =>
    cases h
    cases answer <;> exact ⟨nofun, nofun⟩
  | case5 r clock line clock₁ inlet hl he q held hd ih =>
    exact ih ((Inlet.gives_gather hl).inTime hi) h
  | case6 r clock line clock₁ inlet hl he answer q held ha hd =>
    cases h
    cases answer <;> exact ⟨nofun, nofun⟩

/-! ## Heads -/

theorem sound_start (source : Source) {limits : Limits} (now : Time)
    (hm : limits.maxHeadBytes.toNat < Numeral.maxUnsigned) : (start source limits now).Sound :=
  ⟨hm, Nat.zero_le _, .inl rfl⟩

/-- A head is read as its lines are, and the passing of the deadline is an error. -/
theorem exists_readLines_of_readHead {r r' : Receiver} {clock clock' : Clock}
    {outcome : Outcome ReceiveError (Option Head)} (h : r.readHead clock = (outcome, clock', r')) :
    ∃ read left, r.readLines clock.begin = (read, clock', left) ∧ outcome = read.within .timeout ∧
      ∀ answer, outcome = .ok answer → r' = left := by
  unfold readHead at h
  rcases hr : r.readLines clock.begin with ⟨read, clock₁, left⟩
  rw [hr] at h
  dsimp only at h
  split at h
  · rename_i hw
    cases h
    exact ⟨read, left, rfl, hw.symm, nofun⟩
  · cases h
    exact ⟨read, r', rfl, rfl, fun _ _ => rfl⟩

theorem readLines_of_readHead {r r' : Receiver} {clock clock' : Clock} {answer : Option Head}
    (h : r.readHead clock = (.ok answer, clock', r')) :
    r.readLines clock.begin = (.ok answer, clock', r') := by
  obtain ⟨read, left, hr, ho, hleft⟩ := exists_readLines_of_readHead h
  obtain rfl := hleft answer rfl
  have hread : read = .ok answer := Outcome.within_eq_ok_iff.1 ho.symm
  rw [hr, hread]

theorem Reads.toClass_ne_timeout {ending : Ending} {p : Head.Progress} {bytes : Bytes}
    {error : ReceiveError} {r : Receiver} (h : Reads ending p bytes (.error error) r) :
    error.toClass ≠ .timeout := by
  cases h with
  | refused hd =>
    rw [(Head.Progress.isFault_of_decodeLines hd).toClass]
    nofun
  | _ => nofun

/-- A head that is all there in time is not read too late. -/
theorem not_late_of_readHead {r r' : Receiver} {clock clock' : Clock}
    {outcome : Outcome ReceiveError (Option Head)} (hs : r.Sound)
    (hi : r.inlet.InTime clock r.deadline) (h : r.readHead clock = (outcome, clock', r')) :
    ¬outcome.IsLate := by
  obtain ⟨read, left, hr, rfl, -⟩ := exists_readLines_of_readHead h
  obtain ⟨he, hl⟩ := not_late_of_readLines hi.begin hr
  cases read with
  | ok answer => exact id
  | error error => exact (reads_of_readLines hs hr).toClass_ne_timeout
  | expired => exact absurd rfl he
  | stalled => exact absurd rfl hl

/-- A receiver of a stream that finishes reads what decoding all bytes of the stream gives, however
they come in pieces, unless it is too late. Behind a head it holds nothing, so that what decoding
leaves is what is left of the stream. -/
theorem readHead_agrees_with_decode (source : Source) (limits : Limits) (now : Time) (clock : Clock)
    (hf : source.ending = .finish) (hm : limits.maxHeadBytes.toNat < Numeral.maxUnsigned)
    {outcome : Outcome ReceiveError (Option Head)} {later : Clock} {r : Receiver}
    (h : (start source limits now).readHead clock = (outcome, later, r)) :
    (clock.Allows (limits.timeout.map (now + ·)) (source.settled clock.now) → ¬outcome.IsLate) ∧
    (¬outcome.IsLate →
      (∀ head rest,
        (∃ q, (Head.Progress.start limits).decode source.bytes = (.ok (some head), q, rest)) ↔
          outcome = .ok (some head) ∧ r.held = [] ∧ r.inlet.bytes = rest) ∧
      (source.bytes = [] ↔ outcome = .ok none) ∧
      ((∃ q left, (Head.Progress.start limits).decode source.bytes = (.ok none, q, left)) ∧
          source.bytes ≠ [] ↔
        outcome = .error (.incompleteHead source.bytes.length)) ∧
      ∀ error q left, (Head.Progress.start limits).decode source.bytes = (.error error, q, left) →
        ∃ given, outcome = .error given ∧ given.toClass = .framing ∧
          (given = error ∨
            given = .headTooLarge (limits.maxHeadBytes.toNat + 1) limits.maxHeadBytes.toNat ∧
              (Head.Progress.start limits).Overruns source.bytes)) := by
  have hs := sound_start source now hm
  refine ⟨fun ha => not_late_of_readHead hs ⟨hf, ha⟩ h, fun hlate => ?_⟩
  obtain ⟨read, left, hr, rfl, hleft⟩ := exists_readLines_of_readHead h
  have hreads := reads_of_readLines hs hr
  simp only [start, Inlet.buffered, Inlet.bytes, List.nil_append, hf] at hreads
  have hnil := Head.Progress.decodeLines_nil (p := .start limits) (Nat.zero_le _)
  cases hreads with
  | head hd hh =>
    obtain rfl := hleft _ rfl
    have hb : source.bytes ≠ [] := fun hb => by
      rw [hb, hnil] at hd
      cases hd
    rw [Head.Progress.decode_eq_ok_iff.2 hd]
    simp [Outcome.within, hh, hb]
  | nothing hp hb =>
    rw [hb, Head.Progress.decode_eq_ok_iff.2 hnil]
    simp [Outcome.within]
  | incomplete hd hb =>
    have hb : source.bytes ≠ [] := fun hn => hb (by rw [hn]; rfl)
    rw [Head.Progress.decode_eq_ok_iff.2 hd]
    simp [Outcome.within, hb, Head.Progress.start]
  | @refused error q left _ hd =>
    have hb : source.bytes ≠ [] := fun hb => by
      rw [hb, hnil] at hd
      cases hd
    have hfault := Head.Progress.isFault_of_decodeLines hd
    have hne : error ≠ .incompleteHead source.bytes.length := fun he => by
      rw [he] at hfault
      exact hfault
    rw [Head.Progress.decode_eq_error_iff.2 ⟨_, hd, rfl⟩]
    simp [Outcome.within, hb, hne, hfault.toClass]
  | overrun hd ho =>
    have hb : source.bytes ≠ [] := fun hb => by
      rw [hb, hnil] at hd
      cases hd
    rw [Head.Progress.decode_eq_error_iff.2 ⟨_, hd, rfl⟩]
    simpa [Outcome.within, hb, Head.Progress.start, ReceiveError.toClass] using .inr ho
  | failed he => cases he
  | expired => exact absurd rfl hlate
  | stalled => exact absurd trivial hlate

theorem readHead_of_pieces :
    ∃ head later r,
      (start { pieces := [.chunk [71, 13], .pause 5, .chunk [10, 10, 66]] } {} 0).readHead {} =
        (.ok (some head), later, r) ∧ head.statusLine = "G" ∧ r.held = [] ∧
        r.inlet.bytes = [66] := by
  rcases hr : (start { pieces := [.chunk [71, 13], .pause 5, .chunk [10, 10, 66]] } {} 0).readHead
    {} with ⟨outcome, later, r⟩
  obtain ⟨htime, hagrees⟩ := readHead_agrees_with_decode _ {} 0 {} rfl (by decide) hr
  have hlate := htime ⟨by decide, by decide⟩
  have hw : Head.IsWritten {} [71, 13, 10, 10] ⟨"G", .empty, none, 4⟩ :=
    ⟨[], [], @Line.AreWritten.cons [71, 13, 10] _ _ _ ⟨by decide, .inr rfl⟩
      (Line.areWritten_singleton_iff.2 ⟨by decide, .inl rfl⟩),
      .nil, by decide, by decide, rfl, rfl, rfl⟩
  obtain ⟨rfl, hb⟩ := ((hagrees hlate).1 _ [66]).1 ⟨_, Head.Progress.decode_eq_ok_iff.2
    (Head.Progress.decodeLines_start_eq_some_iff.2 ⟨⟨_, rfl, hw⟩, rfl⟩)⟩
  exact ⟨_, later, r, rfl, rfl, hb⟩

end Receiver

end Courier
