import Courier.Proofs.Body
import Courier.Proofs.Receiver.Heads

/-!
# Reading whole messages

A receiver that stands before the written form of a head and the body behind it reads both, and
then stands behind them (`receive_of_isWritten`), unless it is too late; and it is not if all of the
stream is there in time (`not_late_of_receive`).
-/

namespace Courier

namespace Receiver

/-- The receiver stands before a head. -/
structure Fresh (r : Receiver) (limits : Limits) : Prop where
  progress : r.progress = .start limits
  held : r.held = []

/-- The receiver stands before a head, and its stream finishes. -/
structure Ready (r : Receiver) (limits : Limits) : Prop extends Fresh r limits where
  ending : r.inlet.source.ending = .finish

theorem ready_start {source : Source} (hf : source.ending = .finish) (limits : Limits)
    (now : Time) : (start source limits now).Ready limits :=
  ⟨⟨rfl, rfl⟩, hf⟩

theorem Fresh.sound {r : Receiver} {limits : Limits} (hr : r.Fresh limits)
    (hm : limits.maxHeadBytes.toNat < Numeral.maxUnsigned) : r.Sound := by
  refine ⟨by rwa [hr.progress], ?_, .inl hr.held⟩
  rw [hr.progress, hr.held]
  exact Nat.zero_le _

/-- Who may take as many bytes as a word can count, and one more, takes none. -/
theorem Fresh.lineLimit_eq_zero {r : Receiver} {limits : Limits} (hr : r.Fresh limits)
    (hm : limits.maxHeadBytes.toNat = Numeral.maxUnsigned) : r.lineLimit.toNat = 0 := by
  simp only [Numeral.maxUnsigned] at hm
  simp only [lineLimit, Head.Progress.remaining, hr.progress, Head.Progress.start,
    UInt64.toNat_add, UInt64.toNat_ofNat', UInt64.toNat_one]
  omega

/-- Under the largest limit that there is, every stream is taken for one that has ended. -/
theorem Fresh.readHead_of_unbounded {r : Receiver} {limits : Limits} (hr : r.Fresh limits)
    (hm : limits.maxHeadBytes.toNat = Numeral.maxUnsigned) (clock : Clock) :
    r.readHead clock = (.ok none, clock.begin, r) := by
  have hl : r.inlet.readLine clock.begin r.deadline r.lineLimit.toNat =
      (.ok [], clock.begin, r.inlet) := by
    rw [hr.lineLimit_eq_zero hm, Inlet.readLine, Inlet.gather, if_pos rfl]
  have hlast : r.progress.decodeLast r.held = (.ok none, r.progress, r.held) := by
    rw [hr.progress, hr.held, Head.Progress.decodeLast,
      Head.Progress.decode_eq_ok_iff.2 (Head.Progress.decodeLines_nil (Nat.zero_le _))]
    rfl
  rw [readHead, readLines_of_readLine hl, if_pos List.isEmpty_nil, hlast]
  rfl

/-- What a head is read from has a limit below the largest. -/
theorem Fresh.bound_of_readHead {r r' : Receiver} {limits : Limits} {clock clock' : Clock}
    {head : Head} (hr : r.Fresh limits) (h : r.readHead clock = (.ok (some head), clock', r')) :
    limits.maxHeadBytes.toNat < Numeral.maxUnsigned := by
  have hle : limits.maxHeadBytes.toNat ≤ Numeral.maxUnsigned :=
    Nat.le_of_lt_succ limits.maxHeadBytes.toNat_lt
  refine Nat.lt_of_le_of_ne hle fun hm => ?_
  rw [hr.readHead_of_unbounded hm] at h
  cases h

/-! ## Heads -/

/-- A head that stands before the receiver is read, and what is behind it is left. -/
theorem readHead_of_isWritten {r r' : Receiver} {limits : Limits} {clock clock' : Clock}
    {outcome : Outcome ReceiveError (Option Head)} {written rest : Bytes} {head : Head}
    (hr : r.Ready limits) (hm : limits.maxHeadBytes.toNat < Numeral.maxUnsigned)
    (hw : Head.IsWritten limits written head) (hb : r.inlet.bytes = written ++ rest)
    (h : r.readHead clock = (outcome, clock', r')) (hl : ¬outcome.IsLate) :
    outcome = .ok (some head) ∧ r'.inlet.bytes = rest ∧ r'.Ready limits := by
  obtain ⟨read, left, hread, rfl, hleft⟩ := exists_readLines_of_readHead h
  have hreads := reads_of_readLines (hr.sound hm) hread
  have hd : (Head.Progress.start limits).decodeLines (written ++ rest) =
      (.ok (some head), .start limits, rest) :=
    Head.Progress.decodeLines_start_eq_some_iff.2 ⟨⟨written, rfl, hw⟩, rfl⟩
  rw [hr.progress, hr.held, hr.ending, hb, List.nil_append] at hreads
  cases hreads with
  | head hd' hh =>
    obtain rfl := hleft _ rfl
    rw [hd] at hd'
    simp only [Prod.mk.injEq, Except.ok.injEq, Option.some.injEq] at hd'
    obtain ⟨rfl, hp, hrest⟩ := hd'
    obtain ⟨-, given, hg⟩ := gives_readLines hread
    exact ⟨rfl, hrest.symm, ⟨hp.symm, hh⟩, hg.ending.trans hr.ending⟩
  | nothing _ hn =>
    rw [hn, Head.Progress.decodeLines_nil (Nat.zero_le _)] at hd
    cases hd
  | incomplete hd' | refused hd' | overrun hd' =>
    rw [hd] at hd'
    cases hd'
  | failed he => cases he
  | expired => exact absurd rfl hl
  | stalled => exact absurd trivial hl

/-- Behind the last message there is none. -/
theorem readHead_of_nil {r r' : Receiver} {limits : Limits} {clock clock' : Clock}
    {outcome : Outcome ReceiveError (Option Head)} (hr : r.Ready limits)
    (hm : limits.maxHeadBytes.toNat < Numeral.maxUnsigned) (hb : r.inlet.bytes = [])
    (h : r.readHead clock = (outcome, clock', r')) (hl : ¬outcome.IsLate) : outcome = .ok none := by
  obtain ⟨read, left, hread, rfl, hleft⟩ := exists_readLines_of_readHead h
  have hreads := reads_of_readLines (hr.sound hm) hread
  have hd := Head.Progress.decodeLines_nil (p := .start limits) (Nat.zero_le _)
  rw [hr.progress, hr.held, hr.ending, hb, List.nil_append] at hreads
  cases hreads with
  | nothing => rfl
  | incomplete _ hn => exact absurd rfl hn
  | head hd' | refused hd' | overrun hd' =>
    rw [hd] at hd'
    cases hd'
  | failed he => cases he
  | expired => exact absurd rfl hl
  | stalled => exact absurd trivial hl

theorem Fresh.reads {r r' : Receiver} {limits : Limits} {clock clock' : Clock}
    {answer : Option Head} (hr : r.Fresh limits)
    (hm : limits.maxHeadBytes.toNat < Numeral.maxUnsigned)
    (h : r.readHead clock = (.ok answer, clock', r')) :
    Reads r.inlet.source.ending (.start limits) r.inlet.bytes (.ok answer) r' := by
  have hreads := reads_of_readLines (hr.sound hm) (readLines_of_readHead h)
  rwa [hr.progress, hr.held, List.nil_append] at hreads

/-- The bytes before what a head leaves are the head in writing. -/
theorem isWritten_of_readHead {r r' : Receiver} {limits : Limits} {clock clock' : Clock}
    {head : Head} (hr : r.Fresh limits) (hm : limits.maxHeadBytes.toNat < Numeral.maxUnsigned)
    (h : r.readHead clock = (.ok (some head), clock', r')) :
    ∃ written, r.inlet.bytes = written ++ r'.inlet.bytes ∧ Head.IsWritten limits written head := by
  cases hr.reads hm h with
  | head hd =>
    obtain ⟨⟨written, hb, hw⟩, -⟩ := Head.Progress.decodeLines_start_eq_some_iff.1 hd
    exact ⟨written, hb, hw⟩

/-- There is no head only where there is no byte. -/
theorem bytes_eq_nil_of_readHead {r r' : Receiver} {limits : Limits} {clock clock' : Clock}
    (hr : r.Fresh limits) (hm : limits.maxHeadBytes.toNat < Numeral.maxUnsigned)
    (h : r.readHead clock = (.ok none, clock', r')) : r.inlet.bytes = [] := by
  cases hr.reads hm h with
  | nothing _ hb => exact hb

/-- What is there in time still is when a head has been read. -/
theorem inTime_of_readHead {r r' : Receiver} {clock clock' : Clock} {answer : Option Head}
    (hi : r.inlet.InTime clock r.deadline) (h : r.readHead clock = (.ok answer, clock', r')) :
    r'.inlet.InTime clock' r'.deadline := by
  obtain ⟨hd, given, hg⟩ := gives_readLines (readLines_of_readHead h)
  exact hd ▸ hg.begin.inTime hi

/-! ## Messages -/

/-- A message is a head with the body that the head declares. -/
theorem exists_readHead_of_readMessage {r r' : Receiver} {clock clock' : Clock} {m : Message}
    (h : r.readMessage clock = (.ok (some m), clock', r')) :
    ∃ head, r.readHead clock = (.ok (some head), clock', r') ∧
      m = { head, body := { length := head.bodySize, deadline := r'.deadline } } := by
  unfold readMessage at h
  rcases hr : r.readHead clock with ⟨read, later, r₁⟩
  rw [hr] at h
  simp only [Prod.mk.injEq, Outcome.map_eq_ok_iff, Option.map_eq_some_iff] at h
  obtain ⟨⟨_, rfl, head, rfl, rfl⟩, rfl, rfl⟩ := h
  exact ⟨head, rfl, rfl⟩

theorem readHead_of_readMessage_eq_none {r r' : Receiver} {clock clock' : Clock}
    (h : r.readMessage clock = (.ok none, clock', r')) :
    r.readHead clock = (.ok none, clock', r') := by
  unfold readMessage at h
  rcases hr : r.readHead clock with ⟨read, later, r₁⟩
  rw [hr] at h
  simp only [Prod.mk.injEq, Outcome.map_eq_ok_iff, Option.map_eq_none_iff] at h
  obtain ⟨⟨_, rfl, rfl⟩, rfl, rfl⟩ := h
  rfl

/-- Reads the next message whole: its head and the bytes of its body. -/
def receive (r : Receiver) (clock : Clock) :
    Outcome ReceiveError (Option (Head × Bytes)) × Clock × Receiver :=
  match r.readMessage clock with
  | (.ok (some message), clock, r) =>
    match message.body.read clock r.inlet with
    | (outcome, _, clock, inlet) =>
      ((outcome.mapError ReceiveError.body).map fun bytes => some (message.head, bytes), clock,
        { r with inlet })
  | (.ok none, clock, r) => (.ok none, clock, r)
  | (.error error, clock, r) => (.error error, clock, r)
  | (.expired, clock, r) => (.expired, clock, r)
  | (.stalled, clock, r) => (.stalled, clock, r)

theorem receive_of_readHead {r r₁ : Receiver} {clock clock₁ : Clock}
    {read : Outcome ReceiveError (Option Head)} (h : r.readHead clock = (read, clock₁, r₁))
    (hn : ∀ head, read ≠ .ok (some head)) :
    r.receive clock = (read.map fun _ => none, clock₁, r₁) := by
  unfold receive readMessage
  rw [h]
  rcases read with (_ | head) | error | _ | _
  · rfl
  · exact absurd rfl (hn head)
  all_goals rfl

theorem receive_of_read {r r₁ : Receiver} {clock clock₁ clock₂ : Clock} {head : Head}
    {got : Outcome BodyError Bytes} {spent : Body} {inlet : Inlet}
    (h : r.readHead clock = (.ok (some head), clock₁, r₁))
    (hb : Body.read { length := head.bodySize, deadline := r₁.deadline } clock₁ r₁.inlet =
      (got, spent, clock₂, inlet)) :
    r.receive clock =
      ((got.mapError ReceiveError.body).map fun bytes => some (head, bytes), clock₂,
        { r₁ with inlet }) := by
  unfold receive readMessage
  rw [h]
  simp only [Outcome.map, Option.map, hb]

/-- A message is not read too late if its head is not. -/
theorem not_late_of_not_late {r r' r₁ : Receiver} {clock clock' clock₁ : Clock}
    {read : Outcome ReceiveError (Option Head)}
    {outcome : Outcome ReceiveError (Option (Head × Bytes))}
    (hr : r.readHead clock = (read, clock₁, r₁)) (h : r.receive clock = (outcome, clock', r'))
    (hl : ¬outcome.IsLate) : ¬read.IsLate := by
  by_cases hn : ∀ head, read ≠ .ok (some head)
  · rw [receive_of_readHead hr hn] at h
    cases h
    cases read <;> exact hl
  · obtain ⟨head, hs⟩ := not_forall_not.1 hn
    rw [hs]
    exact id

theorem receive_of_isWritten {r r' : Receiver} {limits : Limits} {clock clock' : Clock}
    {outcome : Outcome ReceiveError (Option (Head × Bytes))} {written body rest : Bytes}
    {head : Head} (hr : r.Ready limits) (hm : limits.maxHeadBytes.toNat < Numeral.maxUnsigned)
    (hw : Head.IsWritten limits written head) (hs : head.bodySize = body.length)
    (hb : r.inlet.bytes = written ++ (body ++ rest))
    (h : r.receive clock = (outcome, clock', r')) (hl : ¬outcome.IsLate) :
    outcome = .ok (some (head, body)) ∧ r'.inlet.bytes = rest ∧ r'.Ready limits := by
  rcases hread : r.readHead clock with ⟨read, clock₁, r₁⟩
  obtain ⟨rfl, hb₁, hr₁⟩ :=
    readHead_of_isWritten hr hm hw hb hread (not_late_of_not_late hread h hl)
  rcases hbody : Body.read { length := head.bodySize, deadline := r₁.deadline } clock₁ r₁.inlet with
    ⟨got, spent, clock₂, inlet⟩
  rw [receive_of_read hread hbody] at h
  cases h
  have hle : head.bodySize ≤ r₁.inlet.bytes.length := by
    rw [hb₁, hs, List.length_append]
    omega
  obtain rfl | rfl | ⟨bytes, rfl⟩ := Body.read_cases rfl hr₁.ending hle hbody
  · exact absurd rfl hl
  · exact absurd trivial hl
  · obtain ⟨rfl, -, hg⟩ := Body.gives_read hbody
    have hgiven := hg.bytes
    simp only [hb₁, hs, List.take_left, List.append_cancel_left_eq] at hgiven ⊢
    exact ⟨rfl, hgiven, ⟨hr₁.progress, hr₁.held⟩, hg.ending.trans hr₁.ending⟩

theorem receive_of_nil {r r' : Receiver} {limits : Limits} {clock clock' : Clock}
    {outcome : Outcome ReceiveError (Option (Head × Bytes))} (hr : r.Ready limits)
    (hm : limits.maxHeadBytes.toNat < Numeral.maxUnsigned) (hb : r.inlet.bytes = [])
    (h : r.receive clock = (outcome, clock', r')) (hl : ¬outcome.IsLate) : outcome = .ok none := by
  rcases hread : r.readHead clock with ⟨read, clock₁, r₁⟩
  obtain rfl := readHead_of_nil hr hm hb hread (not_late_of_not_late hread h hl)
  rw [receive_of_readHead hread nofun] at h
  cases h
  rfl

/-- What is all there in time is not read too late. -/
theorem not_late_of_receive {r r' : Receiver} {limits : Limits} {clock clock' : Clock}
    {outcome : Outcome ReceiveError (Option (Head × Bytes))} (hr : r.Ready limits)
    (hm : limits.maxHeadBytes.toNat < Numeral.maxUnsigned) (hi : r.inlet.InTime clock r.deadline)
    (h : r.receive clock = (outcome, clock', r')) :
    ¬outcome.IsLate ∧ ∀ got, outcome = .ok (some got) → r'.inlet.InTime clock' r'.deadline := by
  rcases hread : r.readHead clock with ⟨read, clock₁, r₁⟩
  have hlate := not_late_of_readHead (hr.sound hm) hi hread
  by_cases hn : ∀ head, read ≠ .ok (some head)
  · rw [receive_of_readHead hread hn] at h
    cases h
    cases read <;> exact ⟨hlate, nofun⟩
  · obtain ⟨head, rfl⟩ := not_forall_not.1 hn
    have hi₁ := inTime_of_readHead hi hread
    rcases hbody : Body.read { length := head.bodySize, deadline := r₁.deadline } clock₁ r₁.inlet
      with ⟨got, spent, clock₂, inlet⟩
    rw [receive_of_read hread hbody] at h
    cases h
    obtain ⟨htimeout, hexpired, hstalled⟩ := Body.not_late_of_read hi₁ hbody
    cases got with
    | ok bytes => exact ⟨id, fun _ _ => (Body.gives_read hbody).2.2.inTime hi₁⟩
    | error error =>
      refine ⟨?_, nofun⟩
      cases error with
      | timeout => exact absurd rfl htimeout
      | _ => nofun
    | expired => exact absurd rfl hexpired
    | stalled => exact absurd rfl hstalled

/-- What the next so many messages are read as. -/
def receives : Nat → Receiver → Clock → List (Outcome ReceiveError (Option (Head × Bytes)))
  | 0, _, _ => []
  | count + 1, r, clock =>
    match r.receive clock with
    | (outcome, clock, r) => outcome :: receives count r clock

end Receiver

end Courier
