import Courier.Proofs.Head.Reading
import Courier.Proofs.Receiver.Passes
import Courier.Proofs.Stream.Kept

/-!
# Receivers that are used again

Whatever has been done with a receiver (`Receiver.Act`), and whatever came of it, it begins the next
head as it began the first: with nothing of a head and no bytes held (`Receiver.Fresh`). Its inlet
is in the state that the buffer of a connection can be in (`Inlet.Buffered`). These two are kept by
each act (`Idle.run`), and from them it follows that the next head is read as a new receiver reads
it that is put before what is left of the stream (`Receiver.renewed`, `readHead_as_new`).
-/

namespace Courier

namespace Receiver

variable {r r' : Receiver} {limits : Limits} {clock clock' : Clock}

/-! ## Heads -/

/-- A pass keeps the limits, and the inlet what no operation ends. -/
theorem Steps.kept {P : Inlet → Prop} {p : Pass} (hk : Inlet.Kept P) (h : r.Steps clock p)
    (hi : P r.inlet) : p.receiver.progress.reset = r.progress.reset ∧ P p.receiver.inlet := by
  cases h with
  | failed hl | expired hl | stalled hl => exact ⟨rfl, hk.gather hi hl⟩
  | last hl hd => exact ⟨(Head.Progress.reset_of_decodeLast hd).1, hk.gather hi hl⟩
  | decoded hl hd => exact ⟨Head.Progress.reset_of_decode hd, hk.gather hi hl⟩
  | again hl hn hd => exact ⟨Head.Progress.reset_of_decodeLines hd, hk.gather hi hl⟩

/-- If there is no head, nothing of one is left. -/
theorem Steps.nothing {left : Receiver} (h : r.Steps clock (.done (.ok none) clock' left)) :
    left.progress = r.progress.reset ∧ left.held = [] := by
  generalize hp : Pass.done (.ok none) clock' left = p at h
  cases h with
  | failed | expired | stalled => cases hp
  | again => cases hp
  | @last answer _ _ _ _ _ hl hd ho =>
    cases hp
    cases answer <;> cases ho
    exact (Head.Progress.reset_of_decodeLast hd).2 rfl
  | @decoded answer _ _ _ _ _ _ hl hd ha ho =>
    cases hp
    cases answer <;> cases ho
    exact absurd rfl ha

theorem kept_readLines {P : Inlet → Prop} {outcome : Outcome ReceiveError (Option Head)}
    (hk : Inlet.Kept P) (h : r.readLines clock = (outcome, clock', r')) (hi : P r.inlet) :
    P r'.inlet ∧ r'.progress.reset = r.progress.reset ∧
      (outcome = .ok none → r'.progress = r.progress.reset ∧ r'.held = []) := by
  induction r, clock using passInduction with
  | done r clock read clock₁ r₁ hp =>
    have hsteps := steps_of_pass hp
    obtain ⟨hreset, hinlet⟩ := hsteps.kept hk hi
    rw [readLines_eq_pass, hp] at h
    cases h
    refine ⟨hinlet, hreset, ?_⟩
    rintro rfl
    exact hsteps.nothing
  | again r clock r₁ clock₁ hp ih =>
    obtain ⟨hreset, hinlet⟩ := (steps_of_pass hp).kept hk hi
    rw [readLines_eq_pass, hp] at h
    obtain ⟨hlast, hsame, hnone⟩ := ih h hinlet
    exact ⟨hlast, hsame.trans hreset, fun ho => ⟨(hnone ho).1.trans hreset, (hnone ho).2⟩⟩

/-- The receiver stands before a head, and its buffer is that of a connection. -/
structure Idle (r : Receiver) (limits : Limits) : Prop extends Fresh r limits where
  buffered : r.inlet.Buffered

theorem idle_start (source : Source) (limits : Limits) (now : Time) :
    (start source limits now).Idle limits :=
  ⟨⟨rfl, rfl⟩, Inlet.buffered_buffered source⟩

/-- Reading a head that comes to an end leaves the receiver before a head again. -/
theorem Idle.readHead {outcome : Outcome ReceiveError (Option Head)} (hr : r.Idle limits)
    (h : r.readHead clock = (outcome, clock', r')) (ho : outcome ≠ .stalled) : r'.Idle limits := by
  have hle : limits.maxHeadBytes.toNat ≤ Numeral.maxUnsigned :=
    Nat.le_of_lt_succ limits.maxHeadBytes.toNat_lt
  rcases Nat.lt_or_eq_of_le hle with hm | hm
  · rcases hlines : r.readLines clock.begin with ⟨read, later, left⟩
    obtain ⟨hinlet, hreset, hnone⟩ := kept_readLines Inlet.kept_buffered hlines hr.buffered
    rw [readHead_of_readLines hlines] at h
    cases h
    have hstart : r.progress.reset = .start limits := by rw [hr.progress]; rfl
    cases read with
    | ok answer =>
      refine ⟨?_, hinlet⟩
      cases answer with
      | none => exact ⟨(hnone rfl).1.trans hstart, (hnone rfl).2⟩
      | some head =>
        have hreads := reads_of_readLines (hr.sound hm) hlines
        rw [hr.progress] at hreads
        cases hreads with
        | head hd hheld => exact ⟨(Head.Progress.decodeLines_start_eq_some_iff.1 hd).2, hheld⟩
    | error error | expired => exact ⟨⟨hreset.trans hstart, rfl⟩, hinlet⟩
    | stalled => exact absurd rfl ho
  · rw [hr.readHead_of_unbounded hm] at h
    cases h
    exact hr

/-! ## Acts -/

/-- What is done with a receiver. -/
inductive Act where
  /-- The next head is read, and the body behind it is not. -/
  | head (clock : Clock)
  /-- The next message is read and used, its body wholly, in part, or not at all. -/
  | message (clock : Clock) (uses : List Use)
  | deadline (moment : Deadline)
deriving Repr, DecidableEq

/-- The receiver after the act; none if it is still waiting for the head. -/
def Act.run : Act → Receiver → Option Receiver
  | head clock, r =>
    match r.readHead clock with
    | (.stalled, _, _) => none
    | (_, _, r) => some r
  | message clock uses, r =>
    match r.readMessage clock with
    | (.stalled, _, _) => none
    | (.ok (some m), _, r) => some { r with inlet := (Outgoing.used ⟨m, r.inlet⟩ uses).inlet }
    | (_, _, r) => some r
  | deadline moment, r => some { r with deadline := moment }

/-- The receiver before each act and after the last one. -/
def states : Receiver → List Act → List Receiver
  | r, [] => [r]
  | r, act :: acts =>
    r :: match act.run r with
      | some r => states r acts
      | none => []

/-- Whatever is done with it, the receiver stands before a head again. -/
theorem Idle.run {act : Act} (hr : r.Idle limits) (h : act.run r = some r') : r'.Idle limits := by
  cases act with
  | head clock =>
    rcases hread : r.readHead clock with ⟨outcome, later, left⟩
    simp only [Act.run, hread] at h
    cases outcome with
    | stalled => cases h
    | ok | error | expired =>
      cases h
      exact hr.readHead hread nofun
  | message clock uses =>
    rcases hread : r.readHead clock with ⟨outcome, later, left⟩
    simp only [Act.run, readMessage, hread] at h
    cases outcome with
    | stalled => cases h
    | ok answer =>
      have hleft := hr.readHead hread nofun
      cases answer with
      | none =>
        cases h
        exact hleft
      | some head =>
        cases h
        exact ⟨⟨hleft.progress, hleft.held⟩, Inlet.kept_buffered.used hleft.buffered uses⟩
    | error | expired =>
      cases h
      exact hr.readHead hread nofun
  | deadline moment =>
    cases h
    exact ⟨⟨hr.progress, hr.held⟩, hr.buffered⟩

theorem Idle.of_mem_states {acts : List Act} (hr : r.Idle limits) (h : r' ∈ r.states acts) :
    r'.Idle limits := by
  induction acts generalizing r with
  | nil =>
    obtain rfl := List.mem_singleton.1 h
    exact hr
  | cons act acts ih =>
    rcases List.mem_cons.1 h with rfl | h
    · exact hr
    · cases hrun : act.run r with
      | none =>
        rw [hrun] at h
        cases h
      | some next =>
        rw [hrun] at h
        exact ih (hr.run hrun) h

/-! ## New receivers -/

/-- A new receiver of what is left of the stream, with the same deadline. -/
def renewed (r : Receiver) (limits : Limits) (now : Time) : Receiver :=
  { start r.inlet.rest limits now with deadline := r.deadline }

/-- A new receiver reads lines as one does that stands before a head. -/
theorem Idle.readLines_renewed (hr : r.Idle limits)
    (hm : limits.maxHeadBytes.toNat < Numeral.maxUnsigned) (clock : Clock) (now : Time) :
    (r.renewed limits now).readLines clock = r.readLines clock := by
  have hl : r.lineLimit.toNat ≠ 0 := by
    rw [(hr.sound hm).toNat_lineLimit]
    omega
  obtain ⟨inlet, progress, held, deadline⟩ := r
  obtain ⟨⟨rfl, rfl⟩, hi⟩ : (progress = .start limits ∧ held = []) ∧ inlet.Buffered :=
    ⟨⟨hr.progress, hr.held⟩, hr.buffered⟩
  have hline : (Inlet.buffered inlet.rest).readLine clock deadline _ =
      inlet.readLine clock deadline _ := Inlet.gather_rest hi hl clock deadline
  have hpass : (renewed ⟨inlet, .start limits, [], deadline⟩ limits now).pass clock =
      pass ⟨inlet, .start limits, [], deadline⟩ clock := by
    unfold pass
    rw [← hline]
    rfl
  rw [readLines_eq_pass, readLines_eq_pass, hpass]

/-- Whatever has been done with a receiver, and whatever came of it, it has nothing of a head and
holds no bytes before it reads the next one. So it reads that head as a new receiver does, with the
same limits and the same deadline, from what is left of the stream; and what it reads is written
there, from the first byte that is left. -/
theorem readHead_as_new (source : Source) (limits : Limits) (start now : Time) {acts : List Act}
    (h : r ∈ (Receiver.start source limits start).states acts) (clock : Clock) :
    r.progress = .start limits ∧ r.held = [] ∧
      ∃ outcome later left other,
        r.readHead clock = (outcome, later, left) ∧
        (r.renewed limits now).readHead clock = (outcome, later, other) ∧
        other.inlet.bytes = left.inlet.bytes ∧
        ∀ head, outcome = .ok (some head) →
          ∃ written, r.inlet.bytes = written ++ left.inlet.bytes ∧
            Head.IsWritten limits written head := by
  have hr := (idle_start source limits start).of_mem_states h
  refine ⟨hr.progress, hr.held, ?_⟩
  have hle : limits.maxHeadBytes.toNat ≤ Numeral.maxUnsigned :=
    Nat.le_of_lt_succ limits.maxHeadBytes.toNat_lt
  rcases Nat.lt_or_eq_of_le hle with hm | hm
  · rcases hread : r.readHead clock with ⟨outcome, later, left⟩
    have hnew : (r.renewed limits now).readHead clock = r.readHead clock := by
      unfold readHead
      rw [hr.readLines_renewed hm]
    refine ⟨outcome, later, left, left, rfl, hnew.trans hread, rfl, ?_⟩
    rintro head rfl
    exact isWritten_of_readHead hr.toFresh hm hread
  · have hfresh : (r.renewed limits now).Fresh limits := ⟨rfl, rfl⟩
    exact ⟨_, _, _, _, hr.readHead_of_unbounded hm clock, hfresh.readHead_of_unbounded hm clock,
      r.inlet.bytes_rest, nofun⟩

/-- The deadline passes inside a line, then a line is no header, and then there is a head. -/
theorem readHead_as_new_after_failures :
    let limits : Limits := { timeout := some 5 }
    let source : Source :=
      { pieces := [.chunk [71, 69], .pause 9, .chunk [84, 10, 58, 10, 80, 10, 10]] }
    let acts : List Act := [.head {}, .deadline none, .head { now := 5 }]
    ∃ r ∈ (start source limits 0).states acts, r.inlet.bytes = [80, 10, 10] ∧
      r.progress = .start limits ∧ r.held = [] ∧
        ∃ head later other,
          (r.renewed limits 7).readHead { now := 9 } = (.ok (some head), later, other) ∧
            head.statusLine = "P" := by
  intro limits source acts
  let r : Receiver :=
    { inlet := { capacity := 8192, buffer := [80, 10, 10], source := { pieces := [] } }
      progress := .start limits }
  have hr : r ∈ (start source limits 0).states acts := by decide +kernel
  have hhead : (r.readHead { now := 9 }).1 = .ok (some ⟨"P", .empty, none, 3⟩) := by
    decide +kernel
  obtain ⟨hp, hh, outcome, later, left, other, hread, hnew, -⟩ :=
    readHead_as_new source limits 0 7 hr { now := 9 }
  rw [hread] at hhead
  obtain rfl := hhead
  exact ⟨r, hr, rfl, hp, hh, _, later, other, hnew, rfl⟩

end Receiver

end Courier
