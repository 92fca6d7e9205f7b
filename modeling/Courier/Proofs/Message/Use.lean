import Courier.Message.Draft
import Courier.Proofs.Message.Basic
import Courier.Sender

/-!
# Uses of a message

A message may be used again and again: its body read or copied, the message written or sent, each
time with a way out and a time of its own, and whatever the use before came to. `Outgoing.trace` are
the steps of such a row of uses.

A step leaves the message as it was, because it was refused for its length or ended inside the head
(`Step.IsIdle`), or it uses the body up (`Step.IsActive`), or it is refused because the body is used
up already (`Step.IsSpent`): this is `Step.cases_of_step`. So a trace is idle steps, no more than
one that is active, and spent ones (`Outgoing.exists_trace`).

`trace_draws_once` says what this means for the stream that the body comes from, and
`trace_writes_once` what it means for the head: only one write puts out all of it. Writes that end
inside the head may put out its beginning again and again (`trace_writes_head_again`).
-/

namespace Courier

/-- What a message is used for. -/
inductive Manner where
  /-- Its body is read. -/
  | read
  /-- Its body is copied to the way out. -/
  | copy
  /-- It is written to the way out. -/
  | write
  /-- It is sent by the sender whose way out it is. -/
  | send
deriving Repr, DecidableEq

/-- The whole message is to be put out. -/
def Manner.Writes (manner : Manner) : Prop :=
  manner = .write ∨ manner = .send

/-- One use of a message. -/
structure Use where
  manner : Manner
  outlet : Outlet
  deadline : Deadline := none
  clock : Clock := {}
deriving Repr, DecidableEq

/-- How a use ended. -/
inductive Answer where
  | read (outcome : Outcome BodyError Bytes)
  | copied (outcome : Outcome BodyError Nat)
  | written (outcome : Outcome SendError Nat)
deriving Repr, DecidableEq

namespace Answer

/-- The error that the use ended with. -/
def error? : Answer → Option SendError
  | read (.error error) | copied (.error error) => some (.body error)
  | written (.error error) => some error
  | read _ | copied _ | written _ => none

/-- The whole message was put out. -/
def IsWritten (answer : Answer) : Prop :=
  ∃ count, answer = written (.ok count)

end Answer

/-- One use with the message before and after it, and the way out after it. -/
structure Step where
  use : Use
  before : Outgoing
  answer : Answer
  after : Outgoing
  outlet : Outlet
deriving Repr, DecidableEq

/-- Uses a message, and gives what becomes of it and of the way out. -/
def Use.run (use : Use) (o : Outgoing) : Answer × Outgoing × Outlet :=
  match use.manner with
  | .read =>
    match o.message.body.read use.clock o.inlet with
    | (outcome, body, _, inlet) =>
      (.read outcome, { message := { o.message with body }, inlet }, use.outlet)
  | .copy =>
    match o.message.body.copy use.deadline ⟨use.clock, o.inlet, use.outlet⟩ with
    | (outcome, body, c) =>
      (.copied outcome, { message := { o.message with body }, inlet := c.inlet }, c.outlet)
  | .write =>
    match o.message.write use.deadline ⟨use.clock, o.inlet, use.outlet⟩ with
    | (outcome, message, c) => (.written outcome, { message, inlet := c.inlet }, c.outlet)
  | .send =>
    match Sender.send ⟨use.outlet, use.deadline⟩ o.message use.clock o.inlet with
    | (outcome, message, _, inlet, sender) => (.written outcome, { message, inlet }, sender.outlet)

/-- The step that a use is. -/
def Use.step (use : Use) (o : Outgoing) : Step :=
  let result := use.run o
  { use, before := o, answer := result.1, after := result.2.1, outlet := result.2.2 }

theorem Use.before_step (use : Use) (o : Outgoing) : (use.step o).before = o :=
  rfl

/-- The steps of uses in a row. -/
def Outgoing.trace : Outgoing → List Use → List Step
  | _, [] => []
  | o, use :: uses => use.step o :: (use.step o).after.trace uses

namespace Step

/-- The bytes of the body that the use gave away: to its caller, or to the way out. -/
def delivered (s : Step) : Bytes :=
  match s.answer with
  | .read (.ok bytes) => bytes
  | .read _ => []
  | .copied _ => s.outlet.written.drop s.use.outlet.written.length
  | .written _ =>
    s.outlet.written.drop (s.use.outlet.written.length + s.before.message.head.encode.length)

/-- Whether the use moved the stream that the body comes from, or gave away bytes of the body. -/
def takes (s : Step) : Bool :=
  decide (s.after.inlet ≠ s.before.inlet) || decide (s.delivered ≠ [])

/-- The use was refused because the body is used up, and nothing moved. -/
structure IsRefused (s : Step) : Prop where
  error : s.answer.error? = some (.body .alreadyConsumed)
  after : s.after = s.before
  outlet : s.outlet = s.use.outlet

/-! ## One use -/

/-- The use leaves the message as it was, with no more than the beginning of its head put out. -/
structure IsIdle (s : Step) : Prop where
  unused : s.before.message.body.consumed = false
  writes : s.use.manner.Writes
  after : s.after = s.before
  failed : ¬ s.answer.IsWritten
  delivered : s.delivered = []
  stops : s.use.outlet.Stops s.before.message.head.encode s.outlet
  refused : ∀ declared actual, s.answer.error? = some (.lengthMismatch declared actual) →
    s.outlet = s.use.outlet

/-- The use takes the body, and puts it out behind the head if it puts out the message. -/
structure IsActive (s : Step) : Prop where
  unused : s.before.message.body.consumed = false
  consumed : s.after.message.body.consumed = true
  draws : s.before.inlet.Draws s.before.message.body.length s.after.inlet
  delivered : s.delivered <+: s.before.inlet.bytes.take s.before.message.body.length
  written : s.use.manner.Writes →
    s.outlet.written = s.use.outlet.written ++ s.before.message.head.encode ++ s.delivered
  notRefused : ∀ declared actual, s.answer.error? ≠ some (.lengthMismatch declared actual)

/-- The body was used up before. -/
structure IsSpent (s : Step) : Prop where
  consumed : s.before.message.body.consumed = true
  refused : s.IsRefused
  delivered : s.delivered = []

theorem IsIdle.takes {s : Step} (h : s.IsIdle) : s.takes = false := by
  rw [Step.takes, h.after, h.delivered]
  simp

theorem IsSpent.takes {s : Step} (h : s.IsSpent) : s.takes = false := by
  rw [Step.takes, h.refused.after, h.delivered]
  simp

variable {use : Use} {o : Outgoing}

theorem cases_of_read (hm : use.manner = .read) :
    (use.step o).IsActive ∨ (use.step o).IsSpent := by
  by_cases hc : o.message.body.consumed = true
  · right
    have hs : use.step o = ⟨use, o, .read (.error .alreadyConsumed), o, use.outlet⟩ := by
      simp only [Use.step, Use.run, hm, Body.read_of_consumed hc]
    rw [hs]
    exact ⟨hc, ⟨rfl, rfl, rfl⟩, rfl⟩
  · left
    have hc := Bool.eq_false_iff.2 hc
    rcases hr : o.message.body.read use.clock o.inlet with ⟨outcome, body, clock, inlet⟩
    obtain ⟨rfl, hd⟩ := Body.consume_of_read hc hr
    have hs : use.step o = ⟨use, o, .read outcome,
        ⟨{ o.message with body := o.message.body.consume }, inlet⟩, use.outlet⟩ := by
      simp only [Use.step, Use.run, hm, hr]
    rw [hs]
    refine ⟨hc, rfl, hd, ?_, ?_, ?_⟩
    · cases outcome with
      | ok bytes => exact (Body.gives_read hr).1 ▸ List.prefix_rfl
      | _ => exact List.nil_prefix
    · rintro (hw | hw) <;> rw [hm] at hw <;> cases hw
    · cases outcome <;> nofun

theorem cases_of_copy (hm : use.manner = .copy) :
    (use.step o).IsActive ∨ (use.step o).IsSpent := by
  by_cases hc : o.message.body.consumed = true
  · right
    have hs : use.step o = ⟨use, o, .copied (.error .alreadyConsumed), o, use.outlet⟩ := by
      simp only [Use.step, Use.run, hm, Body.copy_of_consumed hc]
    rw [hs]
    exact ⟨hc, ⟨rfl, rfl, rfl⟩, List.drop_length⟩
  · left
    have hc := Bool.eq_false_iff.2 hc
    rcases hr : o.message.body.copy use.deadline ⟨use.clock, o.inlet, use.outlet⟩ with
      ⟨outcome, body, c⟩
    obtain ⟨rfl, hd⟩ := Body.consume_of_copy hc hr
    obtain ⟨put, hp, hw⟩ := Body.puts_copy hr
    have hs : use.step o = ⟨use, o, .copied outcome,
        ⟨{ o.message with body := o.message.body.consume }, c.inlet⟩, c.outlet⟩ := by
      simp only [Use.step, Use.run, hm, hr]
    rw [hs]
    refine ⟨hc, rfl, hd, ?_, ?_, ?_⟩
    · simp only [delivered, hw, List.drop_left]
      exact hp
    · rintro (hw | hw) <;> rw [hm] at hw <;> cases hw
    · cases outcome <;> nofun

/-- Writing the message, by a sender or not. -/
theorem cases_of_writes {clock : Clock} {outcome : Outcome SendError Nat} {m : Message}
    {c : Channel} {s : Step} (hm : use.manner.Writes)
    (h : Message.Writes o.message ⟨clock, o.inlet, use.outlet⟩ outcome m c)
    (hs : s = ⟨use, o, .written outcome, ⟨m, c.inlet⟩, c.outlet⟩) :
    s.IsIdle ∨ s.IsActive ∨ s.IsSpent := by
  subst hs
  have hnil : use.outlet.written.drop
      (use.outlet.written.length + o.message.head.encode.length) = [] :=
    List.drop_of_length_le (Nat.le_add_right ..)
  cases h with
  | refused hc => exact .inr (.inr ⟨hc, ⟨rfl, rfl, rfl⟩, hnil⟩)
  | mismatched hc hb =>
    refine .inl ⟨hc, hm, rfl, ?_, hnil, .of_eq rfl _, fun _ _ _ => rfl⟩
    rintro ⟨count, he⟩
    cases he
  | stopped hc hb hi hs hok hne =>
    refine .inl ⟨hc, hm, ?_, ?_, ?_, hs, fun declared actual he => ?_⟩
    · rw [hi]
    · rintro ⟨count, he⟩
      cases he
      exact hok count rfl
    · obtain ⟨put, hp, -, hw⟩ := hs
      have hl := hp.length_le
      simp only [delivered, hw]
      exact List.drop_of_length_le (by rw [List.length_append]; omega)
    · cases outcome <;> cases he
      exact absurd rfl (hne declared actual)
  | passed hc hb hd hp hw hne =>
    rename_i put
    have hput : delivered ⟨use, o, .written outcome,
        ⟨{ o.message with body := o.message.body.consume }, c.inlet⟩, c.outlet⟩ = put := by
      simp only [delivered, hw, ← List.length_append, List.drop_left]
    refine .inr (.inl ⟨hc, rfl, hd, hput ▸ hp, fun _ => hput ▸ hw, fun declared actual he => ?_⟩)
    cases outcome <;> cases he
    exact hne declared actual rfl

/-- A use leaves the message as it was, or takes its body, or is refused. -/
theorem cases_of_step (use : Use) (o : Outgoing) :
    (use.step o).IsIdle ∨ (use.step o).IsActive ∨ (use.step o).IsSpent := by
  cases hm : use.manner with
  | read => exact .inr (cases_of_read hm)
  | copy => exact .inr (cases_of_copy hm)
  | write =>
    rcases hr : o.message.write use.deadline ⟨use.clock, o.inlet, use.outlet⟩ with ⟨outcome, m, c⟩
    refine cases_of_writes (.inl hm) (Message.writes_write hr) ?_
    simp only [Use.step, Use.run, hm, hr]
  | send =>
    rcases hr : o.message.write use.deadline ⟨use.clock.begin, o.inlet, use.outlet⟩ with
      ⟨outcome, m, c⟩
    refine cases_of_writes (.inr hm) (Message.writes_write hr).within ?_
    simp only [Use.step, Use.run, hm, Sender.send, hr]

end Step

/-! ## Uses in a row -/

namespace Outgoing

theorem use_of_mem_trace {o : Outgoing} {uses : List Use} {s : Step} (h : s ∈ o.trace uses) :
    s.use ∈ uses := by
  induction uses generalizing o with
  | nil => cases h
  | cons use uses ih =>
    rcases List.mem_cons.1 h with rfl | h
    · exact List.mem_cons_self
    · exact List.mem_cons_of_mem _ (ih h)

/-- Of a message that is used up every use is refused. -/
theorem isSpent_of_mem_trace {o : Outgoing} (hc : o.message.body.consumed = true)
    (uses : List Use) : ∀ s ∈ o.trace uses, s.IsSpent := by
  induction uses with
  | nil => exact List.forall_mem_nil _
  | cons use uses ih =>
    have hb := use.before_step o
    have hs : (use.step o).IsSpent := by
      rcases Step.cases_of_step use o with h | h | h
      · have := h.unused
        rw [hb, hc] at this
        cases this
      · have := h.unused
        rw [hb, hc] at this
        cases this
      · exact h
    rw [trace, hs.refused.after, hb]
    exact List.forall_mem_cons.2 ⟨hs, ih⟩

/-- Some uses leave the message as it was; the first that does not takes its body, unless that was
used up before; and all others are refused. -/
theorem exists_trace (o : Outgoing) (uses : List Use) :
    ∃ idle rest, o.trace uses = idle ++ rest ∧
      (∀ s ∈ idle, s.before = o ∧ s.IsIdle) ∧
      (∀ s ∈ rest.head?, s.before = o ∧ (s.IsActive ∨ s.IsSpent)) ∧
      ∀ s ∈ rest.tail, s.IsSpent := by
  induction uses with
  | nil =>
    have hnone : ∀ s ∈ ([] : List Step).head?, s.before = o ∧ (s.IsActive ∨ s.IsSpent) :=
      fun s hs => absurd hs (Option.not_mem_none s)
    exact ⟨[], [], rfl, List.forall_mem_nil _, hnone, List.forall_mem_nil _⟩
  | cons use uses ih =>
    have hb := use.before_step o
    rw [trace]
    rcases Step.cases_of_step use o with h | h | h
    · obtain ⟨idle, rest, he, hi, hrest⟩ := ih
      rw [h.after, hb, he]
      exact ⟨use.step o :: idle, rest, rfl, List.forall_mem_cons.2 ⟨⟨hb, h⟩, hi⟩, hrest⟩
    · refine ⟨[], _, rfl, List.forall_mem_nil _, fun s hs => ?_,
        isSpent_of_mem_trace h.consumed uses⟩
      cases hs
      exact ⟨hb, .inl h⟩
    · have hc := h.consumed
      rw [hb] at hc
      rw [h.refused.after, hb]
      refine ⟨[], _, rfl, List.forall_mem_nil _, fun s hs => ?_, isSpent_of_mem_trace hc uses⟩
      cases hs
      exact ⟨hb, .inr h⟩

theorem cases_of_mem_trace {o : Outgoing} {uses : List Use} {s : Step} (h : s ∈ o.trace uses) :
    s.IsIdle ∨ (s.before = o ∧ s.IsActive) ∨ s.IsSpent := by
  obtain ⟨idle, rest, he, hidle, hhead, htail⟩ := o.exists_trace uses
  rw [he] at h
  rcases List.mem_append.1 h with h | h
  · exact .inl (hidle s h).2
  · cases rest with
    | nil => cases h
    | cons first rest =>
      rcases List.mem_cons.1 h with rfl | h
      · obtain ⟨hb, ha | hs⟩ := hhead _ rfl
        · exact .inr (.inl ⟨hb, ha⟩)
        · exact .inr (.inr hs)
      · exact .inr (.inr (htail s h))

theorem countP_takes_trace (o : Outgoing) (uses : List Use) :
    (o.trace uses).countP Step.takes ≤ 1 := by
  obtain ⟨idle, rest, he, hidle, -, htail⟩ := o.exists_trace uses
  have hi : idle.countP Step.takes = 0 := List.countP_eq_zero.2 fun s hs => by
    rw [(hidle s hs).2.takes]
    nofun
  rw [he, List.countP_append, hi, Nat.zero_add]
  cases rest with
  | nil => exact Nat.zero_le 1
  | cons first rest =>
    have ht : rest.countP Step.takes = 0 := List.countP_eq_zero.2 fun s hs => by
      rw [(htail s hs).takes]
      nofun
    have hf : [first].countP Step.takes ≤ 1 := List.countP_le_length
    rw [List.countP_cons, ht]
    rwa [List.countP_cons] at hf

/-- However often a message is used, and whatever that comes to, one use at most takes bytes from
the stream, and uses the body up. All bytes of the body that are given away are the beginning of it.
A body that is used up stays so, and every use of it is refused with nothing moved. A use that is
refused for the declared length leaves the message as it was. -/
theorem trace_draws_once (o : Outgoing) (uses : List Use) :
    (o.trace uses).countP Step.takes ≤ 1 ∧
      ∀ s ∈ o.trace uses,
        (s.takes = true → s.before = o ∧ s.after.message.body.consumed = true ∧
          o.inlet.Draws o.message.body.length s.after.inlet) ∧
        s.delivered <+: o.inlet.bytes.take o.message.body.length ∧
        (s.before.message.body.consumed = true →
          s.after.message.body.consumed = true ∧ s.IsRefused) ∧
        (¬ s.use.manner.Writes → s.after.message.body.consumed = true) ∧
        ∀ declared actual, s.answer.error? = some (.lengthMismatch declared actual) →
          s.before.message.body.consumed = false ∧ s.after = s.before ∧
            s.outlet = s.use.outlet := by
  refine ⟨o.countP_takes_trace uses, fun s hs => ?_⟩
  rcases cases_of_mem_trace hs with h | ⟨rfl, h⟩ | h
  · have hu := h.unused
    refine ⟨fun ht => ?_, h.delivered ▸ List.nil_prefix, fun hc => ?_, fun hw => absurd h.writes hw,
      fun declared actual he => ⟨hu, h.after, h.refused declared actual he⟩⟩
    · rw [h.takes] at ht
      cases ht
    · rw [hu] at hc
      cases hc
  · have hu := h.unused
    refine ⟨fun _ => ⟨rfl, h.consumed, h.draws⟩, h.delivered, fun hc => ?_, fun _ => h.consumed,
      fun declared actual he => absurd he (h.notRefused declared actual)⟩
    rw [hu] at hc
    cases hc
  · have hc : s.after.message.body.consumed = true := h.refused.after ▸ h.consumed
    refine ⟨fun ht => ?_, h.delivered ▸ List.nil_prefix, fun _ => ⟨hc, h.refused⟩, fun _ => hc,
      fun declared actual he => ?_⟩
    · rw [h.takes] at ht
      cases ht
    · rw [h.refused.error] at he
      cases he

/-- Steps of which the first with the whole head put out uses the body up: those before it end
inside the head, with the message as it was, and those behind it are refused. -/
structure WritesOnce (o : Outgoing) (early rest : List Step) : Prop where
  early : ∀ s ∈ early, s.after = o ∧ ¬ s.answer.IsWritten ∧
    ∃ put, put <+: o.message.head.encode ∧ put ≠ o.message.head.encode ∧
      s.outlet.written = s.use.outlet.written ++ put
  first : ∀ s ∈ rest.head?, s.after.message.body.consumed = true ∧
    ∃ put, put <+: o.inlet.bytes.take o.message.body.length ∧
      s.outlet.written = s.use.outlet.written ++ o.message.head.encode ++ put
  later : ∀ s ∈ rest.tail, s.IsRefused

/-- Of all writes of a message that may be written, one at most puts out the whole head, and uses
the body up, whether it ends well or not. -/
theorem trace_writes_once {o : Outgoing} {attempts : List Use}
    (hc : o.message.body.consumed = false) (hm : o.message.head.bodySize = o.message.body.length)
    (hw : ∀ use ∈ attempts, use.manner.Writes) :
    ∃ early rest, o.trace attempts = early ++ rest ∧ o.WritesOnce early rest := by
  obtain ⟨early, rest, he, hearly, hhead, htail⟩ := o.exists_trace attempts
  refine ⟨early, rest, he, fun s hs => ?_, fun s hs => ?_, fun s hs => (htail s hs).refused⟩
  · obtain ⟨rfl, h⟩ := hearly s hs
    obtain ⟨put, hp, hall, hput⟩ := h.stops
    have hne : put ≠ s.before.message.head.encode := fun he => Head.encode_ne_nil _ (hall he)
    exact ⟨h.after, h.failed, put, hp, hne, hput⟩
  · obtain ⟨rfl, h | h⟩ := hhead s hs
    · have hmem : s ∈ s.before.trace attempts := by
        rw [he]
        exact List.mem_append_right _ (List.mem_of_mem_head? hs)
      have huse := hw s.use (use_of_mem_trace hmem)
      exact ⟨h.consumed, s.delivered, h.delivered, h.written huse⟩
    · have := h.consumed
      rw [hc] at this
      cases this

/-- Two writes that end inside the head, one that ends well, and one that is refused. -/
theorem trace_writes_ping_once :
    let o := Draft.empty { statusLine := "PING" }
    let attempts : List Use :=
      [{ manner := .write, outlet := .direct { room := some 2, refusal := .failure "reset" } },
        { manner := .send, outlet := .direct { room := some 3 }, deadline := some 5 },
        { manner := .send, outlet := .buffered {}, deadline := some 5 },
        { manner := .write, outlet := .direct {} }]
    (o.message.body.consumed = false ∧ o.message.head.bodySize = o.message.body.length ∧
        ∀ use ∈ attempts, use.manner.Writes) ∧
      ∃ early rest, o.trace attempts = early ++ rest ∧ o.WritesOnce early rest := by
  intro o attempts
  have hw : ∀ use ∈ attempts, use.manner.Writes := by
    intro use hu
    simp only [attempts, List.mem_cons, List.not_mem_nil, or_false] at hu
    rcases hu with rfl | rfl | rfl | rfl
    · exact .inl rfl
    · exact .inr rfl
    · exact .inr rfl
    · exact .inl rfl
  exact ⟨⟨rfl, rfl, hw⟩, trace_writes_once rfl rfl hw⟩

/-- A write that ended inside the head does not keep another one from putting out the head. -/
theorem trace_writes_head_again :
    ¬ ∀ (o : Outgoing) (attempts : List Use), o.message.body.consumed = false →
      o.message.head.bodySize = o.message.body.length →
      (∀ use ∈ attempts, use.manner.Writes) →
      ∀ before s after, o.trace attempts = before ++ s :: after →
        s.outlet.sink.received ≠ s.use.outlet.sink.received → ∀ later ∈ after, later.IsRefused := by
  intro h
  let o := Draft.empty { statusLine := "PING" }
  let short : Use :=
    { manner := .write, outlet := .direct { room := some 2, refusal := .failure "reset" } }
  let whole : Use := { manner := .write, outlet := .direct {} }
  have hw : ∀ use ∈ [short, whole], use.manner.Writes := by
    intro use hu
    simp only [List.mem_cons, List.not_mem_nil, or_false] at hu
    rcases hu with rfl | rfl <;> exact .inl rfl
  have hput : (short.step o).outlet.sink.received ≠ short.outlet.sink.received := by
    have hreceived : (short.step o).outlet.sink.received = [80, 73] := by decide +kernel
    rw [hreceived]
    exact List.cons_ne_nil _ _
  have hagain : (whole.step (short.step o).after).answer.error? = none := by decide +kernel
  have hrefused := h o [short, whole] rfl rfl hw [] _ _ rfl hput _ (List.mem_singleton_self _)
  have := hrefused.error
  rw [hagain] at this
  cases this

end Outgoing

end Courier
