import Courier.Proofs.Relay.Message
import Mathlib.Algebra.Ring.Nat

/-!
# Senders that are used again

A sender is told to send one message after the other, each at a moment of its own, and goes on
whatever comes of it (`Sender.sendings`). A message is refused if its body is used up or has another
length than the head declares, and then the sender and the message are as they were; any other is in
the sink when the call ends, the head as it is encoded and the body, if there is time for it
(`Sending.IsExact`). So the sink has at any time what the messages that were not refused are written
as, one behind the other, and nothing else (`Sender.sendings_are_exact`).
-/

namespace Courier

/-- A message that a sender was told to send, and what came of it. -/
structure Sending where
  before : Sender
  clock : Clock
  outgoing : Outgoing
  outcome : Outcome SendError Nat
  after : Sender
  /-- The message as it is afterwards. -/
  left : Outgoing
deriving Repr, DecidableEq

namespace Sender

/-- Sends one message. -/
def sending (s : Sender) (clock : Clock) (o : Outgoing) : Sending :=
  match s.send o.message clock o.inlet with
  | (outcome, message, _, inlet, after) =>
    { before := s, clock, outgoing := o, outcome, after, left := ⟨message, inlet⟩ }

/-- Sends one message after the other, whatever comes of those before. -/
def sendings : Sender → List (Clock × Outgoing) → List Sending
  | _, [] => []
  | s, (clock, o) :: rest => s.sending clock o :: (s.sending clock o).after.sendings rest

end Sender

/-- The stream holds all of the body, unless it is used up. -/
def Outgoing.HasBody (o : Outgoing) : Prop :=
  o.message.body.consumed = true ∨ o.message.body.length ≤ o.inlet.bytes.length

namespace Sending

/-- What the message is written as, if it is written. -/
def put (s : Sending) : Bytes :=
  match s.outcome with
  | .ok _ => s.outgoing.encode
  | _ => []

/-- The number of bytes that the call gave. -/
def count (s : Sending) : Nat :=
  match s.outcome with
  | .ok count => count
  | _ => 0

/-- No deadline expires: the body is there before, or at least the call does not end for that. -/
def InTime (s : Sending) : Prop :=
  (s.outgoing.inlet.Timely s.clock s.outgoing.message.body.deadline ∧
      s.outgoing.inlet.Timely s.clock s.before.deadline) ∨
    ¬s.outcome.EndsLate fun error => error.toClass = .timeout

/-- The message is refused for one of two reasons, and nothing has happened; or it is in the sink as
a whole. -/
structure IsExact (s : Sending) : Prop where
  consumed : s.outcome = .error (.body .alreadyConsumed) ↔
    s.outgoing.message.body.consumed = true
  mismatched : ∀ declared actual, s.outcome = .error (.lengthMismatch declared actual) ↔
    s.outgoing.message.body.consumed = false ∧
      s.outgoing.message.head.bodySize ≠ s.outgoing.message.body.length ∧
      declared = s.outgoing.message.head.contentLength ∧ actual = s.outgoing.message.body.length
  accepted : (∃ count, s.outcome = .ok count) ↔
    s.outgoing.message.body.consumed = false ∧
      s.outgoing.message.head.bodySize = s.outgoing.message.body.length
  refused : (∀ count, s.outcome ≠ .ok count) → s.after = s.before ∧ s.left = s.outgoing
  whole : ∀ count, s.outcome = .ok count →
    count = s.outgoing.message.head.encode.length + s.outgoing.message.body.length ∧
      s.after.outlet.buffer = [] ∧
      s.after.outlet.sink.received = s.before.outlet.sink.received ++
        (s.outgoing.message.head.encode ++
          s.outgoing.inlet.bytes.take s.outgoing.message.body.length)

/-- What is written of a message can be told from the message. -/
theorem IsExact.put_eq {s : Sending} (h : s.IsExact) :
    s.put = if s.outgoing.message.body.consumed = false ∧
      s.outgoing.message.head.bodySize = s.outgoing.message.body.length then s.outgoing.encode
    else [] := by
  unfold put
  split
  · rename_i count hok
    rw [if_pos (h.accepted.1 ⟨count, hok⟩)]
  · rename_i hne
    rw [if_neg fun hm => ?_]
    obtain ⟨count, hok⟩ := h.accepted.2 hm
    exact hne count hok

end Sending

namespace Sender

variable {s : Sender} {clock : Clock} {o : Outgoing}

@[simp] theorem outgoing_sending : (s.sending clock o).outgoing = o :=
  rfl

@[simp] theorem deadline_sending : (s.sending clock o).after.deadline = s.deadline :=
  rfl

theorem inTime_sending (hb : o.inlet.Timely clock o.message.body.deadline)
    (hs : o.inlet.Timely clock s.deadline) : (s.sending clock o).InTime :=
  .inl ⟨hb, hs⟩

theorem sending_of_consumed (hc : o.message.body.consumed = true) :
    s.sending clock o = ⟨s, clock, o, .error (.body .alreadyConsumed), s, o⟩ := by
  simp only [sending, send, Message.write, hc, if_true]
  rfl

theorem sending_of_mismatched (hc : o.message.body.consumed = false)
    (hm : o.message.head.bodySize ≠ o.message.body.length) :
    s.sending clock o =
      ⟨s, clock, o,
        .error (.lengthMismatch o.message.head.contentLength o.message.body.length), s, o⟩ := by
  simp only [sending, send, Message.write, hc, if_pos hm]
  rfl

/-- The sink takes everything, and nothing is kept back. -/
structure Ready (s : Sender) : Prop where
  isOpen : s.outlet.IsOpen
  buffer : s.outlet.buffer = []

theorem Ready.received (hs : s.Ready) : s.outlet.sink.received = s.outlet.written := by
  rw [Outlet.written, hs.buffer, List.append_nil]

/-- A message that is not refused is in the sink when the call ends. -/
theorem Ready.sending_of_matching (hs : s.Ready) (hc : o.message.body.consumed = false)
    (hm : o.message.head.bodySize = o.message.body.length)
    (hl : o.message.body.length ≤ o.inlet.bytes.length) (ht : (s.sending clock o).InTime) :
    (s.sending clock o).outcome =
        .ok (o.message.head.encode.length + o.message.body.length) ∧
      (s.sending clock o).after.Ready ∧
      (s.sending clock o).after.outlet.written = s.outlet.written ++ o.encode := by
  rcases hsend : s.send o.message clock o.inlet with ⟨outcome, message, later, inlet, after⟩
  have hsending : s.sending clock o = ⟨s, clock, o, outcome, after, ⟨message, inlet⟩⟩ := by
    rw [sending, hsend]
  rw [hsending] at ht ⊢
  obtain ⟨-, hcarries⟩ := carries_send hc hm hl hs.isOpen hsend
  obtain ⟨count, rfl⟩ := hcarries.endsWell.exists_ok ht
  obtain ⟨hcount, hwritten, hbuffer⟩ := written_send hsend
  have hlength : (o.inlet.bytes.take o.message.body.length).length = o.message.body.length := by
    rw [List.length_take, Nat.min_eq_left hl]
  refine ⟨?_, ⟨(hcarries.after _ rfl).2, hbuffer⟩, hwritten⟩
  rw [hcount, Message.length_encode hlength]

/-- One call of a sender leaves it as it can go on, with what was put out in the sink. -/
theorem Ready.sending (hs : s.Ready) (hb : o.HasBody) (ht : (s.sending clock o).InTime) :
    (s.sending clock o).IsExact ∧ (s.sending clock o).after.Ready ∧
      (s.sending clock o).after.outlet.sink.received =
        s.outlet.sink.received ++ (s.sending clock o).put ∧
      (s.sending clock o).count = (s.sending clock o).put.length := by
  by_cases hc : o.message.body.consumed = true
  · rw [sending_of_consumed hc]
    refine ⟨⟨by simp [hc], by simp [hc], by simp [hc], fun _ => ⟨rfl, rfl⟩, by rintro _ ⟨⟩⟩, hs,
      (List.append_nil _).symm, rfl⟩
  · have hl := hb.resolve_left hc
    rw [Bool.not_eq_true] at hc
    by_cases hm : o.message.head.bodySize = o.message.body.length
    · obtain ⟨hok, hready, hwritten⟩ := hs.sending_of_matching hc hm hl ht
      rw [← hready.received, ← hs.received] at hwritten
      have hput : (s.sending clock o).put = o.encode := by rw [Sending.put, hok, outgoing_sending]
      refine ⟨⟨by simp [hok, hc], by simp [hok, hm], by simp [hok, hc, hm], ?_, ?_⟩, hready,
        hput ▸ hwritten, ?_⟩
      · exact fun hne => absurd hok (hne _)
      · rintro count hcount
        rw [hok] at hcount
        cases hcount
        exact ⟨rfl, hready.buffer, hwritten⟩
      · rw [hput, Sending.count, hok, Outgoing.encode, Message.length_encode]
        rw [List.length_take, Nat.min_eq_left hl]
    · rw [sending_of_mismatched hc hm]
      refine ⟨⟨by simp [hc], by simp [hc, hm, eq_comm], by simp [hm], fun _ => ⟨rfl, rfl⟩,
        by rintro _ ⟨⟩⟩, hs, (List.append_nil _).symm, rfl⟩

/-- What the sink has after each call is what was written of the messages up to then. -/
theorem Ready.sendings {calls : List (Clock × Outgoing)} (hs : s.Ready)
    (hb : ∀ call ∈ calls, call.2.HasBody) (ht : ∀ sent ∈ s.sendings calls, sent.InTime) :
    (∀ sent ∈ s.sendings calls, sent.IsExact) ∧
      ∀ before last after, s.sendings calls = before ++ last :: after →
        last.after.outlet.buffer = [] ∧
          last.after.outlet.sink.received =
            s.outlet.sink.received ++ (before ++ [last]).flatMap Sending.put ∧
          ((before ++ [last]).map Sending.count).sum =
            ((before ++ [last]).flatMap Sending.put).length := by
  induction calls generalizing s with
  | nil => exact ⟨List.forall_mem_nil _, fun before last after he => by cases before <;> cases he⟩
  | cons call rest ih =>
    obtain ⟨clock, o⟩ := call
    rw [List.forall_mem_cons] at hb
    rw [Sender.sendings, List.forall_mem_cons] at ht
    have hbody : o.HasBody := hb.1
    obtain ⟨hexact, hready, hreceived, hcount⟩ := hs.sending hbody ht.1
    obtain ⟨hall, hsink⟩ := ih hready hb.2 ht.2
    rw [Sender.sendings]
    refine ⟨List.forall_mem_cons.2 ⟨hexact, hall⟩, fun before last after he => ?_⟩
    cases before with
    | nil =>
      cases he
      exact ⟨hready.buffer, by simpa using hreceived, by simpa using hcount⟩
    | cons first before =>
      rw [List.cons_append, List.cons.injEq] at he
      obtain ⟨rfl, he⟩ := he
      obtain ⟨hbuffer, hlast, hsum⟩ := hsink before last after he
      refine ⟨hbuffer, ?_, ?_⟩
      · rw [hlast, hreceived, List.cons_append, List.flatMap_cons, List.append_assoc]
      · rw [List.cons_append, List.map_cons, List.sum_cons, hcount, hsum, List.flatMap_cons,
          List.length_append]

end Sender

/-! ## Messages that drafts make -/

/-- The messages that a draft makes, with a body or without. -/
inductive Draft.Makes (draft : Draft) : Outgoing → Prop
  | streaming {source : Source} {length : Nat} {o : Outgoing}
      (h : draft.streaming source length = .ok o) : Makes draft o
  | body {bytes : Bytes} {o : Outgoing} (h : draft.body bytes = .ok o) : Makes draft o
  | empty : Makes draft draft.empty

/-- The size that a draft computes is that of the head in writing. -/
theorem Draft.Makes.size_eq {draft : Draft} {o : Outgoing} (h : draft.Makes o) :
    o.message.head.size = o.message.head.encode.length := by
  have hsized : ∀ {source length o}, draft.streaming source length = .ok o →
      o.message.head.size = o.message.head.encode.length := by
    intro source length o h
    obtain ⟨-, headers, -, rfl⟩ := Draft.exists_set_of_streaming h
    exact Draft.length_encode_toHead ..
  cases h with
  | streaming h | body h => exact hsized h
  | empty => exact Draft.length_encode_toHead ..

namespace Sender

/-- A sender whose sink takes everything refuses a message exactly if its body is used up or is not
what the head declares, leaves no trace then, and puts out any other message exactly: the head as it
is encoded and so many bytes of the stream, whose number it gives. What the sink has after each of
the calls is just that. The number given for a message that a draft made is the size that the draft
computed. -/
theorem sendings_are_exact (sink : Sink) (limits : Limits) (now : Time)
    (calls : List (Clock × Outgoing)) (hsink : sink.room = none)
    (hb : ∀ call ∈ calls, call.2.HasBody)
    (ht : ∀ sent ∈ (start sink limits now).sendings calls, sent.InTime) :
    (∀ sent ∈ (start sink limits now).sendings calls, sent.IsExact ∧
      ∀ draft count, Draft.Makes draft sent.outgoing → sent.outcome = .ok count →
        count = sent.outgoing.message.head.size + sent.outgoing.message.head.bodySize ∧
          sent.outgoing.message.head.totalSize = count % 2 ^ 64) ∧
      ∀ before last after, (start sink limits now).sendings calls = before ++ last :: after →
        last.after.outlet.buffer = [] ∧
          last.after.outlet.sink.received =
            sink.received ++ (before ++ [last]).flatMap Sending.put ∧
          ((before ++ [last]).flatMap Sending.put).length =
            ((before ++ [last]).map Sending.count).sum := by
  obtain ⟨hexact, hprefix⟩ := Ready.sendings (s := start sink limits now) ⟨hsink, rfl⟩ hb ht
  refine ⟨fun sent hm => ⟨hexact sent hm, fun draft count hd hok => ?_⟩,
    fun before last after he => ?_⟩
  · obtain ⟨hcount, -⟩ := (hexact sent hm).whole count hok
    have hsize := ((hexact sent hm).accepted.1 ⟨count, hok⟩).2
    rw [Head.totalSize, hsize, hd.size_eq, hcount]
    exact ⟨rfl, rfl⟩
  · obtain ⟨hbuffer, hreceived, hsum⟩ := hprefix before last after he
    exact ⟨hbuffer, hreceived, hsum.symm⟩

/-- A message with more bytes behind its body, one with another length, one that is used up, and one
without a body. -/
theorem sendings_are_exact_of_four :
    let head : Head :=
      { statusLine := "PONG", headers := .empty, contentLength := some 2, size := 8 }
    let inlet : Inlet := .direct (.ofBytes [65, 66, 67])
    let calls : List (Clock × Outgoing) :=
      [({}, ⟨⟨head, { length := 2 }⟩, inlet⟩), ({}, ⟨⟨head, { length := 3 }⟩, inlet⟩),
        ({}, ⟨⟨head, { length := 2, consumed := true }⟩, inlet⟩),
        ({}, Draft.empty { statusLine := "PING" })]
    ∃ first second third last,
      (start {} {} 0).sendings calls = [first, second, third, last] ∧
        last.after.outlet.sink.received =
          [80, 79, 78, 71, 13, 10, 13, 10, 65, 66, 80, 73, 78, 71, 13, 10, 13, 10] ∧
        second.outcome = .error (.lengthMismatch (some 2) 3) ∧
        third.outcome = .error (.body .alreadyConsumed) := by
  intro head inlet calls
  have hb : ∀ call ∈ calls, call.2.HasBody := by
    intro call hm
    simp only [calls, List.mem_cons, List.not_mem_nil, or_false] at hm
    rcases hm with rfl | rfl | rfl | rfl
    · exact .inr (by decide)
    · exact .inr (by decide)
    · exact .inl rfl
    · exact .inr (by decide)
  have ht : ∀ sent ∈ (start {} {} 0).sendings calls, sent.InTime := by
    simp only [calls, sendings, List.forall_mem_cons]
    refine ⟨inTime_sending ⟨rfl, rfl⟩ ?_, inTime_sending ⟨rfl, rfl⟩ ?_,
      inTime_sending ⟨rfl, rfl⟩ ?_, inTime_sending ⟨rfl, rfl⟩ ?_, List.forall_mem_nil _⟩ <;>
      simp only [deadline_sending] <;> exact ⟨rfl, rfl⟩
  obtain ⟨hexact, hprefix⟩ := sendings_are_exact {} {} 0 calls rfl hb ht
  simp only [calls, sendings, List.forall_mem_cons] at hexact
  obtain ⟨⟨hfirst, -⟩, ⟨hsecond, -⟩, ⟨hthird, -⟩, ⟨hlast, -⟩, -⟩ := hexact
  obtain ⟨-, hreceived, -⟩ := hprefix [_, _, _] _ [] rfl
  refine ⟨_, _, _, _, rfl, ?_, (hsecond.mismatched _ _).2 ?_, hthird.consumed.2 ?_⟩
  · rw [hreceived]
    simp only [List.cons_append, List.nil_append, List.flatMap_cons, List.flatMap_nil]
    rw [hfirst.put_eq, hsecond.put_eq, hthird.put_eq, hlast.put_eq]
    simp only [outgoing_sending]
    decide
  · simp only [outgoing_sending]
    decide
  · rfl

end Sender

end Courier
