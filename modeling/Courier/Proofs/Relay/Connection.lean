import Courier.Connection
import Courier.Proofs.Relay.Message
import Courier.Proofs.RoundTrip

/-!
# Passing messages on

A connection that reads messages and writes each of them, its body straight from the reading end, to
a sink that takes everything, stands behind the body of each message that it has passed on, and has
written the normal form of what it has read. That is read as the same messages, and passed on as it
is (`forwards_normalForm`).
-/

namespace Courier

/-! ## Messages in a stream -/

namespace Relay

/-- The bytes start with the messages, each with its head in writing and the body that the head
declares. -/
inductive StartsWith (limits : Limits) : Bytes → List (Head × Bytes) → Prop
  | nil (bytes : Bytes) : StartsWith limits bytes []
  /-- Under the largest limit that there is, no head can be read (`Fresh.bound_of_readHead`). -/
  | cons {written body bytes : Bytes} {head : Head} {messages : List (Head × Bytes)}
      (hm : limits.maxHeadBytes.toNat < Numeral.maxUnsigned)
      (hw : Head.IsWritten limits written head) (hs : head.bodySize = body.length)
      (h : StartsWith limits bytes messages) :
      StartsWith limits (written ++ (body ++ bytes)) ((head, body) :: messages)

/-- The number of bytes that the messages had where they were read. -/
def extent : List (Head × Bytes) → Nat
  | [] => 0
  | (head, body) :: rest => head.size + body.length + extent rest

/-- What the messages are written as. -/
def normalForm (messages : List (Head × Bytes)) : Bytes :=
  messages.flatMap fun m => m.1.encode ++ m.2

/-- The messages as they are read from their normal form. -/
def normal (messages : List (Head × Bytes)) : List (Head × Bytes) :=
  messages.map fun m => (m.1.normal, m.2)

theorem normalForm_normal (messages : List (Head × Bytes)) :
    normalForm (normal messages) = normalForm messages := by
  rw [normalForm, normal, List.flatMap_map]
  rfl

namespace StartsWith

variable {limits large : Limits} {bytes : Bytes} {messages : List (Head × Bytes)}

theorem of_mem (h : StartsWith limits bytes messages) {m : Head × Bytes} (hm : m ∈ messages) :
    (∃ written, Head.IsWritten limits written m.1) ∧ m.1.bodySize = m.2.length := by
  induction h with
  | nil => cases hm
  | cons _ hw hs _ ih =>
    obtain rfl | hm := List.mem_cons.1 hm
    · exact ⟨⟨_, hw⟩, hs⟩
    · exact ih hm

theorem of_isWritten_encode (hm : limits.maxHeadBytes.toNat < Numeral.maxUnsigned)
    (hw : ∀ m ∈ messages, Head.IsWritten limits m.1.encode m.1 ∧ m.1.bodySize = m.2.length) :
    StartsWith limits (normalForm messages) messages := by
  induction messages with
  | nil => exact .nil _
  | cons m rest ih =>
    obtain ⟨⟨hhead, hsize⟩, hw⟩ := List.forall_mem_cons.1 hw
    have hb : normalForm (m :: rest) = m.1.encode ++ (m.2 ++ normalForm rest) := by
      rw [normalForm, List.flatMap_cons, List.append_assoc]
      rfl
    exact hb ▸ .cons hm hhead hsize (ih hw)

/-- Messages that were read are in writing in their normal form too. -/
theorem isWritten_normal (h : StartsWith limits bytes messages)
    (hfit : ∀ m ∈ messages, m.1.headers.valueCount ≤ large.maxHeaders.toNat ∧
      m.1.encode.length ≤ large.maxHeadBytes.toNat) :
    ∀ m ∈ normal messages, Head.IsWritten large m.1.encode m.1 ∧ m.1.bodySize = m.2.length := by
  rw [normal, List.forall_mem_map]
  intro m hm
  obtain ⟨⟨written, hw⟩, hs⟩ := h.of_mem hm
  obtain ⟨hcount, hsize⟩ := hfit m hm
  exact ⟨hw.encode hcount hsize, hs⟩

end StartsWith

end Relay

open Relay

namespace Receiver

variable {r r' : Receiver} {limits : Limits} {clock clock' : Clock} {head : Head} {body : Bytes}

/-- What is received is what the head declares of the stream behind the head. -/
theorem exists_readHead_of_receive (h : r.receive clock = (.ok (some (head, body)), clock', r')) :
    ∃ clock₁ r₁, r.readHead clock = (.ok (some head), clock₁, r₁) ∧ head.bodySize = body.length ∧
      r₁.inlet.bytes = body ++ r'.inlet.bytes ∧ r'.progress = r₁.progress ∧ r'.held = r₁.held := by
  rcases hread : r.readHead clock with ⟨read, clock₁, r₁⟩
  by_cases hn : ∀ head, read ≠ .ok (some head)
  · rw [receive_of_readHead hread hn] at h
    cases read <;> cases h
  · obtain ⟨got, rfl⟩ := not_forall_not.1 hn
    rcases hbody : Body.read { length := got.bodySize, deadline := r₁.deadline } clock₁ r₁.inlet
      with ⟨outcome, spent, clock₂, inlet⟩
    rw [receive_of_read hread hbody] at h
    simp only [Prod.mk.injEq, Outcome.map_eq_ok_iff, Outcome.mapError_eq_ok_iff,
      Option.some.injEq] at h
    obtain ⟨⟨bytes, rfl, rfl, rfl⟩, rfl, rfl⟩ := h
    obtain ⟨-, hl, hg⟩ := Body.gives_read hbody
    exact ⟨clock₁, r₁, rfl, hl.symm, hg.bytes.symm, rfl, rfl⟩

theorem Fresh.of_readHead (hr : r.Fresh limits)
    (hm : limits.maxHeadBytes.toNat < Numeral.maxUnsigned)
    (h : r.readHead clock = (.ok (some head), clock', r')) : r'.Fresh limits := by
  cases hr.reads hm h with
  | head hd hheld => exact ⟨(Head.Progress.decodeLines_start_eq_some_iff.1 hd).2, hheld⟩

/-- A receiver that reads messages stands before them. -/
theorem Fresh.startsWith {messages : List (Head × Bytes)} (hr : r.Fresh limits)
    (h : r.receives messages.length clock = messages.map fun m => .ok (some m)) :
    StartsWith limits r.inlet.bytes messages := by
  induction messages generalizing r clock with
  | nil => exact .nil _
  | cons m rest ih =>
    rcases hread : r.receive clock with ⟨outcome, later, r₂⟩
    rw [List.length_cons, receives, hread, List.map_cons, List.cons.injEq] at h
    obtain ⟨rfl, h⟩ := h
    obtain ⟨clock₁, r₁, hhead, hs, hb, hp, hh⟩ := exists_readHead_of_receive hread
    have hm := hr.bound_of_readHead hhead
    obtain ⟨written, hwritten, hw⟩ := isWritten_of_readHead hr hm hhead
    have hfresh := hr.of_readHead hm hhead
    rw [hwritten, hb]
    exact .cons hm hw hs (ih ⟨hp.trans hfresh.progress, hh.trans hfresh.held⟩ h)

end Receiver

/-- Why a message was not passed on. -/
inductive ForwardError where
  | receive (error : ReceiveError)
  | send (error : SendError)
deriving Repr, DecidableEq

/-- It was too late to pass the message on. -/
def ForwardError.IsLate : ForwardError → Prop
  | .receive error => error.toClass = .timeout
  | .send error => error.toClass = .timeout

namespace Connection

variable {c c' : Connection} {clock clock' : Clock} {limits : Limits}

/-- Reads the next message and writes it, its body straight from the reading end. Gives its head and
the number of bytes that were written. -/
def forward (c : Connection) (clock : Clock) :
    Outcome ForwardError (Option (Head × Nat)) × Clock × Connection :=
  match c.receiver.readMessage clock with
  | (.ok (some message), clock, receiver) =>
    match { c with receiver }.relay message clock with
    | (outcome, _, clock, c) =>
      ((outcome.mapError ForwardError.send).map fun count => some (message.head, count), clock, c)
  | (.ok none, clock, receiver) => (.ok none, clock, { c with receiver })
  | (.error error, clock, receiver) => (.error (.receive error), clock, { c with receiver })
  | (.expired, clock, receiver) => (.expired, clock, { c with receiver })
  | (.stalled, clock, receiver) => (.stalled, clock, { c with receiver })

/-- Passes the next so many messages on. -/
def forwards : Nat → Connection → Clock →
    List (Outcome ForwardError (Option (Head × Nat))) × Clock × Connection
  | 0, c, clock => ([], clock, c)
  | count + 1, c, clock =>
    match c.forward clock with
    | (outcome, clock, c) =>
      match forwards count c clock with
      | (outcomes, clock, c) => (outcome :: outcomes, clock, c)

/-- What passing messages on comes to where it goes well. -/
def forwarded (messages : List (Head × Bytes)) :
    List (Outcome ForwardError (Option (Head × Nat))) :=
  messages.map fun m => .ok (some (m.1, m.1.encode.length + m.2.length))

/-- Everything that the connection is to read is there before the deadlines of both ends. -/
def Timely (c : Connection) (clock : Clock) : Prop :=
  c.receiver.inlet.Timely clock c.receiver.deadline ∧
    c.receiver.inlet.Timely clock c.sender.deadline

/-- The reading end stands before a head and these bytes, and the writing end keeps nothing back
from a sink that takes everything. -/
structure Stands (c : Connection) (limits : Limits) (bytes : Bytes) : Prop where
  fresh : c.receiver.Fresh limits
  bytes : c.receiver.inlet.bytes = bytes
  isOpen : c.sender.outlet.IsOpen
  buffer : c.sender.outlet.buffer = []

/-- A message whose body the reading end stands before is written, unless it is too late, and the
reading end then stands behind the body. -/
theorem Stands.relay {body rest : Bytes} {m m' : Message} {outcome : Outcome SendError Nat}
    (hc : c.Stands limits (body ++ rest)) (hs : m.head.bodySize = body.length)
    (hm : m.body = { length := m.head.bodySize, deadline := c.receiver.deadline })
    (h : c.relay m clock = (outcome, m', clock', c')) :
    outcome.EndsWell (fun e => e.toClass = .timeout) (c.Timely clock) ∧
      ∀ count, outcome = .ok count →
        count = m.head.encode.length + body.length ∧ c'.Stands limits rest ∧
        c'.sender.outlet.sink.received =
          c.sender.outlet.sink.received ++ (m.head.encode ++ body) ∧
        (c.Timely clock → c'.Timely clock') := by
  have hlength : m.body.length = body.length := by rw [hm, hs]
  have htake : c.receiver.inlet.bytes.take m.body.length = body := by
    rw [hc.bytes, hlength, List.take_left]
  have hle : m.body.length ≤ c.receiver.inlet.bytes.length := by
    rw [hc.bytes, hlength, List.length_append]
    exact Nat.le_add_right ..
  unfold Connection.relay at h
  rcases hsend : c.sender.send m clock c.receiver.inlet with ⟨sent, m₁, later, inlet, sender⟩
  rw [hsend] at h
  cases h
  have hcarries := Sender.carries_send (by rw [hm]) (by rw [hm]) hle hc.isOpen hsend
  obtain ⟨hdeadline, hends, hafter⟩ := hcarries
  rw [hm] at hends
  refine ⟨hends, fun count he => ?_⟩
  obtain rfl := he
  obtain ⟨hg, hopen⟩ := hafter count rfl
  rw [htake] at hg
  obtain ⟨hcount, hwritten, hbuffer⟩ := Sender.written_send hsend
  simp only [Message.encode, htake] at hcount hwritten
  simp only [Outlet.written, hc.buffer, hbuffer, List.append_nil] at hwritten
  have hrest : inlet.bytes = rest := List.append_cancel_left (hg.bytes.trans hc.bytes)
  have hfresh : Receiver.Fresh { c.receiver with inlet } limits :=
    ⟨hc.fresh.progress, hc.fresh.held⟩
  refine ⟨by rw [hcount, List.length_append], ⟨hfresh, hrest, hopen, hbuffer⟩, hwritten, ?_⟩
  rintro ⟨hr, ho⟩
  exact ⟨hg.timely_iff.2 hr, hg.timely_iff.2 (hdeadline ▸ ho)⟩

/-- A message is passed on, unless it is too late. -/
theorem Stands.forward {written body rest : Bytes} {head : Head}
    {outcome : Outcome ForwardError (Option (Head × Nat))}
    (hc : c.Stands limits (written ++ (body ++ rest)))
    (hm : limits.maxHeadBytes.toNat < Numeral.maxUnsigned)
    (hw : Head.IsWritten limits written head) (hs : head.bodySize = body.length)
    (h : c.forward clock = (outcome, clock', c')) :
    outcome.EndsWell ForwardError.IsLate (c.Timely clock) ∧
      ∀ answer, outcome = .ok answer →
        answer = some (head, head.encode.length + body.length) ∧ c'.Stands limits rest ∧
        c'.sender.outlet.sink.received =
          c.sender.outlet.sink.received ++ (head.encode ++ body) ∧
        (c.Timely clock → c'.Timely clock') := by
  rcases hread : c.receiver.readMessage clock with ⟨read, clock₁, r⟩
  obtain ⟨hends, hafter⟩ := hc.fresh.readMessage hm hw hc.bytes hread
  unfold Connection.forward at h
  rw [hread] at h
  cases read with
  | error error =>
    cases h
    exact ⟨⟨hends.1, fun ht => hends.2 ht.1⟩, by rintro _ ⟨⟩⟩
  | expired =>
    cases h
    exact ⟨fun ht => hends ht.1, by rintro _ ⟨⟩⟩
  | stalled =>
    cases h
    exact ⟨fun ht => hends ht.1, by rintro _ ⟨⟩⟩
  | ok answer =>
    obtain ⟨rfl, hg, hfresh, hdeadline⟩ := hafter answer rfl
    have hb : r.inlet.bytes = body ++ rest := List.append_cancel_left (hg.bytes.trans hc.bytes)
    have hc₁ : Stands { c with receiver := r } limits (body ++ rest) :=
      ⟨hfresh, hb, hc.isOpen, hc.buffer⟩
    have ht₁ : c.Timely clock → Timely { c with receiver := r } clock₁ := by
      rintro ⟨hr, hs⟩
      exact ⟨hg.timely_iff.2 (hdeadline ▸ hr), hg.timely_iff.2 hs⟩
    rcases hrelay : Connection.relay { c with receiver := r }
      { head, body := { length := head.bodySize, deadline := c.receiver.deadline } } clock₁ with
      ⟨sent, m, clock₂, c₂⟩
    obtain ⟨hends, hafter⟩ := hc₁.relay hs (by rw [hdeadline]) hrelay
    simp only [hrelay] at h
    cases h
    have hsent : sent.EndsWell _ (c.Timely clock) := hends.mono ht₁
    refine ⟨(hsent.mapError fun _ => id).map _, fun answer he => ?_⟩
    simp only [Outcome.map_eq_ok_iff, Outcome.mapError_eq_ok_iff] at he
    obtain ⟨count, rfl, rfl⟩ := he
    obtain ⟨rfl, hstands, hreceived, ht₂⟩ := hafter count rfl
    exact ⟨rfl, hstands, hreceived, fun ht => ht₂ (ht₁ ht)⟩

/-- Messages that the reading end stands before are passed on one behind the other, unless it is too
late; and after each of them the reading end stands behind its body. -/
theorem Stands.forwards {bytes : Bytes} {messages : List (Head × Bytes)}
    (hm : StartsWith limits bytes messages) (hc : c.Stands limits bytes)
    (ht : c.Timely clock ∨ ∀ outcome ∈ (c.forwards messages.length clock).1,
      ¬outcome.EndsLate ForwardError.IsLate) {count : Nat} (hn : count ≤ messages.length) :
    ∃ later c', c.forwards count clock = (forwarded (messages.take count), later, c') ∧
      c'.Stands limits (bytes.drop (extent (messages.take count))) ∧
      c'.sender.outlet.sink.received =
        c.sender.outlet.sink.received ++ normalForm (messages.take count) := by
  induction hm generalizing c clock count with
  | nil bytes =>
    obtain rfl := Nat.le_zero.1 hn
    exact ⟨clock, c, rfl, hc, (List.append_nil _).symm⟩
  | @cons written body bytes head messages hm hw hs _ ih =>
    cases count with
    | zero => exact ⟨clock, c, rfl, hc, (List.append_nil _).symm⟩
    | succ count =>
      rcases hforward : c.forward clock with ⟨outcome, clock₁, c₁⟩
      obtain ⟨hends, hafter⟩ := hc.forward hm hw hs hforward
      have hlate : c.Timely clock ∨ ¬outcome.EndsLate ForwardError.IsLate := by
        refine ht.imp_right fun ht => ht outcome ?_
        simp only [List.length_cons, Connection.forwards, hforward, List.mem_cons, true_or]
      obtain ⟨answer, rfl⟩ := hends.exists_ok hlate
      obtain ⟨rfl, hc₁, hreceived, hkept⟩ := hafter answer rfl
      have ht₁ : c₁.Timely clock₁ ∨ ∀ outcome ∈ (c₁.forwards messages.length clock₁).1,
          ¬outcome.EndsLate ForwardError.IsLate := by
        refine ht.imp hkept fun ht outcome ho => ht outcome ?_
        simp only [List.length_cons, Connection.forwards, hforward]
        exact List.mem_cons_of_mem _ ho
      obtain ⟨later, c', hrest, hstands, hreceived'⟩ := ih hc₁ ht₁ (Nat.le_of_succ_le_succ hn)
      refine ⟨later, c', ?_, ?_, ?_⟩
      · rw [Connection.forwards, hforward]
        simp only [hrest]
        rfl
      · have hskip : (written ++ (body ++ bytes)).drop (head.size + body.length) = bytes := by
          rw [hw.size_eq, ← List.length_append, ← List.append_assoc, List.drop_left]
        rw [← hskip, List.drop_drop] at hstands
        exact hstands
      · rw [hreceived', hreceived, List.append_assoc]
        rfl

/-- The next so many messages are not passed on too late: everything is there in time, or nothing
says that it was too late. -/
def KeepsTime (c : Connection) (count : Nat) (clock : Clock) : Prop :=
  c.Timely clock ∨
    ∀ outcome ∈ (c.forwards count clock).1, ¬outcome.EndsLate ForwardError.IsLate

/-- Messages that can be read are passed on to a sink that takes everything, unless it is too late:
after each of them the reading end stands right behind its body, and the sink has the normal form of
those that were passed on. That is read as the same messages and nothing behind them, each head with
the size that it has there; and passing it on gives the same bytes. -/
theorem forwards_normalForm {messages : List (Head × Bytes)} {reading : Clock}
    (hr : c.receiver.Fresh limits)
    (hread : c.receiver.receives messages.length reading = messages.map fun m => .ok (some m))
    (ho : c.sender.outlet.IsOpen) (hnew : c.sender.outlet.written = [])
    (ht : c.KeepsTime messages.length clock) :
    (∀ count ≤ messages.length, ∃ later c',
      c.forwards count clock = (forwarded (messages.take count), later, c') ∧
      c'.receiver.Fresh limits ∧
      c'.receiver.inlet.bytes = c.receiver.inlet.bytes.drop (extent (messages.take count)) ∧
      c'.sender.outlet.sink.received = normalForm (messages.take count)) ∧
    ∀ large : Limits, large.maxHeadBytes.toNat < Numeral.maxUnsigned →
      (∀ m ∈ messages, m.1.headers.valueCount ≤ large.maxHeaders.toNat ∧
        m.1.encode.length ≤ large.maxHeadBytes.toNat) →
      ∀ (second : Connection) (again : Clock), second.receiver.Ready large →
        second.receiver.inlet.bytes =
          (c.forwards messages.length clock).2.2.sender.outlet.sink.received →
        (second.receiver.inlet.InTime again second.receiver.deadline ∨
            (∀ outcome ∈ second.receiver.receives (messages.length + 1) again, ¬outcome.IsLate) →
          second.receiver.receives (messages.length + 1) again =
            (normal messages).map (fun m => .ok (some m)) ++ [.ok none]) ∧
        (second.sender.outlet.IsOpen → second.sender.outlet.written = [] →
          second.KeepsTime messages.length again →
          (second.forwards messages.length again).1 = forwarded (normal messages) ∧
          (second.forwards messages.length again).2.2.sender.outlet.sink.received =
            (c.forwards messages.length clock).2.2.sender.outlet.sink.received) := by
  have hstarts := hr.startsWith hread
  obtain ⟨hreceived, hbuffer⟩ := List.append_eq_nil_iff.1 hnew
  have hevery : ∀ count ≤ messages.length, ∃ later c',
      c.forwards count clock = (forwarded (messages.take count), later, c') ∧
      c'.receiver.Fresh limits ∧
      c'.receiver.inlet.bytes = c.receiver.inlet.bytes.drop (extent (messages.take count)) ∧
      c'.sender.outlet.sink.received = normalForm (messages.take count) := by
    intro count hn
    obtain ⟨later, c', hf, hc', hgot⟩ := Stands.forwards hstarts ⟨hr, rfl, ho, hbuffer⟩ ht hn
    exact ⟨later, c', hf, hc'.fresh, hc'.bytes, by rw [hgot, hreceived, List.nil_append]⟩
  refine ⟨hevery, fun large hm hfit second again hready hb => ?_⟩
  obtain ⟨later, c', hf, -, -, hgot⟩ := hevery messages.length (Nat.le_refl _)
  rw [hf] at hb ⊢
  rw [hgot, List.take_length] at hb
  have hlength : (normal messages).length = messages.length := List.length_map _
  have hw := hstarts.isWritten_normal hfit
  have hform := normalForm_normal messages
  refine ⟨fun hl => ?_, fun hopen hempty hkeeps => ?_⟩
  · have hall := Receiver.receives_of_written (normal messages) hm hw again hready
    rw [hlength] at hall
    exact hall (hb.trans hform.symm) hl
  · obtain ⟨hnone, hbuffer₂⟩ := List.append_eq_nil_iff.1 hempty
    have hstands : second.Stands large (normalForm (normal messages)) :=
      ⟨hready.toFresh, hb.trans hform.symm, hopen, hbuffer₂⟩
    rw [← hlength] at hkeeps ⊢
    obtain ⟨later₂, c₂, hf₂, -, hgot₂⟩ :=
      hstands.forwards (.of_isWritten_encode hm hw) hkeeps (Nat.le_refl _)
    rw [hf₂, hgot₂, hgot, hnone, List.nil_append, List.take_length, List.take_length]
    exact ⟨rfl, hform⟩

/-- Two messages in unusual spelling, and the beginning of a third. -/
def spelled : Bytes :=
  Utf8.encode "POST /a\nVIA: x\n content-LENGTH : 003 \r\nvia:y\n\nabc" ++
    Utf8.encode "GET /b\r\nlength-Content:  \n\r\nGE"

/-- The connection on which they come, in pieces, before it breaks. -/
def ofSpelled : Connection :=
  (start
    { pieces := [.chunk (spelled.take 30), .pause 5, .chunk (spelled.drop 30)]
      ending := .failure "reset" } {} {} 0).setDeadline (some 9)

/-- The two messages as they are read. -/
def spelledMessages : List (Head × Bytes) :=
  [({ statusLine := "POST /a"
      headers := ⟨⟨[("Content-Length", ["003"]), ("Via", ["x", "y"])], by decide⟩⟩
      contentLength := some 3
      size := 46 }, [97, 98, 99]),
    ({ statusLine := "GET /b"
       headers := ⟨⟨[("Length-Content", [""])], by simp⟩⟩
       contentLength := none
       size := 28 }, [])]

/-- What they are written as. -/
def respelled : Bytes :=
  Utf8.encode "POST /a\r\nContent-Length: 003\r\nVia: x\r\nVia: y\r\n\r\nabc" ++
    Utf8.encode "GET /b\r\nLength-Content: \r\n\r\n"

theorem forwards_spelled :
    (∃ later c', ofSpelled.forwards 2 {} = (forwarded spelledMessages, later, c') ∧
      c'.receiver.inlet.bytes = Utf8.encode "GE" ∧ c'.sender.outlet.sink.received = respelled) ∧
    (start (.ofBytes respelled) {} {} 0).receiver.receives 3 {} =
      (normal spelledMessages).map (fun m => .ok (some m)) ++ [.ok none] ∧
    ((start (.ofBytes respelled) {} {} 0).forwards 2 {}).2.2.sender.outlet.sink.received =
      respelled := by
  have hread : ofSpelled.receiver.receives spelledMessages.length {} =
      spelledMessages.map fun m => .ok (some m) := by
    decide +kernel
  have hfit : ∀ m ∈ spelledMessages, m.1.headers.valueCount ≤ 64 ∧ m.1.encode.length ≤ 8192 := by
    decide +kernel
  have hform : normalForm spelledMessages = respelled := by
    decide +kernel
  have hrest : ofSpelled.receiver.inlet.bytes.drop (extent spelledMessages) = Utf8.encode "GE" := by
    decide +kernel
  have htimely : ofSpelled.Timely {} := ⟨⟨rfl, rfl⟩, ⟨rfl, rfl⟩⟩
  obtain ⟨hevery, hsecond⟩ := forwards_normalForm ⟨rfl, rfl⟩ hread rfl rfl (.inl htimely)
  obtain ⟨later, c', hf, -, hbytes, hgot⟩ := hevery 2 (Nat.le_refl 2)
  have hreceived : (ofSpelled.forwards spelledMessages.length {}).2.2.sender.outlet.sink.received =
      respelled := by
    rw [← hform]
    exact (congrArg (·.2.2.sender.outlet.sink.received) hf).trans hgot
  obtain ⟨hreceives, hagain⟩ := hsecond {} (by decide) hfit (start (.ofBytes respelled) {} {} 0) {}
    (Receiver.ready_start rfl {} 0) ((Source.bytes_ofBytes _).trans hreceived.symm)
  obtain ⟨-, hsame⟩ := hagain rfl rfl (.inl ⟨⟨rfl, rfl⟩, ⟨rfl, rfl⟩⟩)
  exact ⟨⟨later, c', hf, hbytes.trans hrest, hgot.trans hform⟩, hreceives (.inl ⟨rfl, rfl, rfl⟩),
    hsame.trans hreceived⟩

end Connection

end Courier
