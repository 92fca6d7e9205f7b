import Courier.Proofs.Message.Basic
import Courier.Proofs.Message.Draft
import Courier.Sender

/-!
# What a sender has sent

Whatever sending a message comes to, a beginning of its written form has been put out (`puts_send`),
and when it ends well the sink has all of it (`written_send`). Messages that drafts made are sent
one behind the other to a sink that takes everything (`exists_sendAll`).
-/

namespace Courier

/-- The written form of a message with its body. -/
def Outgoing.encode (o : Outgoing) : Bytes :=
  o.message.encode o.inlet

theorem Built.encode_outgoing (m : Built) : m.outgoing.encode = m.head.encode ++ m.bytes := by
  rw [Outgoing.encode, Message.encode, m.body_eq, m.inlet_eq, Inlet.bytes_direct, List.take_length]
  rfl

namespace Sender

/-! ## One message -/

/-- A message that is sent well has been put out whole, and nothing of it is kept back. -/
theorem written_send {s s' : Sender} {m m' : Message} {clock clock' : Clock} {inlet inlet' : Inlet}
    {count : Nat} (h : s.send m clock inlet = (.ok count, m', clock', inlet', s')) :
    count = (m.encode inlet).length ∧ s'.outlet.written = s.outlet.written ++ m.encode inlet ∧
      s'.outlet.buffer = [] := by
  unfold send at h
  rcases hw : m.write s.deadline { clock := clock.begin, inlet, outlet := s.outlet } with
    ⟨outcome, m₁, c⟩
  rw [hw] at h
  simp only [Prod.mk.injEq, Outcome.within_eq_ok_iff] at h
  obtain ⟨rfl, -, -, -, rfl⟩ := h
  exact Message.written_write hw

/-- Whatever sending a message comes to, a beginning of it has been put out. -/
theorem puts_send {s s' : Sender} {m m' : Message} {clock clock' : Clock} {inlet inlet' : Inlet}
    {outcome : Outcome SendError Nat}
    (h : s.send m clock inlet = (outcome, m', clock', inlet', s')) :
    s.outlet.Puts (m.encode inlet) s'.outlet := by
  unfold send at h
  rcases hw : m.write s.deadline { clock := clock.begin, inlet, outlet := s.outlet } with
    ⟨written, m₁, c⟩
  rw [hw] at h
  cases h
  exact Message.puts_write hw

theorem exists_send {s : Sender} {m : Message} (clock : Clock) {inlet : Inlet}
    (hc : m.body.consumed = false) (hm : m.head.bodySize = m.body.length)
    (hl : m.body.length ≤ inlet.bytes.length) (hi : inlet.AtHand) (ho : s.outlet.IsOpen) :
    ∃ count m' clock' inlet' s', s.send m clock inlet = (.ok count, m', clock', inlet', s') ∧
      s'.outlet.IsOpen := by
  obtain ⟨count, m', c, hw, ho'⟩ := Message.exists_write (m := m) s.deadline
    (c := { clock := clock.begin, inlet, outlet := s.outlet }) hc hm hl hi ho
  exact ⟨count, m', c.clock, c.inlet, { s with outlet := c.outlet }, by rw [send, hw]; rfl, ho'⟩

/-- A message that a draft made is sent to a sink that takes everything. -/
theorem exists_send_outgoing (m : Built) {s : Sender} (clock : Clock) (ho : s.outlet.IsOpen) :
    ∃ count m' clock' inlet' s',
      s.send m.outgoing.message clock m.outgoing.inlet = (.ok count, m', clock', inlet', s') ∧
        s'.outlet.IsOpen := by
  have hbody := m.body_eq
  have hl : m.outgoing.message.body.length ≤ m.outgoing.inlet.bytes.length := by
    rw [hbody, m.inlet_eq, Inlet.bytes_direct]
  exact exists_send clock (by rw [hbody]) (by rw [hbody]; exact m.bodySize_head) hl
    (m.inlet_eq ▸ Inlet.atHand_direct m.bytes) ho

/-- Closing puts nothing out beside what is kept back, and keeps nothing back if it ends well. -/
theorem written_close {s s' : Sender} {clock clock' : Clock} {outcome : Outcome SendError Unit}
    (h : s.close clock = (outcome, clock', s')) :
    s'.outlet.written = s.outlet.written ∧ ∀ done, outcome = .ok done → s'.outlet.buffer = [] := by
  unfold close at h
  rcases hs : Outlet.settle clock.begin s.deadline s.outlet.close with ⟨settled, clock₁, o⟩
  rw [hs] at h
  cases h
  obtain ⟨rfl, hd⟩ := Outlet.settle_eq hs
  obtain ⟨hw, hb⟩ := Outlet.puts_close (o := s.outlet) rfl
  refine ⟨hw, fun done he => hb (hd.1 ?_)⟩
  simpa using he

theorem exists_close {s : Sender} (clock : Clock) (ho : s.outlet.IsOpen) :
    ∃ clock' s', s.close clock = (.ok (), clock', s') := by
  obtain ⟨closed, hc⟩ := ho.exists_close
  exact ⟨clock.begin, { s with outlet := closed }, by rw [close, hc]; rfl⟩

/-! ## Messages in a row -/

/-- Sends messages one behind the other, as long as that goes well, and gives the number of bytes of
each. -/
def sendAll : List Outgoing → Sender → Clock → Outcome SendError (List Nat) × Clock × Sender
  | [], s, clock => (.ok [], clock, s)
  | o :: rest, s, clock =>
    match s.send o.message clock o.inlet with
    | (.ok count, _, clock, _, s) =>
      match sendAll rest s clock with
      | (outcome, clock, s) => (outcome.map (count :: ·), clock, s)
    | (.error error, _, clock, _, s) => (.error error, clock, s)
    | (.expired, _, clock, _, s) => (.expired, clock, s)
    | (.stalled, _, clock, _, s) => (.stalled, clock, s)

/-- A sink that takes everything is sent the messages whole and one behind the other. -/
theorem exists_sendAll (messages : List Built) {s : Sender} (clock : Clock) (ho : s.outlet.IsOpen)
    (hb : s.outlet.buffer = []) :
    ∃ clock' s', sendAll (messages.map (·.outgoing)) s clock =
        (.ok (messages.map (·.outgoing.encode.length)), clock', s') ∧
      s'.outlet.sink.received =
        s.outlet.sink.received ++ messages.flatMap (·.outgoing.encode) := by
  induction messages generalizing s clock with
  | nil => exact ⟨clock, s, rfl, (List.append_nil _).symm⟩
  | cons m rest ih =>
    obtain ⟨count, m', clock', inlet', s₁, hs, ho₁⟩ := exists_send_outgoing m clock ho
    obtain ⟨rfl, hw, hb₁⟩ := written_send hs
    obtain ⟨clock₂, s₂, hr, hreceived⟩ := ih clock' ho₁ hb₁
    refine ⟨clock₂, s₂, ?_, ?_⟩
    · rw [List.map_cons, sendAll, hs]
      simp only [hr]
      rfl
    · simp only [Outlet.written, hb, hb₁, List.append_nil] at hw
      rw [hreceived, hw, List.flatMap_cons, List.append_assoc]
      rfl

end Sender

end Courier
