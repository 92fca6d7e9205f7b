import Courier.Proofs.Receiver.Messages
import Courier.Proofs.Sender

/-!
# Messages there and back

Messages that drafts made, sent one behind the other, are received as they were: each with its head
and its bytes, in the same order, and nothing behind the last (`receives_of_sendAll`). It does not
matter how the bytes are cut into pieces on the way.
-/

namespace Courier

namespace Receiver

/-- A receiver that stands before the written forms of heads, each with the bytes that it declares
behind it, reads them and then none, unless it is too late. -/
theorem receives_of_written (messages : List (Head × Bytes)) {limits : Limits}
    (hm : limits.maxHeadBytes.toNat < Numeral.maxUnsigned)
    (hw : ∀ m ∈ messages, Head.IsWritten limits m.1.encode m.1 ∧ m.1.bodySize = m.2.length)
    {r : Receiver} (clock : Clock) (hr : r.Ready limits)
    (hb : r.inlet.bytes = messages.flatMap fun m => m.1.encode ++ m.2)
    (hl : r.inlet.InTime clock r.deadline ∨
      ∀ outcome ∈ r.receives (messages.length + 1) clock, ¬outcome.IsLate) :
    r.receives (messages.length + 1) clock =
      messages.map (fun m => .ok (some m)) ++ [.ok none] := by
  induction messages generalizing r clock with
  | nil =>
    rcases h : r.receive clock with ⟨outcome, clock', r'⟩
    have hlate : ¬outcome.IsLate := by
      rcases hl with hi | hl
      · exact (not_late_of_receive hr hm hi h).1
      · exact hl outcome (by simp only [List.length_nil, receives, h, List.mem_singleton])
    simp only [List.length_nil, receives, h, receive_of_nil hr hm hb h hlate]
    rfl
  | cons m rest ih =>
    rcases h : r.receive clock with ⟨outcome, clock', r'⟩
    obtain ⟨⟨hhead, hsize⟩, hw⟩ := List.forall_mem_cons.1 hw
    have hlate : ¬outcome.IsLate := by
      rcases hl with hi | hl
      · exact (not_late_of_receive hr hm hi h).1
      · exact hl outcome (by simp only [receives, h, List.mem_cons, true_or])
    rw [List.flatMap_cons, List.append_assoc] at hb
    obtain ⟨rfl, hb', hr'⟩ := receive_of_isWritten hr hm hhead hsize hb h hlate
    have hl' : r'.inlet.InTime clock' r'.deadline ∨
        ∀ outcome ∈ r'.receives (rest.length + 1) clock', ¬outcome.IsLate := by
      rcases hl with hi | hl
      · exact .inl ((not_late_of_receive hr hm hi h).2 _ rfl)
      · apply Or.inr
        intro outcome ho
        apply hl outcome
        rw [List.length_cons, receives, h]
        exact List.mem_cons_of_mem _ ho
    rw [List.length_cons, receives, h, List.map_cons, List.cons_append]
    exact congrArg _ (ih hw clock' hr' hb' hl')

/-- A receiver that stands before messages reads them and then none, unless it is too late. -/
theorem receives_of_bytes (messages : List Built) {limits : Limits}
    (hm : limits.maxHeadBytes.toNat < Numeral.maxUnsigned)
    (hfit : ∀ m ∈ messages, m.head.headers.valueCount ≤ limits.maxHeaders.toNat ∧
      m.head.size ≤ limits.maxHeadBytes.toNat)
    {r : Receiver} {clock : Clock} (hr : r.Ready limits)
    (hb : r.inlet.bytes = messages.flatMap (·.outgoing.encode))
    (hl : r.inlet.InTime clock r.deadline ∨
      ∀ outcome ∈ r.receives (messages.length + 1) clock, ¬outcome.IsLate) :
    r.receives (messages.length + 1) clock =
      messages.map (fun m => .ok (some (m.head, m.bytes))) ++ [.ok none] := by
  have hw : ∀ m ∈ messages.map fun m : Built => (m.head, m.bytes),
      Head.IsWritten limits m.1.encode m.1 ∧ m.1.bodySize = m.2.length := by
    rw [List.forall_mem_map]
    intro m hm
    obtain ⟨hcount, hsize⟩ := hfit m hm
    exact ⟨m.isWritten_encode hcount hsize, m.bodySize_head⟩
  have hall := receives_of_written (messages.map fun m => (m.head, m.bytes)) hm hw clock hr
  rw [List.length_map, List.flatMap_map, List.map_map] at hall
  refine hall ?_ hl
  rw [hb]
  exact List.flatMap_congr fun m _ => m.encode_outgoing

end Receiver

/-- Messages that drafts made and that fit the limits are sent well to a sink that takes everything,
and from a stream with the bytes of the sink, in any pieces, they are received as they were, unless
it is too late. -/
theorem receives_of_sendAll (messages : List Built) (limits : Limits)
    (hm : limits.maxHeadBytes.toNat < Numeral.maxUnsigned)
    (hfit : ∀ m ∈ messages, m.head.headers.valueCount ≤ limits.maxHeaders.toNat ∧
      m.head.size ≤ limits.maxHeadBytes.toNat)
    (sink : Sink) (hroom : sink.room = none) (hnew : sink.received = []) (sendLimits : Limits)
    (sendStart : Time) (sendClock : Clock) :
    ∃ clock sender,
      (Sender.start sink sendLimits sendStart).sendAll (messages.map (·.outgoing)) sendClock =
        (.ok (messages.map (·.outgoing.encode.length)), clock, sender) ∧
      ∀ source : Source, source.ending = .finish → source.bytes = sender.outlet.sink.received →
      ∀ (start : Time) (clock : Clock),
        clock.Allows (limits.timeout.map (start + ·)) (source.settled clock.now) ∨
          (∀ outcome ∈ (Receiver.start source limits start).receives (messages.length + 1) clock,
            ¬outcome.IsLate) →
        (Receiver.start source limits start).receives (messages.length + 1) clock =
          messages.map (fun m => .ok (some (m.head, m.bytes))) ++ [.ok none] := by
  obtain ⟨clock, sender, hs, hreceived⟩ :=
    Sender.exists_sendAll messages (s := .start sink sendLimits sendStart) sendClock hroom rfl
  refine ⟨clock, sender, hs, fun source hf hb start clock hl => ?_⟩
  have hbytes : source.bytes = messages.flatMap (·.outgoing.encode) := by
    rw [hb, hreceived]
    simp only [Sender.start, Outlet.buffered, hnew, List.nil_append]
  exact Receiver.receives_of_bytes messages hm hfit (Receiver.ready_start hf limits start) hbytes
    (hl.imp_left fun ha => ⟨hf, ha⟩)

theorem receives_of_sent :
    ∃ m : Built, m.head.contentLength = some 2 ∧ m.bytes = [72, 105] ∧ ∃ clock sender,
      (Sender.start {} {} 0).sendAll [m.outgoing, m.outgoing] {} =
        (.ok [m.outgoing.encode.length, m.outgoing.encode.length], clock, sender) ∧
      (Receiver.start (.ofBytes sender.outlet.sink.received) {} 0).receives 3 {} =
        [.ok (some (m.head, m.bytes)), .ok (some (m.head, m.bytes)), .ok none] := by
  have hb : ∃ m : Built, m.head.contentLength = some 2 ∧ m.bytes = [72, 105] ∧
      m.head.headers.valueCount ≤ 64 ∧ m.head.size ≤ 8192 := by
    refine ⟨⟨⟨⟨Draft.toHead ⟨"A", ⟨⟨[("Content-Length", ["2"])], by simp⟩⟩⟩ (some 2),
      { length := 2 }⟩, .direct (.ofBytes [72, 105])⟩, [72, 105], "A", [(" content-length ", "9")],
      ⟨"A", ⟨⟨[("Content-Length", ["9"])], by simp⟩⟩⟩, rfl, .inl rfl⟩, rfl, rfl, ?_, ?_⟩ <;>
      decide +kernel
  obtain ⟨m, hlength, hbytes, hfit⟩ := hb
  obtain ⟨clock, sender, hs, hr⟩ := receives_of_sendAll [m, m] {} (by decide)
    (by simpa using hfit) {} rfl rfl {} 0 {}
  refine ⟨m, hlength, hbytes, clock, sender, hs, ?_⟩
  exact hr (.ofBytes sender.outlet.sink.received) rfl (Source.bytes_ofBytes _) 0 {}
    (.inl ⟨rfl, rfl⟩)

end Courier
