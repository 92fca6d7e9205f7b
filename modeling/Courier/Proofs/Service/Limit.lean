import Courier.App
import Courier.Proofs.Receiver.Passes
import Courier.Proofs.Service
import Courier.Settings.Basic

/-!
# The largest limit

A line is read up to one byte beyond what the head may have. That is one more than a word can count
if the head may have as many bytes as it can, and no byte at all then: under the largest limit that
can be set, every stream is taken for one that has ended, and every client is left without an answer
(`serve_of_unbounded`). Under any other, the limit of a line is what it should be in every pass, the
end is seen only where it is, and who has sent a byte is not left without an answer by a run that
ends well (`serve_hears`).
-/

namespace Courier

theorem Response.encode_ne_nil {r : Response} {outgoing : Outgoing}
    (h : r.toOutgoing = .ok outgoing) : r.encode ≠ [] := by
  rw [encode, h]
  simp [Head.encode, Bytes.crlf]

namespace Receiver

variable {r r' : Receiver} {clock clock' : Clock}

/-- Below the largest limit the one byte more does not wrap around. -/
theorem Sound.lineLimit_eq (hs : r.Sound) :
    r.lineLimit.toNat = r.progress.remaining.toNat + 1 := by
  rw [hs.toNat_lineLimit, Head.Progress.remaining, UInt64.toNat_ofNat']
  have := hs.bound
  simp only [Numeral.maxUnsigned] at this
  omega

/-- A pass that reads no byte has come to the end of the stream that the loop began with. -/
theorem Reaches.end_of_readLine {limits : Limits} {first : Receiver} {inlet : Inlet}
    (h : Reaches limits first r)
    (hl : r.inlet.readLine clock r.deadline r.lineLimit.toNat = (.ok [], clock', inlet)) :
    r.inlet.bytes = [] ∧ first.inlet.source.ending = .finish := by
  have hlimit : r.lineLimit.toNat ≠ 0 := by
    rw [h.toSound.lineLimit_eq]
    exact Nat.succ_ne_zero _
  obtain ⟨hb, he⟩ := Inlet.end_of_gather hlimit hl
  exact ⟨hb, h.ending ▸ he⟩

/-- There is no head only if the last line has no byte. -/
theorem exists_readLine_of_pass (h : r.pass clock = .done (.ok none) clock' r') :
    ∃ inlet, r.inlet.readLine clock r.deadline r.lineLimit.toNat = (.ok [], clock', inlet) := by
  cases steps_of_pass h with
  | last hl => exact ⟨_, hl⟩
  | decoded hl hd ha ho => exact absurd (Outcome.ofExcept_eq_ok_iff.1 ho) ha

end Receiver

namespace Service

open Receiver

variable {σ : Type}

/-- Under the largest limit nothing is read, and that is not taken for a failure. -/
theorem serve_of_unbounded (router : Router σ) (maxBody : Nat) {s : Session σ} {limits : Limits}
    (hr : s.connection.receiver.Fresh limits)
    (hm : limits.maxHeadBytes.toNat = Numeral.maxUnsigned) :
    serve router maxBody s = (.ok (), s.heard s.clock.begin s.connection.receiver) := by
  have hd : demand maxBody s.connection.receiver s.clock =
      (.ok .nothing, s.clock.begin, s.connection.receiver) := by
    rw [demand, readMessage, hr.readHead_of_unbounded hm]
    rfl
  rw [serve_of_demand router hd]
  rfl

/-- Who has sent a byte gets one, too, if the run ends well. -/
theorem received_ne_nil_of_serve {router : Router σ} {maxBody : Nat} {s s' : Session σ}
    {limits : Limits} (hr : s.connection.receiver.Fresh limits)
    (hm : limits.maxHeadBytes.toNat < Numeral.maxUnsigned)
    (hw : s.connection.sender.outlet.written = [])
    (hb : s.connection.receiver.inlet.bytes ≠ []) (h : serve router maxBody s = (.ok (), s')) :
    s'.connection.sender.outlet.sink.received ≠ [] := by
  rcases hd : demand maxBody s.connection.receiver s.clock with ⟨found, clock, r⟩
  by_cases hn : ∀ d, found ≠ .ok d
  · rw [serve_of_no_demand router hd hn, Prod.mk.injEq, Outcome.map_eq_ok_iff] at h
    obtain ⟨⟨d, rfl, -⟩, -⟩ := h
    exact absurd rfl (hn d)
  · obtain ⟨d, rfl⟩ := not_forall_not.1 hn
    rw [serve_of_demand router hd] at h
    obtain ⟨-, hz⟩ | ⟨response, -, -, hall⟩ := sent_reply (s := s.heard clock r) hw h
    · obtain rfl := hz rfl
      exact absurd (bytes_eq_nil_of_demand hr hm hd) hb
    · obtain ⟨⟨outgoing, ho⟩, hsent⟩ := hall rfl
      rw [hsent]
      exact Response.encode_ne_nil ho

/-- Below the largest limit that can be set, what a line may have never wraps around, the stream is
found to have ended only where it has, and no run that ends well leaves a client without an answer.
Under the largest limit all of them do. -/
theorem serve_hears (settings : Settings) (router : Router σ) (source : Source) (sink : Sink)
    (hnew : sink.received = []) (start : Time) (deadline : Deadline) {s : Session σ}
    (hs : s.connection =
      (Connection.start source sink settings.limits start).setDeadline deadline) :
    (settings.maxHeadBytes.toNat < Numeral.maxUnsigned →
      (∀ pass ∈ s.connection.receiver.passes s.clock.begin,
        pass.1.lineLimit.toNat = pass.1.progress.remaining.toNat + 1 ∧
        ∀ later inlet,
          pass.1.inlet.readLine pass.2 pass.1.deadline pass.1.lineLimit.toNat =
            (.ok [], later, inlet) → pass.1.inlet.bytes = [] ∧ source.ending = .finish) ∧
      (∀ later r, s.connection.receiver.readHead s.clock = (.ok none, later, r) →
        source.bytes = [] ∧ source.ending = .finish) ∧
      ∀ s', serve router settings.maxBodyBytes.toNat s = (.ok (), s') → source.bytes ≠ [] →
        s'.connection.sender.outlet.sink.received ≠ []) ∧
    (settings.maxHeadBytes.toNat = Numeral.maxUnsigned →
      s.connection.receiver.lineLimit.toNat = 0 ∧
      s.connection.receiver.readHead s.clock = (.ok none, s.clock.begin, s.connection.receiver) ∧
      ∃ s', serve router settings.maxBodyBytes.toNat s = (.ok (), s') ∧
        s'.connection.sender.outlet.sink.received = []) := by
  have hfresh : s.connection.receiver.Fresh settings.limits := hs ▸ ⟨rfl, rfl⟩
  have hinlet : s.connection.receiver.inlet = .buffered source := by
    rw [hs]
    rfl
  have hbytes : s.connection.receiver.inlet.bytes = source.bytes := by
    rw [hinlet]
    rfl
  have hending : s.connection.receiver.inlet.source.ending = source.ending := by
    rw [hinlet]
    rfl
  have hnone : s.connection.sender.outlet.sink.received = [] := by
    rw [hs]
    exact hnew
  have hwritten : s.connection.sender.outlet.written = [] := by
    rw [hs]
    exact List.append_eq_nil_iff.2 ⟨hnew, rfl⟩
  refine ⟨fun hm => ⟨fun pass hpass => ?_, fun later r hread => ?_, fun s' hserve hne => ?_⟩,
    fun hm => ⟨hfresh.lineLimit_eq_zero hm, hfresh.readHead_of_unbounded hm s.clock, ?_⟩⟩
  · have hstart := (hfresh.reaches hm).of_mem_passes hpass
    refine ⟨hstart.toSound.lineLimit_eq, fun later inlet hline => ?_⟩
    obtain ⟨hb, he⟩ := hstart.end_of_readLine hline
    exact ⟨hb, hending.symm.trans he⟩
  · refine ⟨hbytes ▸ bytes_eq_nil_of_readHead hfresh hm hread, ?_⟩
    obtain ⟨last, hlast, outcome, clock', r', hpass, hlines⟩ :=
      exists_last_pass s.connection.receiver s.clock.begin
    rw [readLines_of_readHead hread] at hlines
    cases hlines
    obtain ⟨inlet, hline⟩ := exists_readLine_of_pass hpass
    obtain ⟨-, he⟩ := ((hfresh.reaches hm).of_mem_passes hlast).end_of_readLine hline
    exact hending.symm.trans he
  · exact received_ne_nil_of_serve hfresh hm hwritten (hbytes ▸ hne) hserve
  · exact ⟨_, serve_of_unbounded router _ hfresh hm, hnone⟩

/-- A client that asks for the root. -/
def greeting : Source :=
  .ofBytes (Utf8.encode "GET / HTTP/1.1\r\n\r\n")

/-- The session with it. -/
def greeted (settings : Settings) : Session Store :=
  { clock := {}
    connection := (Connection.start greeting {} settings.limits 0).setDeadline (some 9)
    state := .empty }

theorem serve_hears_greeting :
    ∃ s', serve App.router 1048576 (greeted {}) = (.ok (), s') ∧
      s'.connection.sender.outlet.sink.received ≠ [] := by
  rcases h : serve App.router 1048576 (greeted {}) with ⟨outcome, s'⟩
  obtain rfl : outcome = .ok () := by
    rw [← (Prod.mk.inj h).1]
    decide +kernel
  obtain ⟨-, -, hanswered⟩ :=
    (serve_hears {} App.router greeting {} rfl 0 (some 9) (s := greeted {}) rfl).1 (by decide)
  exact ⟨s', rfl, hanswered s' h (by decide)⟩

/-- The largest limit. -/
def largest : Settings :=
  { maxHeadBytes := 18446744073709551615 }

/-- It may be set, and the same client is left without an answer then. -/
theorem serve_deaf_at_largest :
    largest.validate = .ok () ∧ (greeted largest).connection.receiver.lineLimit = 0 ∧
      greeting.bytes ≠ [] ∧
      (greeted largest).connection.receiver.readHead {} =
        (.ok none, Clock.begin {}, (greeted largest).connection.receiver) ∧
      ∃ s', serve App.router largest.maxBodyBytes.toNat (greeted largest) = (.ok (), s') ∧
        s'.connection.sender.outlet.sink.received = [] := by
  have hfresh : (greeted largest).connection.receiver.Fresh largest.limits := ⟨rfl, rfl⟩
  have hlargest : largest.limits.maxHeadBytes.toNat = Numeral.maxUnsigned := by decide
  exact ⟨by decide +kernel, by decide, by decide, hfresh.readHead_of_unbounded hlargest {}, _,
    serve_of_unbounded App.router _ hfresh hlargest, rfl⟩

end Service

end Courier
