import Courier.Proofs.Receiver.Messages
import Courier.Proofs.Response
import Courier.Proofs.Router
import Courier.Proofs.Sender
import Courier.Service

/-!
# What a client is answered

A run of the service reads what the client asks for, has it answered, and writes one response. Who
reads leaves the sender alone, and who writes leaves the receiver alone (`reply_keeps`), so what is
answered is known before a byte of it is written.

What is read is a whole request, or nothing (`exists_isWritten_of_demand`, `eq_nothing_of_unread`),
and what is sent is a beginning of one response, or all of it if the run ends well (`sent_reply`).
`serve_answers_whole` puts together what a client can rely on.
-/

namespace Courier

theorem Response.encode_outgoing {r : Response} {outgoing : Outgoing}
    (h : r.toOutgoing = .ok outgoing) : outgoing.encode = r.encode := by
  obtain ⟨m, rfl, hb⟩ := exists_built h
  rw [m.encode_outgoing, hb, encode_of_toOutgoing h]
  rfl

/-- The bytes are a request in writing: its head, within the limits, and the body that the head
declares. -/
def Request.IsWritten (limits : Limits) (bytes : Bytes) (request : Request) : Prop :=
  ∃ written, bytes = written ++ request.body ∧
    Head.IsWritten limits written request.head ∧
    request.head.requestLine = .ok request.line ∧
    request.body.length = request.head.bodySize

namespace Service

open Receiver

variable {σ : Type}

/-! ## Reading -/

/-- There is no head to be read, or the body that would have to be read cannot be. -/
inductive Unread (maxBody : Nat) (r : Receiver) (clock : Clock) : Prop
  | head {outcome : Outcome ReceiveError (Option Message)} {later : Clock} {r' : Receiver}
    (h : r.readMessage clock = (outcome, later, r')) (hn : ∀ m, outcome ≠ .ok (some m))
  | body {m : Message} {later : Clock} {r' : Receiver} {line : RequestLine}
    {outcome : Outcome BodyError Bytes} {rest : Body × Clock × Inlet}
    (h : r.readMessage clock = (.ok (some m), later, r')) (hl : m.head.requestLine = .ok line)
    (hm : m.body.length ≤ maxBody) (hb : m.body.read later r'.inlet = (outcome, rest))
    (hn : ∀ bytes, outcome ≠ .ok bytes)

/-- Nothing is asked for by what is not read. -/
theorem eq_nothing_of_unread {maxBody : Nat} {r r' : Receiver} {clock clock' : Clock} {d : Demand}
    (hu : Unread maxBody r clock) (h : demand maxBody r clock = (.ok d, clock', r')) :
    d = .nothing := by
  unfold demand at h
  cases hu with
  | @head read _ _ hr hn =>
    rw [hr] at h
    rcases read with (_ | m) | error | _ | _
    · cases h
      rfl
    · exact absurd rfl (hn m)
    all_goals cases h
  | @body _ _ _ _ got _ hr hl hm hb hn =>
    rw [hr] at h
    simp only [examine, hl, if_neg (Nat.not_lt.2 hm), hb] at h
    cases got with
    | ok bytes => exact absurd rfl (hn bytes)
    | _ => cases h

/-- What is asked for was read whole, and the receiver stands behind it. -/
theorem exists_isWritten_of_demand {maxBody : Nat} {r r' : Receiver} {limits : Limits}
    {clock clock' : Clock} {request : Request} (hr : r.Fresh limits)
    (hm : limits.maxHeadBytes.toNat < Numeral.maxUnsigned)
    (h : demand maxBody r clock = (.ok (.request request), clock', r')) :
    ∃ written, r.inlet.bytes = written ++ r'.inlet.bytes ∧ request.IsWritten limits written := by
  unfold demand at h
  split at h
  · rename_i m later r₁ hread
    obtain ⟨head, hhead, rfl⟩ := exists_readHead_of_readMessage hread
    obtain ⟨written, hb, hw⟩ := isWritten_of_readHead hr hm hhead
    unfold examine at h
    split at h
    · cases h
    · rename_i line hl
      split_ifs at h
      · cases h
      · rcases hbody : Body.read { length := head.bodySize, deadline := r₁.deadline } later r₁.inlet
          with ⟨got, spent, clock₂, inlet⟩
        rw [hbody] at h
        simp only [Prod.mk.injEq, Outcome.map_eq_ok_iff, Outcome.mapError_eq_ok_iff] at h
        obtain ⟨⟨body, rfl, he⟩, -, rfl⟩ := h
        cases he
        obtain ⟨-, hlength, hg⟩ := Body.gives_read hbody
        refine ⟨written ++ body, ?_, written, rfl, hw, hl, hlength⟩
        rw [hb, ← hg.bytes, List.append_assoc]
  all_goals cases h

theorem bytes_eq_nil_of_demand {maxBody : Nat} {r r' : Receiver} {limits : Limits}
    {clock clock' : Clock} (hr : r.Fresh limits)
    (hm : limits.maxHeadBytes.toNat < Numeral.maxUnsigned)
    (h : demand maxBody r clock = (.ok .nothing, clock', r')) : r.inlet.bytes = [] := by
  unfold demand at h
  split at h
  · unfold examine at h
    split at h
    · cases h
    · split_ifs at h
      · cases h
      · simp at h
  · rename_i hread
    exact bytes_eq_nil_of_readHead hr hm (readHead_of_readMessage_eq_none hread)
  all_goals cases h

/-- Nothing can be read of a stream without bytes. -/
theorem unread_of_bytes_eq_nil {maxBody : Nat} {r : Receiver} {limits : Limits} {clock : Clock}
    (hr : r.Fresh limits) (hm : limits.maxHeadBytes.toNat < Numeral.maxUnsigned)
    (hb : r.inlet.bytes = []) : Unread maxBody r clock := by
  rcases hread : r.readMessage clock with ⟨read, later, r'⟩
  apply Unread.head hread
  intro m hn
  rw [hn] at hread
  obtain ⟨head, hhead, -⟩ := exists_readHead_of_readMessage hread
  obtain ⟨written, he, hw⟩ := isWritten_of_readHead hr hm hhead
  rw [hb] at he
  exact hw.ne_nil (List.append_eq_nil_iff.1 he.symm).1

/-! ## Answering -/

/-- The session with a record beside its state. -/
def Session.logged (s : Session σ) (log : List Request) : Session (σ × List Request) :=
  { clock := s.clock, connection := s.connection, state := (s.state, log) }

/-- A response is written whatever state there is. -/
theorem answer_logged {response : Response} {s s' : Session σ} {outcome : Outcome ServeError Unit}
    (h : answer response s = (outcome, s')) (log : List Request) :
    answer response (s.logged log) = (outcome, s'.logged log) := by
  unfold answer at h ⊢
  unfold Session.logged
  split
  · rename_i hb
    rw [hb] at h
    cases h
    rfl
  · rename_i outgoing hb
    simp only [hb] at h
    split
    all_goals
      rename_i hs
      rw [hs] at h
      cases h
      rfl

/-- Writing leaves the receiver alone, and does not fail for what was read. -/
theorem answer_keeps {response : Response} {s s' : Session σ} {outcome : Outcome ServeError Unit}
    (h : answer response s = (outcome, s')) :
    s'.connection.receiver = s.connection.receiver ∧
      ∀ error, outcome ≠ .error (.receive error) := by
  unfold answer at h
  split at h
  · cases h
    simp
  · rename_i outgoing _
    rcases hsend : s.connection.sender.send outgoing.message s.clock outgoing.inlet with
      ⟨sent, m, clock, inlet, sender⟩
    rw [hsend] at h
    cases sent with
    | ok count =>
      rcases hclose : sender.close clock with ⟨closed, later, sender'⟩
      simp only [hclose] at h
      cases h
      cases closed <;> simp [Outcome.mapError]
    | _ =>
      cases h
      simp

/-- A beginning of the response is written, and all of it if that ends well. -/
theorem sent_answer {response : Response} {s s' : Session σ} {outcome : Outcome ServeError Unit}
    (hs : s.connection.sender.outlet.written = []) (h : answer response s = (outcome, s')) :
    s'.connection.sender.outlet.sink.received <+: response.encode ∧
      (outcome = .ok () → (∃ outgoing, response.toOutgoing = .ok outgoing) ∧
        s'.connection.sender.outlet.sink.received = response.encode) := by
  unfold answer at h
  split at h
  · cases h
    refine ⟨?_, by simp⟩
    have hp := s.connection.sender.outlet.received_isPrefix
    rw [hs, List.prefix_nil] at hp
    rw [hp]
    exact List.nil_prefix
  · rename_i outgoing hb
    rcases hsend : s.connection.sender.send outgoing.message s.clock outgoing.inlet with
      ⟨sent, m, clock, inlet, sender⟩
    have hw : sender.outlet.written <+: response.encode := by
      obtain ⟨put, hp, hw⟩ := Sender.puts_send hsend
      rw [hs, List.nil_append] at hw
      rw [hw, ← Response.encode_outgoing hb]
      exact hp
    rw [hsend] at h
    cases sent with
    | ok count =>
      rcases hclose : sender.close clock with ⟨closed, later, sender'⟩
      simp only [hclose] at h
      cases h
      obtain ⟨hkept, hempty⟩ := Sender.written_close hclose
      refine ⟨(Outlet.received_isPrefix _).trans (hkept ▸ hw), fun hok => ⟨⟨outgoing, hb⟩, ?_⟩⟩
      obtain ⟨-, hall, -⟩ := Sender.written_send hsend
      rw [hs, List.nil_append] at hall
      have hbuffer := hempty () (Outcome.mapError_eq_ok_iff.1 hok)
      rw [Outlet.written, hbuffer, List.append_nil, hall] at hkept
      exact hkept.trans (Response.encode_outgoing hb)
    | _ =>
      cases h
      exact ⟨(Outlet.received_isPrefix _).trans hw, by simp⟩

/-! ## Serving -/

/-- The request in what is asked for, if there is one. -/
def Demand.requests : Demand → List Request
  | .request r => [r]
  | .nothing | .refused _ => []

/-- The response to what is asked for, if there is one. -/
def Demand.response? (router : Router σ) (clock : Clock) (state : σ) : Demand → Option Response
  | .nothing => none
  | .refused response => some response
  | .request r => (router.dispatch r clock state).1

/-- Responders that keep a record make no difference, and they are asked what is on it. -/
theorem reply_recorded {router : Router σ} {s s' : Session σ} {d : Demand}
    {outcome : Outcome ServeError Unit} (h : reply router s d = (outcome, s'))
    (log : List Request) :
    reply router.recorded (s.logged log) d = (outcome, s'.logged (log ++ d.requests)) := by
  cases d with
  | nothing =>
    cases h
    rw [Demand.requests, List.append_nil]
    rfl
  | refused response =>
    rw [Demand.requests, List.append_nil]
    exact answer_logged h log
  | request request =>
    simp only [reply] at h ⊢
    rcases hd : router.dispatch request s.clock s.state with ⟨_ | response, clock, state⟩
    · rw [hd] at h
      cases h
      simp only [Session.logged, Router.dispatch_recorded hd]
      rfl
    · rw [hd] at h
      have ha := answer_logged h (log ++ [request])
      simp only [Session.logged, Router.dispatch_recorded hd] at ha ⊢
      exact ha

/-- What is sent is nothing, or a beginning of the response. -/
theorem sent_reply {router : Router σ} {s s' : Session σ} {d : Demand}
    {outcome : Outcome ServeError Unit} (hs : s.connection.sender.outlet.written = [])
    (h : reply router s d = (outcome, s')) :
    s'.connection.sender.outlet.sink.received = [] ∧ (outcome = .ok () → d = .nothing) ∨
      ∃ response, d.response? router s.clock s.state = some response ∧
        s'.connection.sender.outlet.sink.received <+: response.encode ∧
        (outcome = .ok () → (∃ outgoing, response.toOutgoing = .ok outgoing) ∧
          s'.connection.sender.outlet.sink.received = response.encode) := by
  have hnone : s.connection.sender.outlet.sink.received = [] :=
    List.prefix_nil.1 (hs ▸ Outlet.received_isPrefix _)
  cases d with
  | nothing =>
    cases h
    exact .inl ⟨hnone, fun _ => rfl⟩
  | refused response => exact .inr ⟨response, rfl, sent_answer hs h⟩
  | request request =>
    simp only [reply] at h
    rcases hd : router.dispatch request s.clock s.state with ⟨_ | response, clock, state⟩
    · rw [hd] at h
      cases h
      exact .inl ⟨hnone, nofun⟩
    · rw [hd] at h
      refine .inr ⟨response, ?_, sent_answer ?_ h⟩
      · rw [Demand.response?, hd]
      · exact hs

theorem reply_keeps {router : Router σ} {s s' : Session σ} {d : Demand}
    {outcome : Outcome ServeError Unit} (h : reply router s d = (outcome, s')) :
    s'.connection.receiver = s.connection.receiver ∧
      ∀ error, outcome ≠ .error (.receive error) := by
  cases d with
  | nothing =>
    cases h
    simp
  | refused response => exact answer_keeps h
  | request request =>
    simp only [reply] at h
    rcases hd : router.dispatch request s.clock s.state with ⟨_ | response, clock, state⟩
    · rw [hd] at h
      cases h
      simp
    · simp only [hd] at h
      have hk := answer_keeps h
      exact hk

/-- The response that a session comes to, if there is one. -/
def response? (router : Router σ) (maxBody : Nat) (s : Session σ) : Option Response :=
  match demand maxBody s.connection.receiver s.clock with
  | (.ok d, clock, _) => d.response? router clock s.state
  | _ => none

/-- The session behind what was read. -/
def Session.heard (s : Session σ) (clock : Clock) (receiver : Receiver) : Session σ :=
  { s with clock, connection := { s.connection with receiver } }

theorem serve_of_demand (router : Router σ) {maxBody : Nat} {s : Session σ} {d : Demand}
    {clock : Clock} {r : Receiver}
    (h : demand maxBody s.connection.receiver s.clock = (.ok d, clock, r)) :
    serve router maxBody s = reply router (s.heard clock r) d := by
  rw [serve, h]
  rfl

theorem serve_of_no_demand (router : Router σ) {maxBody : Nat} {s : Session σ}
    {found : Outcome ServeError Demand} {clock : Clock} {r : Receiver}
    (h : demand maxBody s.connection.receiver s.clock = (found, clock, r))
    (hn : ∀ d, found ≠ .ok d) :
    serve router maxBody s = (found.map fun _ => (), s.heard clock r) := by
  rw [serve, h]
  cases found with
  | ok d => exact absurd rfl (hn d)
  | _ => rfl

/-- A client gets nothing but what answers it: at most one responder is asked, after the whole
request was read; what is sent is a beginning of one response; nothing is sent and nobody is asked
if reading fails; and a run that ends well has sent all of the response to what was sent to it. -/
theorem serve_answers_whole (router : Router σ) (maxBody : Nat) (source : Source) (sink : Sink)
    (hnew : sink.received = []) (limits : Limits)
    (hm : limits.maxHeadBytes.toNat < Numeral.maxUnsigned) (start : Time) (deadline : Deadline)
    {s s' : Session σ}
    (hs : s.connection = (Connection.start source sink limits start).setDeadline deadline)
    {outcome : Outcome ServeError Unit} (h : serve router maxBody s = (outcome, s')) :
    ∃ calls sent,
      serve router.recorded maxBody (s.logged []) = (outcome, s'.logged calls) ∧
      s'.connection.sender.outlet.sink.received = sent ∧
      (calls = [] ∨ ∃ request written, calls = [request] ∧ request.IsWritten limits written ∧
        source.bytes = written ++ s'.connection.receiver.inlet.bytes) ∧
      (sent = [] ∨
        ∃ response, response? router maxBody s = some response ∧ sent <+: response.encode) ∧
      (Unread maxBody s.connection.receiver s.clock ∨ source.bytes = [] ∨
          (∃ error, outcome = .error (.receive error)) →
        sent = [] ∧ calls = []) ∧
      (source.bytes ≠ [] → outcome = .ok () →
        ∃ response, response? router maxBody s = some response ∧
          (∃ outgoing, response.toOutgoing = .ok outgoing) ∧ sent = response.encode) := by
  have hfresh : s.connection.receiver.Fresh limits := hs ▸ ⟨rfl, rfl⟩
  have hbytes : s.connection.receiver.inlet.bytes = source.bytes := by
    rw [hs]
    rfl
  have hwritten : s.connection.sender.outlet.written = [] := by
    rw [hs]
    exact List.append_eq_nil_iff.2 ⟨hnew, rfl⟩
  have hnone : s.connection.sender.outlet.sink.received = [] := by
    rw [hs]
    exact hnew
  rcases hd : demand maxBody s.connection.receiver s.clock with ⟨found, clock, r⟩
  by_cases hn : ∀ d, found ≠ .ok d
  · have hsame := serve_of_no_demand router.recorded (s := s.logged []) hd hn
    rw [serve_of_no_demand router hd hn] at h
    cases h
    refine ⟨[], [], hsame, hnone, .inl rfl, .inl rfl, fun _ => ⟨rfl, rfl⟩, fun _ hok => ?_⟩
    obtain ⟨d, rfl, -⟩ := Outcome.map_eq_ok_iff.1 hok
    exact absurd rfl (hn d)
  · obtain ⟨d, hfound⟩ := not_forall_not.1 hn
    subst hfound
    have hresponse : response? router maxBody s = d.response? router clock s.state := by
      rw [response?, hd]
    rw [serve_of_demand router hd] at h
    have hrecorded : serve router.recorded maxBody (s.logged []) =
        (outcome, s'.logged d.requests) := by
      rw [serve_of_demand router.recorded (s := s.logged []) hd]
      exact reply_recorded h []
    obtain ⟨hreceiver, hreceive⟩ := reply_keeps h
    have hsent := sent_reply (s := s.heard clock r) hwritten h
    refine ⟨d.requests, _, hrecorded, rfl, ?_, ?_, fun hfail => ?_, fun hne hok => ?_⟩
    · cases d with
      | nothing => exact .inl rfl
      | refused response => exact .inl rfl
      | request request =>
        obtain ⟨written, hb, hw⟩ := exists_isWritten_of_demand hfresh hm hd
        refine .inr ⟨request, written, rfl, hw, ?_⟩
        rw [hreceiver, ← hbytes]
        exact hb
    · rw [hresponse]
      exact hsent.imp And.left fun ⟨response, hr, hp, _⟩ => ⟨response, hr, hp⟩
    · obtain rfl : d = .nothing := by
        rcases hfail with hu | hb | ⟨error, he⟩
        · exact eq_nothing_of_unread hu hd
        · exact eq_nothing_of_unread (unread_of_bytes_eq_nil hfresh hm (hbytes.trans hb)) hd
        · exact absurd he (hreceive error)
      cases h
      exact ⟨hnone, rfl⟩
    · rw [hresponse]
      obtain ⟨-, hz⟩ | ⟨response, hr, -, hall⟩ := hsent
      · obtain rfl := hz hok
        exact absurd (hbytes.symm.trans (bytes_eq_nil_of_demand hfresh hm hd)) hne
      · exact ⟨response, hr, hall hok⟩

theorem serve_of_pieces :
    ∃ s', serve ({} : Router Unit) 0
        { clock := {}
          connection :=
            (Connection.start
              { pieces := [.chunk [71, 69, 84, 32, 47, 32, 65, 13], .pause 5, .chunk [10, 10, 66]] }
              {} {} 0).setDeadline (some 9)
          state := () } = (.ok (), s') ∧
      s'.connection.sender.outlet.sink.received = (Response.ofStatus .notFound).encode := by
  rcases h : serve ({} : Router Unit) 0
    { clock := {}
      connection :=
        (Connection.start
          { pieces := [.chunk [71, 69, 84, 32, 47, 32, 65, 13], .pause 5, .chunk [10, 10, 66]] }
          {} {} 0).setDeadline (some 9)
      state := () } with ⟨outcome, s'⟩
  obtain rfl : outcome = .ok () := by
    rw [← (Prod.mk.inj h).1]
    decide +kernel
  obtain ⟨calls, sent, -, rfl, -, -, -, hall⟩ :=
    serve_answers_whole {} 0 _ {} rfl {} (by decide) 0 (some 9) rfl h
  obtain ⟨response, hr, -, hsent⟩ := hall (by decide) rfl
  have hfound : Response.ofStatus .notFound = response :=
    Option.some.inj (Eq.trans (by decide +kernel) hr)
  exact ⟨s', rfl, by rw [hsent, hfound]⟩

end Service

end Courier
