import Courier.Proofs.Receiver.Delivery
import Courier.Proofs.Response
import Courier.Proofs.Service
import Courier.Proofs.StartLine

/-!
# What is answered is decided by the bytes

What a client asks for is told by the head that is read and the bytes behind it
(`Demand.ofRead`), and so, with handlers and a sink that takes everything, is all that can be seen
of the run (`observe_of_demand`). Which bytes they are counts, and not how they were cut or when
they came (`demand_congr`).
-/

namespace Courier.Service

open Receiver

variable {σ : Type}

/-! ## What is asked for -/

/-- The answer to a head whose first line asks for nothing. -/
def malformed (head : Head) : Response :=
  .text .badRequest
    (Utf8.encode ((ValidationError.malformedRequestLine head.statusLine).message ++ "\n"))

theorem exists_toOutgoing_malformed {head : Head}
    (hl : (malformed head).body.length ≤ Numeral.maxSigned) :
    ∃ outgoing, (malformed head).toOutgoing = .ok outgoing := by
  simp only [malformed, Response.text] at hl
  exact Response.exists_toOutgoing_text .badRequest hl

/-- What is asked for by a head and the bytes behind it. -/
def Demand.ofHead (maxBody : Nat) (head : Head) (rest : Bytes) : Outcome ServeError Demand :=
  match head.requestLine with
  | .error error => .ok (.refused (.text .badRequest (Utf8.encode (error.message ++ "\n"))))
  | .ok line =>
    if maxBody < head.bodySize then .ok (.refused (.ofStatus .payloadTooLarge))
    else if rest.length < head.bodySize then
      .error (.receive (.body (.incomplete head.bodySize rest.length)))
    else .ok (.request { line, head, body := rest.take head.bodySize })

theorem Demand.ofHead_of_malformed {maxBody : Nat} {head : Head} {rest : Bytes}
    (h : ∀ line, ¬RequestLine.IsWritten head.statusLine line) :
    ofHead maxBody head rest = .ok (.refused (malformed head)) := by
  cases hp : head.requestLine with
  | ok line => exact absurd (RequestLine.parse_eq_ok_iff.1 hp) (h line)
  | error error =>
    obtain rfl := RequestLine.eq_malformed_of_parse hp
    rw [ofHead, hp, malformed]

/-- What is asked for when reading a head comes to this, and these are the bytes left. -/
def Demand.ofRead (maxBody : Nat) (rest : Bytes) :
    Outcome ReceiveError (Option Head) → Outcome ServeError Demand
  | .ok (some head) => ofHead maxBody head rest
  | .ok none => .ok .nothing
  | .error error => .error (.receive error)
  | .expired => .expired
  | .stalled => .stalled

theorem exists_demand (maxBody : Nat) {r r₁ : Receiver} {clock clock₁ : Clock}
    {read : Outcome ReceiveError (Option Head)} (hi : r.inlet.InTime clock r.deadline)
    (h : r.readHead clock = (read, clock₁, r₁)) :
    ∃ clock' r',
      demand maxBody r clock = (Demand.ofRead maxBody r₁.inlet.bytes read, clock', r') := by
  unfold demand readMessage
  rw [h]
  rcases read with (_ | head) | error | _ | _
  case ok.some =>
    obtain ⟨clock', inlet, hb⟩ := Body.exists_read
      { length := head.bodySize, deadline := r₁.deadline } rfl (inTime_of_readHead hi h)
    simp only [Outcome.map, Option.map_some, examine, hb, Demand.ofRead, Demand.ofHead]
    cases head.requestLine with
    | error error => exact ⟨_, _, rfl⟩
    | ok line =>
      dsimp only
      split_ifs
      · exact ⟨_, _, rfl⟩
      · exact ⟨_, _, rfl⟩
      · exact ⟨_, _, rfl⟩
  all_goals exact ⟨_, _, rfl⟩

/-- What is asked for does not depend on how it was delivered. -/
theorem demand_congr {maxBody : Nat} {r₁ r₁' r₂ r₂' : Receiver}
    {clock₁ clock₁' clock₂ clock₂' : Clock} {found₁ found₂ : Outcome ServeError Demand}
    (h : Abreast r₁ clock₁ r₂ clock₂) (h₁ : demand maxBody r₁ clock₁ = (found₁, clock₁', r₁'))
    (h₂ : demand maxBody r₂ clock₂ = (found₂, clock₂', r₂')) : found₂ = found₁ := by
  rcases hr₁ : r₁.readHead clock₁ with ⟨read₁, later₁, left₁⟩
  rcases hr₂ : r₂.readHead clock₂ with ⟨read₂, later₂, left₂⟩
  obtain ⟨_, _, hd₁⟩ := exists_demand maxBody h.inTime₁ hr₁
  obtain ⟨_, _, hd₂⟩ := exists_demand maxBody h.inTime₂ hr₂
  rw [hd₁] at h₁
  rw [hd₂] at h₂
  cases h₁
  cases h₂
  obtain ⟨rfl, hab⟩ := h.readHead hr₁ hr₂
  cases read₂ with
  | ok answer => rw [(hab answer rfl).bytes]
  | _ => rfl

/-! ## What is seen -/

/-- What can be seen of a run: how it ends, the requests that responders were asked, what the sink
got, and the state that is left. -/
structure Observation (σ : Type) where
  outcome : Outcome ServeError Unit
  calls : List Request
  sent : Bytes
  state : σ

/-- Runs the service and looks. -/
def observe (router : Router σ) (maxBody : Nat) (s : Session σ) : Observation σ :=
  match serve router maxBody s, serve router.recorded maxBody (s.logged []) with
  | (outcome, s'), (_, recorded) =>
    { outcome
      calls := recorded.state.2
      sent := s'.connection.sender.outlet.sink.received
      state := s'.state }

/-- All of a response is sent, or nothing if it cannot be written. -/
def Observation.ofResponse (calls : List Request) (state : σ) (response : Response) :
    Observation σ :=
  match response.toOutgoing with
  | .ok _ => { outcome := .ok (), calls, sent := response.encode, state }
  | .error error => { outcome := .error (.build error), calls, sent := [], state }

theorem Observation.ofResponse_of_toOutgoing {response : Response} {outgoing : Outgoing}
    (h : response.toOutgoing = .ok outgoing) (calls : List Request) (state : σ) :
    ofResponse calls state response =
      { outcome := .ok (), calls, sent := response.encode, state } := by
  rw [ofResponse, h]

/-- What is seen if this is asked for, and nothing is in the way of the answer. -/
def Observation.ofDemand (router : Router σ) (state : σ) :
    Outcome ServeError Demand → Observation σ
  | .ok (.refused response) => .ofResponse [] state response
  | .ok (.request request) =>
    match router.dispatch request {} state with
    | (some response, _, state) => .ofResponse [request] state response
    | (none, _, state) => { outcome := .stalled, calls := [request], sent := [], state }
  | found => { outcome := found.map fun _ => (), calls := [], sent := [], state }

/-- The requests in what the session is asked for. -/
def Session.requests (s : Session σ) (maxBody : Nat) : List Request :=
  match demand maxBody s.connection.receiver s.clock with
  | (.ok d, _, _) => d.requests
  | _ => []

/-- Keeping a record makes no difference to a run, and the requests are on it. -/
theorem serve_recorded {router : Router σ} {maxBody : Nat} {s s' : Session σ}
    {outcome : Outcome ServeError Unit} (h : serve router maxBody s = (outcome, s')) :
    serve router.recorded maxBody (s.logged []) = (outcome, s'.logged (s.requests maxBody)) := by
  rcases hd : demand maxBody s.connection.receiver s.clock with ⟨found, clock, r⟩
  rw [Session.requests, hd]
  by_cases hn : ∀ d, found ≠ .ok d
  · rw [serve_of_no_demand router hd hn] at h
    rw [serve_of_no_demand router.recorded (s := s.logged []) hd hn]
    cases h
    cases found with
    | ok d => exact absurd rfl (hn d)
    | _ => rfl
  · obtain ⟨d, hfound⟩ := not_forall_not.1 hn
    subst hfound
    rw [serve_of_demand router hd] at h
    rw [serve_of_demand router.recorded (s := s.logged []) hd]
    exact reply_recorded h []

theorem observe_of_serve {router : Router σ} {maxBody : Nat} {s s' : Session σ}
    {outcome : Outcome ServeError Unit} (h : serve router maxBody s = (outcome, s')) :
    observe router maxBody s =
      { outcome, calls := s.requests maxBody,
        sent := s'.connection.sender.outlet.sink.received, state := s'.state } := by
  rw [observe, h, serve_recorded h]
  rfl

/-- The sink takes everything, and has got nothing yet. -/
structure Session.Unsent (s : Session σ) : Prop where
  isOpen : s.connection.sender.outlet.IsOpen
  written : s.connection.sender.outlet.written = []

theorem Session.Unsent.received {s : Session σ} (hs : s.Unsent) :
    s.connection.sender.outlet.sink.received = [] :=
  List.prefix_nil.1 (hs.written ▸ Outlet.received_isPrefix _)

/-- A response that can be written is sent to a sink that takes everything. -/
theorem exists_answer {response : Response} {outgoing : Outgoing} {s : Session σ}
    (ho : s.connection.sender.outlet.IsOpen) (hb : response.toOutgoing = .ok outgoing) :
    ∃ s', answer response s = (.ok (), s') ∧ s'.state = s.state := by
  obtain ⟨m, rfl, -⟩ := Response.exists_built hb
  obtain ⟨count, m', later, inlet, sender, hsend, hopen⟩ :=
    Sender.exists_send_outgoing m s.clock ho
  obtain ⟨last, closed, hclose⟩ := Sender.exists_close later hopen
  refine ⟨{ s with clock := last, connection := { s.connection with sender := closed } }, ?_, rfl⟩
  simp only [answer, hb, hsend, hclose]
  rfl

theorem ofResponse_of_answer {response : Response} {s s' : Session σ}
    {outcome : Outcome ServeError Unit} (hs : s.Unsent) (h : answer response s = (outcome, s'))
    (calls : List Request) :
    Observation.ofResponse calls s.state response =
      { outcome, calls, sent := s'.connection.sender.outlet.sink.received, state := s'.state } := by
  cases hb : response.toOutgoing with
  | error error =>
    unfold answer at h
    rw [hb] at h
    cases h
    rw [Observation.ofResponse, hb, hs.received]
  | ok outgoing =>
    obtain ⟨s₁, ha, hstate⟩ := exists_answer hs.isOpen hb
    rw [ha] at h
    cases h
    obtain ⟨-, hall⟩ := (sent_answer hs.written ha).2 rfl
    rw [Observation.ofResponse, hb, hall, hstate]

/-- What is seen is decided by what is asked for. -/
theorem observe_of_demand {router : Router σ} (hr : router.IsImmediate) {maxBody : Nat}
    {s : Session σ} {found : Outcome ServeError Demand} {clock : Clock} {r : Receiver}
    (hs : s.Unsent) (hd : demand maxBody s.connection.receiver s.clock = (found, clock, r)) :
    observe router maxBody s = .ofDemand router s.state found := by
  rcases h : serve router maxBody s with ⟨outcome, s'⟩
  rw [observe_of_serve h, Session.requests, hd]
  by_cases hn : ∀ d, found ≠ .ok d
  · rw [serve_of_no_demand router hd hn] at h
    cases h
    cases found with
    | ok d => exact absurd rfl (hn d)
    | _ => exact congrArg (Observation.mk _ _ · _) hs.received
  · obtain ⟨d, hfound⟩ := not_forall_not.1 hn
    subst hfound
    rw [serve_of_demand router hd] at h
    have hheard : ∀ state : σ, Session.Unsent { s.heard clock r with state } :=
      fun _ => ⟨hs.isOpen, hs.written⟩
    cases d with
    | nothing =>
      cases h
      exact congrArg (Observation.mk _ _ · _) hs.received
    | refused response => exact (ofResponse_of_answer (hheard s.state) h []).symm
    | request request =>
      obtain ⟨response, state, hdispatch⟩ := hr.exists_dispatch request s.state
      have hheld : router.dispatch request (s.heard clock r).clock (s.heard clock r).state =
          (some response, clock, state) := hdispatch clock
      simp only [reply, hheld] at h
      rw [Observation.ofDemand, hdispatch]
      exact (ofResponse_of_answer (hheard state) h [request]).symm

/-! ## Deliveries -/

/-- The session is one with a client that sends these bytes, cut in some way and with pauses that
end in time, and that takes whatever it is sent. -/
def Session.Delivers (s : Session σ) (limits : Limits) (bytes : Bytes) : Prop :=
  ∃ source sink start deadline,
    s.connection = (Connection.start source sink limits start).setDeadline deadline ∧
      source.bytes = bytes ∧ source.ending = .finish ∧
      s.clock.Allows deadline (source.settled s.clock.now) ∧
      sink.received = [] ∧ sink.room = none

namespace Session.Delivers

variable {s t : Session σ} {limits : Limits} {bytes : Bytes}

theorem unsent (hs : s.Delivers limits bytes) : s.Unsent := by
  obtain ⟨source, sink, start, deadline, hc, -, -, -, hreceived, hroom⟩ := hs
  constructor
  · rw [hc]
    exact hroom
  · rw [hc]
    exact List.append_eq_nil_iff.2 ⟨hreceived, rfl⟩

theorem ready (hs : s.Delivers limits bytes) : s.connection.receiver.Ready limits := by
  obtain ⟨source, sink, start, deadline, hc, -, hf, -⟩ := hs
  rw [hc]
  exact ⟨⟨rfl, rfl⟩, hf⟩

theorem bytes_eq (hs : s.Delivers limits bytes) : s.connection.receiver.inlet.bytes = bytes := by
  obtain ⟨source, sink, start, deadline, hc, hb, -⟩ := hs
  rw [hc]
  exact hb

theorem inTime (hs : s.Delivers limits bytes) :
    s.connection.receiver.inlet.InTime s.clock s.connection.receiver.deadline := by
  obtain ⟨source, sink, start, deadline, hc, -, hf, ha, -⟩ := hs
  rw [hc]
  exact ⟨hf, ha⟩

theorem abreast (hs : s.Delivers limits bytes) (ht : t.Delivers limits bytes) :
    Abreast s.connection.receiver s.clock t.connection.receiver t.clock where
  progress := by rw [hs.ready.progress, ht.ready.progress]
  held := by rw [hs.ready.held, ht.ready.held]
  bytes := by rw [hs.bytes_eq, ht.bytes_eq]
  inTime₁ := hs.inTime
  inTime₂ := ht.inTime

/-- Two deliveries of the same bytes look the same. -/
theorem observe_eq {router : Router σ} (hr : router.IsImmediate) (maxBody : Nat)
    (hs : s.Delivers limits bytes) (ht : t.Delivers limits bytes) (hst : t.state = s.state) :
    observe router maxBody t = observe router maxBody s := by
  rcases hd : demand maxBody s.connection.receiver s.clock with ⟨found, clock, r⟩
  rcases hd' : demand maxBody t.connection.receiver t.clock with ⟨found', clock', r'⟩
  obtain rfl := demand_congr (hs.abreast ht) hd hd'
  rw [observe_of_demand hr hs.unsent hd, observe_of_demand hr ht.unsent hd', hst]

/-- What is seen if a head is delivered, and what is behind it. -/
theorem observe_of_decode {router : Router σ} (hr : router.IsImmediate) (maxBody : Nat)
    (hm : limits.maxHeadBytes.toNat < Numeral.maxUnsigned) (hs : s.Delivers limits bytes)
    {head : Head} {q : Head.Progress} {rest : Bytes}
    (hd : (Head.Progress.start limits).decode bytes = (.ok (some head), q, rest)) :
    observe router maxBody s = .ofDemand router s.state (Demand.ofHead maxBody head rest) := by
  obtain ⟨⟨written, hb, hw⟩, -⟩ :=
    Head.Progress.decodeLines_start_eq_some_iff.1 (Head.Progress.decode_eq_ok_iff.1 hd)
  rcases hread : s.connection.receiver.readHead s.clock with ⟨read, later, left⟩
  have hlate := not_late_of_readHead (hs.ready.sound hm) hs.inTime hread
  obtain ⟨rfl, hleft, -⟩ := readHead_of_isWritten hs.ready hm hw (hs.bytes_eq.trans hb) hread hlate
  obtain ⟨clock, r, hdemand⟩ := exists_demand maxBody hs.inTime hread
  rw [observe_of_demand hr hs.unsent hdemand, hleft]
  rfl

end Session.Delivers

/-- What a connection is answered is decided by the bytes that are delivered. If they begin with a
head, its first line counts before the length that it declares, that length before the bytes that
are there, and a responder is asked only for a body that is there whole. What is sent tells the
status, the headers and the body of the answer; a malformed line gets a 400, and a body that is too
long a 413. A text that is held in memory has a length that can be declared, so the answer to a
malformed line can always be sent. -/
theorem observe_decided_by_bytes {router : Router σ} (hr : router.IsImmediate) (maxBody : Nat)
    {limits : Limits} (hm : limits.maxHeadBytes.toNat < Numeral.maxUnsigned) {bytes : Bytes}
    {s : Session σ} (hs : s.Delivers limits bytes) :
    (∀ t : Session σ, t.Delivers limits bytes → t.state = s.state →
      observe router maxBody t = observe router maxBody s) ∧
    ∀ head q rest, (Head.Progress.start limits).decode bytes = (.ok (some head), q, rest) →
      ((∀ line, ¬RequestLine.IsWritten head.statusLine line) →
        observe router maxBody s = .ofResponse [] s.state (malformed head) ∧
        ((malformed head).body.length ≤ Numeral.maxSigned →
          observe router maxBody s =
            { outcome := .ok (), calls := [], sent := (malformed head).encode, state := s.state } ∧
          (malformed head).IsWritten (malformed head).encode ∧
          Utf8.encode "HTTP/1.1 400 Bad Request\r\n" <+: (malformed head).encode)) ∧
      ∀ line, RequestLine.IsWritten head.statusLine line →
        (maxBody < head.bodySize →
          ∃ response, response = Response.ofStatus .payloadTooLarge ∧
            observe router maxBody s =
              { outcome := .ok (), calls := [], sent := response.encode, state := s.state } ∧
            response.IsWritten response.encode ∧
            Utf8.encode "HTTP/1.1 413 Payload Too Large\r\n" <+: response.encode) ∧
        (head.bodySize ≤ maxBody → head.bodySize ≤ rest.length →
          ∃ request response state, request = { line, head, body := rest.take head.bodySize } ∧
            request.body.length = head.bodySize ∧
            (∀ clock, router.dispatch request clock s.state = (some response, clock, state)) ∧
            observe router maxBody s = .ofResponse [request] state response ∧
            ∀ outgoing, response.toOutgoing = .ok outgoing →
              response.IsWritten (observe router maxBody s).sent) ∧
        (head.bodySize ≤ maxBody → rest.length < head.bodySize →
          ∃ error : ServeError, error = .receive (.body (.incomplete head.bodySize rest.length)) ∧
            error.toClass = .bodyLength ∧
            observe router maxBody s =
              { outcome := .error error, calls := [], sent := [], state := s.state }) := by
  refine ⟨fun t ht hst => hs.observe_eq hr maxBody ht hst, fun head q rest hd => ?_⟩
  have hseen := hs.observe_of_decode hr maxBody hm hd
  constructor
  · intro hline
    rw [Demand.ofHead_of_malformed hline, Observation.ofDemand] at hseen
    refine ⟨hseen, fun hl => ?_⟩
    obtain ⟨outgoing, hb⟩ := exists_toOutgoing_malformed hl
    rw [hseen]
    have hw := Response.isWritten_encode hb
    have hfirst : Response.firstLine .badRequest ++ "\r\n" = "HTTP/1.1 400 Bad Request\r\n" := by
      decide +kernel
    exact ⟨Observation.ofResponse_of_toOutgoing hb [] s.state, hw, hw.isPrefix hfirst⟩
  · intro line hline
    have hl : head.requestLine = .ok line := RequestLine.parse_eq_ok_iff.2 hline
    rw [Demand.ofHead, hl] at hseen
    refine ⟨fun hlong => ?_, fun hfits hall => ?_, fun hfits hshort => ?_⟩
    · obtain ⟨outgoing, hb⟩ := Response.exists_toOutgoing_payloadTooLarge
      simp only [if_pos hlong, Observation.ofDemand] at hseen
      rw [hseen]
      have hw := Response.isWritten_encode hb
      have hfirst : Response.firstLine .payloadTooLarge ++ "\r\n" =
          "HTTP/1.1 413 Payload Too Large\r\n" := by decide +kernel
      exact ⟨_, rfl, Observation.ofResponse_of_toOutgoing hb [] s.state, hw, hw.isPrefix hfirst⟩
    · obtain ⟨response, state, hdispatch⟩ := hr.exists_dispatch
        { line, head, body := rest.take head.bodySize } s.state
      simp only [if_neg (Nat.not_lt.2 hfits), if_neg (Nat.not_lt.2 hall), Observation.ofDemand,
        hdispatch] at hseen
      refine ⟨_, response, state, rfl, List.length_take_of_le hall, hdispatch, hseen, ?_⟩
      intro outgoing hb
      rw [hseen, Observation.ofResponse_of_toOutgoing hb]
      exact Response.isWritten_encode hb
    · simp only [if_neg (Nat.not_lt.2 hfits), if_pos hshort, Observation.ofDemand] at hseen
      exact ⟨_, rfl, rfl, hseen⟩

/-- The router that answers every request with its body. -/
def echo : Router Unit :=
  { fallback := some (Handler.responder fun request state => (.ok (.ok request.body), state)) }

/-- The session with a client that sends these pieces. -/
def Session.ofPieces (pieces : List Piece) (deadline : Deadline) : Session Unit :=
  { clock := {}
    connection := (Connection.start { pieces } {} {} 0).setDeadline deadline
    state := () }

/-- A request and one byte more. -/
def posted : Bytes :=
  Utf8.encode "POST / A\nContent-Length:2\n\nhiX"

theorem observe_of_pieces :
    ∃ request : Request, request.body = Utf8.encode "hi" ∧
      observe echo 2
          (.ofPieces [.chunk (posted.take 13), .pause 5, .chunk (posted.drop 13)] (some 9)) =
        .ofResponse [request] () (.ok request.body) ∧
      observe echo 2 (.ofPieces [.chunk posted] none) =
        .ofResponse [request] () (.ok request.body) := by
  have hr : echo.IsImmediate := by
    refine ⟨nofun, fun responder h => ?_⟩
    cases h
    exact ⟨_, rfl⟩
  have hs : (Session.ofPieces [.chunk (posted.take 13), .pause 5, .chunk (posted.drop 13)]
      (some 9)).Delivers {} posted :=
    ⟨_, _, _, _, rfl, by decide +kernel, rfl, ⟨by decide, by decide⟩, rfl, rfl⟩
  have ht : (Session.ofPieces [.chunk posted] none).Delivers {} posted :=
    ⟨_, _, _, _, rfl, by decide +kernel, rfl, ⟨by decide, by decide⟩, rfl, rfl⟩
  obtain ⟨htwo, hhead⟩ := observe_decided_by_bytes hr 2 (by decide) hs
  have hfound : ∀ decoded, decoded = (Head.Progress.start {}).decode posted →
      (decoded.1.toOption.join.map fun head => (head.statusLine, head.bodySize), decoded.2.2) =
        (some ("POST / A", 2), Utf8.encode "hiX") := by
    rintro _ rfl
    decide +kernel
  rcases hd : (Head.Progress.start {}).decode posted with ⟨_ | _ | head, q, rest⟩
  all_goals obtain ⟨hvisible, rfl⟩ := Prod.mk.inj (hfound _ hd.symm)
  case ok.some =>
    obtain ⟨hline, hsize⟩ := Prod.mk.inj (Option.some.inj hvisible)
    have hw : RequestLine.IsWritten head.statusLine ⟨.post, "/", "A"⟩ := by
      rw [hline]
      exact ⟨by decide, by decide, by decide, by decide, by decide⟩
    obtain ⟨-, hwhole, -⟩ := (hhead _ q _ hd).2 _ hw
    rw [hsize] at hwhole
    obtain ⟨request, response, state, hrequest, -, hdispatch, hseen, -⟩ :=
      hwhole (by decide) (by decide)
    have hbody : request.body = Utf8.encode "hi" := by
      rw [hrequest]
      exact (by decide : (Utf8.encode "hiX").take 2 = Utf8.encode "hi")
    obtain rfl : Response.ok request.body = response :=
      Option.some.inj (Prod.mk.inj (hdispatch {})).1
    exact ⟨request, hbody, hseen, (htwo _ ht rfl).trans hseen⟩
  all_goals cases hvisible

end Courier.Service
