import Courier.Proofs.App.Visits
import Courier.Proofs.MediaType
import Courier.Proofs.RoundTrip
import Courier.Proofs.Service.Delivery

/-!
# Answers of the application are well framed

Text of the client gets into a response as the type of an echo, as a count in a cookie, and in the
body. The first two cannot break a line of the head, because the headers of a request are lines, and
a cookie is made of tokens and octets (`isWritable_dispatch`); the last is counted. So whatever a
client sends, it is sent back one message and nothing else, or nothing
(`serve_sends_one_message`).
-/

namespace Courier

/-- A header that was read is a line. -/
theorem Headers.Valid.hasLineBreak_of_get? {h : Headers} (hv : h.Valid) {name value : String}
    (hg : h.get? name = some value) : Text.hasLineBreak value = false := by
  have hm := List.mem_of_mem_head? hg
  unfold getAll at hm
  cases ht : h.table.get? (HeaderName.normal name) with
  | none => simp [ht] at hm
  | some values =>
    rw [ht] at hm
    obtain ⟨-, -, -, hvalues⟩ := hv _ _ ht
    exact (hvalues value hm).2

namespace App

open Response

/-! ## Responses -/

theorem isWritable_toResponse {answer : Except HandlerError Response}
    (h : ∀ response, answer = .ok response → response.IsWritable) :
    (Router.toResponse answer).IsWritable := by
  cases answer with
  | ok response => exact h response rfl
  | error error => exact isWritable_text _ _

/-- Whatever the cookies tell, the count of visits is told in one line. -/
theorem isWritable_greet {request : Request} {response : Response}
    (h : greet request = .ok response) : response.IsWritable := by
  cases hc : request.cookies with
  | error error =>
    rw [greet, Request.cookie?, hc] at h
    cases h
  | ok cookies =>
    rw [greet_of_tells hc (tells_iff.2 rfl)] at h
    obtain rfl := Except.ok.inj h
    exact isWritable_welcome _

/-- The type of an echo is made of what the client sent, and that is a line. -/
theorem isWritable_echo {request : Request} (hv : request.head.headers.Valid) :
    (echo request).IsWritable := by
  intro pair hp
  obtain rfl := List.mem_singleton.1 hp
  have hname : HeaderName.isValid (Text.trim Head.contentTypeHeader) = true := by decide
  refine ⟨hname, Text.hasLineBreak_trim ?_⟩
  cases hm : request.head.mediaType with
  | error error => simp only; decide
  | ok mediaType =>
    unfold Head.mediaType at hm
    split at hm
    · cases hm
    · rename_i value hvalue
      split at hm
      · rename_i parsed hparsed
        cases hm
        exact MediaType.hasLineBreak_of_parse hparsed (hv.hasLineBreak_of_get? hvalue)
      · cases hm

theorem isWritable_of_mem {route : Route} {handler : Handler Store}
    (h : (route, handler) ∈ handlers) {request : Request} (hv : request.head.headers.Valid)
    (store : Store) : (Router.toResponse (handler request store).1).IsWritable := by
  apply isWritable_toResponse
  intro response hr
  simp only [handlers, List.mem_cons, Prod.mk.injEq, List.not_mem_nil, or_false] at h
  rcases h with ⟨-, rfl⟩ | ⟨-, rfl⟩ | ⟨-, rfl⟩ | ⟨-, rfl⟩ | ⟨-, rfl⟩ | ⟨-, rfl⟩ | ⟨-, rfl⟩ |
    ⟨-, rfl⟩ | ⟨-, rfl⟩
  · exact isWritable_greet hr
  · cases hr
    exact isWritable_echo hv
  · cases hr
    exact isWritable_text _ _
  · unfold setEntry at hr
    split at hr <;> cases hr
    exact isWritable_text _ _
  · unfold getEntry at hr
    split at hr
    · cases hr
    · split at hr <;> cases hr <;> exact isWritable_text _ _
  · unfold deleteEntry at hr
    split at hr
    · cases hr
    · split at hr <;> cases hr <;> exact isWritable_text _ _
  all_goals
    cases hr
    exact isWritable_text _ _

theorem isWritable_dispatch {request : Request} (hv : request.head.headers.Valid) (clock : Clock)
    (store : Store) :
    ∃ response after, router.dispatch request clock store = (some response, clock, after) ∧
      response.IsWritable := by
  rcases exists_handler request with ⟨handler, hm⟩ | hn
  · exact ⟨_, _, dispatch_of_mem hm clock store, isWritable_of_mem hm hv store⟩
  · exact ⟨_, _, dispatch_of_notMem hn clock store, isWritable_text _ _⟩

end App

/-! ## Framing -/

/-- The bytes are one message that declares its length, and nothing else: whoever reads them, with
limits that leave room for its head, gets its head and its body and then finds no other. -/
def IsOneMessage (bytes : Bytes) : Prop :=
  ∃ (head : Head) (body : Bytes), bytes = head.encode ++ body ∧ head.size = head.encode.length ∧
    head.contentLength = some body.length ∧
    ∀ limits : Limits, limits.maxHeadBytes.toNat < Numeral.maxUnsigned →
      head.headers.valueCount ≤ limits.maxHeaders.toNat →
      head.size ≤ limits.maxHeadBytes.toNat →
      ∀ source : Source, source.ending = .finish → source.bytes = bytes →
      ∀ (start : Time) (clock : Clock),
        clock.Allows (limits.timeout.map (start + ·)) (source.settled clock.now) ∨
          (∀ outcome ∈ (Receiver.start source limits start).receives 2 clock, ¬outcome.IsLate) →
        (Receiver.start source limits start).receives 2 clock =
          [.ok (some (head, body)), .ok none]

theorem Built.isOneMessage (m : Built) (hl : m.head.contentLength = some m.bytes.length) :
    IsOneMessage m.outgoing.encode := by
  have hsize : m.head.size = m.head.encode.length := by
    obtain ⟨draft, length, -, -, hm, -⟩ := m.exists_toHead
    rw [head, hm]
    exact draft.length_encode_toHead length
  refine ⟨m.head, m.bytes, m.encode_outgoing, hsize, hl, ?_⟩
  intro limits hm hcount hfits source hf hb start clock htime
  have hw := m.isWritten_encode hcount hfits
  have hready := Receiver.ready_start hf limits start
  refine Receiver.receives_of_written [(m.head, m.bytes)] hm ?_ clock hready ?_
    (htime.imp_left fun ha => ⟨hf, ha⟩)
  · exact List.forall_mem_singleton.2 ⟨hw, m.bodySize_head⟩
  · rw [List.flatMap_singleton, ← m.encode_outgoing]
    exact hb

namespace Service

variable {σ : Type}

/-- A response whose headers can be written is answered with one message, or with nothing if its
length cannot be declared. -/
theorem isOneMessage_of_answer {response : Response} {s s' : Session σ}
    {outcome : Outcome ServeError Unit} (hr : response.IsWritable) (hs : s.Unsent)
    (h : answer response s = (outcome, s')) :
    (response.body.length ≤ Numeral.maxSigned → ∀ error, outcome ≠ .error (.build error)) ∧
      (s'.connection.sender.outlet.sink.received = [] ∨
        IsOneMessage s'.connection.sender.outlet.sink.received) := by
  cases hb : response.toOutgoing with
  | error error =>
    unfold answer at h
    rw [hb] at h
    cases h
    refine ⟨fun hl => ?_, .inl hs.received⟩
    obtain ⟨outgoing, ho⟩ := Response.exists_toOutgoing hr hl
    rw [hb] at ho
    cases ho
  | ok outgoing =>
    obtain ⟨s₁, ha, -⟩ := exists_answer hs.isOpen hb
    rw [ha] at h
    cases h
    refine ⟨by rintro _ _ ⟨⟩, .inr ?_⟩
    obtain ⟨-, hall⟩ := (sent_answer hs.written ha).2 rfl
    have hl := Response.contentLength_toOutgoing hb
    rw [hall, ← Response.encode_outgoing hb]
    obtain ⟨m, rfl, hbytes⟩ := Response.exists_built hb
    exact m.isOneMessage (hbytes ▸ hl)

/-- What is not asked for is refused with a text. -/
theorem isWritable_of_demand {maxBody : Nat} {r r' : Receiver} {clock clock' : Clock}
    {response : Response} (h : demand maxBody r clock = (.ok (.refused response), clock', r')) :
    response.IsWritable := by
  unfold demand at h
  split at h
  · unfold examine at h
    split at h
    · cases h
      exact Response.isWritable_text _ _
    · split_ifs at h
      · cases h
        exact Response.isWritable_text _ _
      · simp at h
  all_goals cases h

/-- Reading does not fail for what is to be written. -/
theorem ne_build_of_demand {maxBody : Nat} {r r' : Receiver} {clock clock' : Clock}
    {error : BuildError} (h : demand maxBody r clock = (.error (.build error), clock', r')) :
    False := by
  unfold demand at h
  split at h
  · unfold examine at h
    split at h
    · cases h
    · split_ifs at h
      · cases h
      · split at h
        rename_i read _ _ _ _
        cases read <;> cases h
  all_goals cases h

/-- The headers of a request that was read are valid. -/
theorem valid_of_demand {maxBody : Nat} {r r' : Receiver} {limits : Limits} {clock clock' : Clock}
    {request : Request} (hr : r.Fresh limits)
    (h : demand maxBody r clock = (.ok (.request request), clock', r')) :
    request.head.headers.Valid := by
  have hm : limits.maxHeadBytes.toNat < Numeral.maxUnsigned := by
    unfold demand at h
    split at h
    · rename_i hread
      obtain ⟨head, hhead, -⟩ := Receiver.exists_readHead_of_readMessage hread
      exact hr.bound_of_readHead hhead
    all_goals cases h
  obtain ⟨written, -, head, -, hw, -⟩ := exists_isWritten_of_demand hr hm h
  exact hw.valid

end Service

namespace App

open Service

/-- Whatever a client sends, however slowly, the application sends one message back, which declares
the number of its bytes, or nothing; and it never fails to build a message, since a body that memory
holds has a length that can be declared. -/
theorem serve_sends_one_message (maxBody : Nat) (source : Source) (sink : Sink)
    (hnew : sink.received = []) (hroom : sink.room = none) (limits : Limits) (start : Time)
    (deadline : Deadline) {s s' : Session Store}
    (hs : s.connection = (Connection.start source sink limits start).setDeadline deadline)
    {outcome : Outcome ServeError Unit} (h : serve router maxBody s = (outcome, s')) :
    ((∀ response, response? router maxBody s = some response →
        response.body.length ≤ Numeral.maxSigned) →
      ∀ error, outcome ≠ .error (.build error)) ∧
    (s'.connection.sender.outlet.sink.received = [] ∨
      IsOneMessage s'.connection.sender.outlet.sink.received) := by
  have hfresh : s.connection.receiver.Fresh limits := hs ▸ ⟨rfl, rfl⟩
  have hunsent : ∀ (clock : Clock) (r : Receiver) (state : Store),
      Session.Unsent { s.heard clock r with state } := by
    intro clock r state
    constructor
    · show s.connection.sender.outlet.sink.room = none
      rw [hs]
      exact hroom
    · show s.connection.sender.outlet.written = []
      rw [hs]
      exact List.append_eq_nil_iff.2 ⟨hnew, rfl⟩
  rcases hd : demand maxBody s.connection.receiver s.clock with ⟨found, clock, r⟩
  by_cases hn : ∀ d, found ≠ .ok d
  · rw [serve_of_no_demand router hd hn] at h
    cases h
    refine ⟨fun _ error he => ?_, .inl (hunsent clock r s.state).received⟩
    cases found with
    | error other =>
      cases he
      exact ne_build_of_demand hd
    | ok d => exact hn d rfl
    | _ => cases he
  · obtain ⟨d, hfound⟩ := not_forall_not.1 hn
    subst hfound
    rw [serve_of_demand router hd] at h
    have hresponse : response? router maxBody s = d.response? router clock s.state := by
      rw [response?, hd]
    rw [hresponse]
    cases d with
    | nothing =>
      cases h
      exact ⟨by rintro _ _ ⟨⟩, .inl (hunsent clock r s.state).received⟩
    | refused response =>
      obtain ⟨hbuild, hsent⟩ :=
        isOneMessage_of_answer (isWritable_of_demand hd) (hunsent clock r s.state) h
      exact ⟨fun hl => hbuild (hl response rfl), hsent⟩
    | request request =>
      obtain ⟨response, after, hdispatch, hw⟩ :=
        isWritable_dispatch (valid_of_demand hfresh hd) clock s.state
      have hheld : router.dispatch request (s.heard clock r).clock (s.heard clock r).state =
          (some response, clock, after) := hdispatch
      simp only [reply, hheld] at h
      obtain ⟨hbuild, hsent⟩ := isOneMessage_of_answer hw (hunsent clock r after) h
      refine ⟨fun hl => hbuild (hl response ?_), hsent⟩
      rw [Demand.response?, hdispatch]

/-- A request whose body is to be echoed, with a type in unusual spelling. -/
def echoed : Bytes :=
  Utf8.encode "POST /echo A\ncontent-type: TEXT/plain;A=\"b\"\nContent-Length:2\n\nhiX"

/-- A session in which it comes in two pieces. -/
def echoSession : Session Store :=
  { clock := {}
    connection :=
      (Connection.start { pieces := [.chunk (echoed.take 30), .pause 5, .chunk (echoed.drop 30)] }
        {} {} 0).setDeadline (some 9)
    state := .empty }

theorem serve_sends_echo :
    (∀ error, (serve router 2 echoSession).1 ≠ .error (.build error)) ∧
      (serve router 2 echoSession).2.connection.sender.outlet.sink.received ≠ [] ∧
      IsOneMessage (serve router 2 echoSession).2.connection.sender.outlet.sink.received := by
  have hfit : ∀ response ∈ response? router 2 echoSession,
      response.body.length ≤ Numeral.maxSigned := by
    decide +kernel
  have hne : (serve router 2 echoSession).2.connection.sender.outlet.sink.received ≠ [] := by
    decide +kernel
  obtain ⟨hbuild, hsent⟩ := serve_sends_one_message 2 _ {} rfl rfl {} 0 (some 9) rfl
    (rfl : serve router 2 echoSession = _)
  exact ⟨hbuild hfit, hne, hsent.resolve_left hne⟩

end App

end Courier
