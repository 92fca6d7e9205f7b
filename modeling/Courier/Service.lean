import Courier.Connection
import Courier.Router

/-!
# Serving a connection

One request is read and answered, and the connection is closed for writing. A first line that asks
for nothing is answered with 400, and a body that is too long with 413, both without reading the
body. After any other failure nothing is written, since the place in the stream is lost.
-/

namespace Courier

/-- Why a connection was not served. -/
inductive ServeError where
  | receive (error : ReceiveError)
  | send (error : SendError)
  | build (error : BuildError)
deriving Repr, DecidableEq

namespace ServeError

/-- The sentence that reports the failure. -/
def message : ServeError → String
  | receive error => "receive error: " ++ error.message
  | send error => "send error: " ++ error.message
  | build error => "failed to build response: " ++ error.message

/-- What the failure means for the connection. -/
def toClass : ServeError → FailureClass
  | receive error => error.toClass
  | send error => error.toClass
  | build _ => .validation

end ServeError

namespace Service

variable {σ : Type}

/-- A run of the service: the connection and the state that the responders share. -/
structure Session (σ : Type) where
  clock : Clock
  connection : Connection
  state : σ

/-- What a client asks for. -/
inductive Demand where
  /-- The stream ends before its first byte. -/
  | nothing
  /-- The answer does not depend on the router. -/
  | refused (response : Response)
  | request (request : Request)
deriving Repr, DecidableEq

/-! ## Reading -/

/-- Finds what a message asks for: by its first line, its length, and its body. -/
def examine (maxBody : Nat) (m : Message) (r : Receiver) (clock : Clock) :
    Outcome ServeError Demand × Clock × Receiver :=
  match m.head.requestLine with
  | .error error =>
    (.ok (.refused (.text .badRequest (Utf8.encode (error.message ++ "\n")))), clock, r)
  | .ok line =>
    if maxBody < m.body.length then (.ok (.refused (.ofStatus .payloadTooLarge)), clock, r)
    else
      match m.body.read clock r.inlet with
      | (outcome, _, clock, inlet) =>
        ((outcome.mapError fun error => .receive (.body error)).map fun body =>
            .request { line, head := m.head, body },
          clock, { r with inlet })

/-- Reads what the client asks for. -/
def demand (maxBody : Nat) (r : Receiver) (clock : Clock) :
    Outcome ServeError Demand × Clock × Receiver :=
  match r.readMessage clock with
  | (.ok (some message), clock, r) => examine maxBody message r clock
  | (.ok none, clock, r) => (.ok .nothing, clock, r)
  | (.error error, clock, r) => (.error (.receive error), clock, r)
  | (.expired, clock, r) => (.expired, clock, r)
  | (.stalled, clock, r) => (.stalled, clock, r)

/-! ## Answering -/

/-- Writes a response and closes the sink. -/
def answer (response : Response) (s : Session σ) : Outcome ServeError Unit × Session σ :=
  match response.toOutgoing with
  | .error error => (.error (.build error), s)
  | .ok outgoing =>
    match s.connection.sender.send outgoing.message s.clock outgoing.inlet with
    | (.ok _, _, clock, _, sender) =>
      match sender.close clock with
      | (outcome, clock, sender) =>
        (outcome.mapError .send, { s with clock, connection := { s.connection with sender } })
    | (.error error, _, clock, _, sender) =>
      (.error (.send error), { s with clock, connection := { s.connection with sender } })
    | (.expired, _, clock, _, sender) =>
      (.expired, { s with clock, connection := { s.connection with sender } })
    | (.stalled, _, clock, _, sender) =>
      (.stalled, { s with clock, connection := { s.connection with sender } })

/-- Answers what the client asks for. -/
def reply (router : Router σ) (s : Session σ) : Demand → Outcome ServeError Unit × Session σ
  | .nothing => (.ok (), s)
  | .refused response => answer response s
  | .request request =>
    match router.dispatch request s.clock s.state with
    | (some response, clock, state) => answer response { s with clock, state }
    | (none, clock, state) => (.stalled, { s with clock, state })

/-- Serves one connection. -/
def serve (router : Router σ) (maxBody : Nat) (s : Session σ) :
    Outcome ServeError Unit × Session σ :=
  match demand maxBody s.connection.receiver s.clock with
  | (outcome, clock, receiver) =>
    let s := { s with clock, connection := { s.connection with receiver } }
    match outcome with
    | .ok demand => reply router s demand
    | .error error => (.error error, s)
    | .expired => (.expired, s)
    | .stalled => (.stalled, s)

end Service

end Courier
