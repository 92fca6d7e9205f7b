import Courier.Clock
import Courier.Request
import Courier.Response

/-!
# Routers

A router finds what answers a request by its method and its path, both literally. Of several
responders for one route the last counts. A request without a route goes to a responder of its own,
and one that fails is answered for.

A responder may take time, or forever, and may change a state, of whatever type, that all responders
of a router share. A handler is one that answers at once.

Setting the responder of one route leaves those of the others as they were (`find?_add`).
-/

namespace Courier

/-- What answers requests at once. -/
abbrev Handler (σ : Type) := Request → σ → Except HandlerError Response × σ

/-- What answers requests, if it does not wait forever. -/
abbrev Responder (σ : Type) :=
  Request → Clock → σ → Option (Except HandlerError Response) × Clock × σ

/-- A handler as a responder. -/
def Handler.responder {σ : Type} (handler : Handler σ) : Responder σ := fun request clock state =>
  let (answer, state) := handler request state
  (some answer, clock, state)

instance {σ : Type} : Coe (Handler σ) (Responder σ) := ⟨Handler.responder⟩

/-- A method on a path. -/
structure Route where
  method : Method
  path : String
deriving Repr, DecidableEq

/-- The responders of the routes, and the one for all other requests. -/
structure Router (σ : Type) where
  routes : List (Route × Responder σ) := []
  fallback : Option (Responder σ) := none

namespace Router

variable {σ : Type}

/-- The router with the responder of a route set. -/
def add (r : Router σ) (method : Method) (path : String) (responder : Responder σ) : Router σ :=
  let route := { method, path }
  { r with routes := (route, responder) :: r.routes.filter fun entry => entry.1 != route }

/-- The router with the responder for requests without a route set. -/
def otherwise (r : Router σ) (responder : Responder σ) : Router σ :=
  { r with fallback := some responder }

/-- The responder of a route. -/
def find? (r : Router σ) (method : Method) (path : String) : Option (Responder σ) :=
  (r.routes.find? fun entry => entry.1 == { method, path }).map (·.2)

/-- The number of routes. -/
def size (r : Router σ) : Nat :=
  r.routes.length

/-- Whether there are no routes. -/
def isEmpty (r : Router σ) : Bool :=
  r.routes.isEmpty

/-- Answers that nothing was found. -/
def notFound : Handler σ := fun _ state => (.ok (.ofStatus .notFound), state)

/-- The responder of a request. -/
def responder (r : Router σ) (request : Request) : Responder σ :=
  (r.find? request.line.method request.line.path).getD
    (r.fallback.getD (Handler.responder notFound))

/-- The response that reports a failure. -/
def report (error : HandlerError) : Response :=
  .text error.status (Utf8.encode (error.message ++ "\n"))

/-- The response that an answer stands for. -/
def toResponse : Except HandlerError Response → Response
  | .ok response => response
  | .error error => report error

/-- Answers a request, if its responder does. -/
def dispatch (r : Router σ) (request : Request) (clock : Clock) (state : σ) :
    Option Response × Clock × σ :=
  match r.responder request request clock state with
  | (answer, clock, state) => (answer.map toResponse, clock, state)

/-! ## What a route finds -/

theorem find?_add (r : Router σ) (route : Route) (method : Method) (path : String)
    (responder : Responder σ) :
    (r.add method path responder).find? route.method route.path =
      if route = ⟨method, path⟩ then some responder else r.find? route.method route.path := by
  simp only [find?, add, List.find?_cons]
  split
  · rename_i h
    rw [if_pos (beq_iff_eq.1 h).symm]
    rfl
  · rename_i h
    rw [if_neg fun he => ne_of_beq_false h he.symm, List.find?_filter]
    congr 2
    funext entry
    grind

end Router

end Courier
