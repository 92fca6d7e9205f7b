import Courier.Router

/-!
# Calls on record, and answers at once

A router whose responders keep a record of their requests answers as it does without one, and the
record tells of one call for each request that is dispatched (`Router.dispatch_recorded`). One whose
responders are handlers answers every request, and at any time the same
(`Router.IsImmediate.exists_dispatch`).
-/

namespace Courier

variable {σ : Type}

/-- The responder that puts each request on a record. -/
def Responder.recorded (responder : Responder σ) : Responder (σ × List Request) :=
  fun request clock state =>
    match responder request clock state.1 with
    | (answer, clock, after) => (answer, clock, after, state.2 ++ [request])

namespace Router

/-- The router whose responders put their requests on a record, those of requests without a route
included. -/
def recorded (r : Router σ) : Router (σ × List Request) where
  routes := r.routes.map fun (route, responder) => (route, Responder.recorded responder)
  fallback := some (Responder.recorded (r.fallback.getD (Handler.responder notFound)))

theorem find?_recorded (r : Router σ) (method : Method) (path : String) :
    r.recorded.find? method path = (r.find? method path).map Responder.recorded := by
  rw [find?, find?, recorded, List.find?_map, Option.map_map, Option.map_map]
  rfl

theorem responder_recorded (r : Router σ) (request : Request) :
    r.recorded.responder request = Responder.recorded (r.responder request) := by
  rw [responder, responder, find?_recorded]
  cases r.find? request.line.method request.line.path <;> rfl

theorem dispatch_recorded {r : Router σ} {request : Request} {clock clock' : Clock}
    {state state' : σ} {response : Option Response}
    (h : r.dispatch request clock state = (response, clock', state')) (log : List Request) :
    r.recorded.dispatch request clock (state, log) =
      (response, clock', state', log ++ [request]) := by
  unfold dispatch at h ⊢
  rw [responder_recorded]
  cases h
  rfl

/-! ## Answers at once -/

/-- Every responder of the router is a handler. -/
def IsImmediate (r : Router σ) : Prop :=
  (∀ entry ∈ r.routes, ∃ handler : Handler σ, entry.2 = Handler.responder handler) ∧
    ∀ responder ∈ r.fallback, ∃ handler : Handler σ, responder = Handler.responder handler

theorem IsImmediate.exists_handler {r : Router σ} (hr : r.IsImmediate) (request : Request) :
    ∃ handler : Handler σ, r.responder request = Handler.responder handler := by
  unfold responder find?
  cases hf : r.routes.find? _ with
  | some entry => exact hr.1 entry (List.mem_of_find?_eq_some hf)
  | none =>
    cases hb : r.fallback with
    | some responder => exact hr.2 responder hb
    | none => exact ⟨notFound, rfl⟩

/-- What handlers answer does not depend on the time, and takes none. -/
theorem IsImmediate.exists_dispatch {r : Router σ} (hr : r.IsImmediate) (request : Request)
    (state : σ) :
    ∃ response state',
      ∀ clock, r.dispatch request clock state = (some response, clock, state') := by
  obtain ⟨handler, hh⟩ := hr.exists_handler request
  exact ⟨_, _, fun clock => by rw [dispatch, hh]; rfl⟩

end Router

end Courier
