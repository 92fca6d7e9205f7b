import Courier.App

/-!
# Which handler answers a request

Each route of the application is set once, so its handler answers the requests for it
(`dispatch_of_mem`), and a request for any other route is not found (`dispatch_of_notMem`). A
handler answers at once, so the clock stays as it is.
-/

namespace Courier

namespace Router

variable {σ : Type}

/-- The router with the handlers of routes set, one after the other. -/
abbrev addAll (r : Router σ) (handlers : List (Route × Handler σ)) : Router σ :=
  handlers.foldl (fun r (route, handler) => r.add route.method route.path handler) r

/-- A route that is not set finds what it did before. -/
theorem find?_addAll_of_notMem {handlers : List (Route × Handler σ)} {route : Route}
    (h : route ∉ handlers.map (·.1)) (r : Router σ) :
    (r.addAll handlers).find? route.method route.path = r.find? route.method route.path := by
  induction handlers generalizing r with
  | nil => rfl
  | cons entry rest ih =>
    rw [List.map_cons, List.mem_cons, not_or] at h
    rw [addAll, List.foldl_cons, ih h.2, find?_add, if_neg h.1]

/-- A route that is set once finds its handler. -/
theorem find?_addAll_of_mem {handlers : List (Route × Handler σ)} {route : Route}
    {handler : Handler σ} (hn : (handlers.map (·.1)).Nodup) (h : (route, handler) ∈ handlers)
    (r : Router σ) :
    (r.addAll handlers).find? route.method route.path = some (Handler.responder handler) := by
  induction handlers generalizing r with
  | nil => cases h
  | cons entry rest ih =>
    rw [List.map_cons, List.nodup_cons] at hn
    rw [addAll, List.foldl_cons]
    rcases List.mem_cons.1 h with rfl | h
    · rw [find?_addAll_of_notMem hn.1, find?_add, if_pos rfl]
    · exact ih hn.2 h _

end Router

namespace App

/-- What is asked for, as a route. -/
def routeOf (request : Request) : Route :=
  ⟨request.line.method, request.line.path⟩

theorem nodup_routes : (handlers.map (·.1)).Nodup := by
  decide

/-- A request for a route is answered by its handler. -/
theorem dispatch_of_mem {request : Request} {handler : Handler Store}
    (h : (routeOf request, handler) ∈ handlers) (clock : Clock) (store : Store) :
    router.dispatch request clock store =
      (some (Router.toResponse (handler request store).1), clock, (handler request store).2) := by
  have hf : router.find? request.line.method request.line.path =
      some (Handler.responder handler) := Router.find?_addAll_of_mem nodup_routes h {}
  rw [Router.dispatch, Router.responder, hf]
  rfl

/-- A request for something else is not found. -/
theorem dispatch_of_notMem {request : Request} (h : routeOf request ∉ handlers.map (·.1))
    (clock : Clock) (store : Store) :
    router.dispatch request clock store = (some (.ofStatus .notFound), clock, store) := by
  have hf : router.find? request.line.method request.line.path = none :=
    Router.find?_addAll_of_notMem h {}
  rw [Router.dispatch, Router.responder, hf]
  rfl

/-- Every request is answered by a handler, that of its route or none that it has. -/
theorem exists_handler (request : Request) :
    (∃ handler, (routeOf request, handler) ∈ handlers) ∨ routeOf request ∉ handlers.map (·.1) := by
  by_cases h : routeOf request ∈ handlers.map (·.1)
  · obtain ⟨⟨route, handler⟩, hm, he⟩ := List.mem_map.1 h
    exact .inl ⟨handler, he ▸ hm⟩
  · exact .inr h

end App

end Courier
