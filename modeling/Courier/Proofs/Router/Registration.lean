import Courier.Proofs.Response
import Courier.Proofs.Router
import Mathlib.Data.Finset.Card

/-!
# Routers by their registrations

A router is put together by registrations, one after the other, each of a responder for a route or
for the requests without one. What it finds for either is what the last registration of it set
(`lookup_registerAll`), so the registrations tell what answers a request (`answering?`), how many
routes there are (`size_ofRegistrations`), and what may be registered in another order
(`Reordered.dispatch_eq`).

To see which responders are called, and how often, each registered responder is made to note its
calls (`noting`): a request is one call, of the responder that answers it (`dispatch_noting`).
-/

namespace Courier

variable {σ : Type}

/-- A responder set for a target: a route, or the requests without one. -/
structure Registration (σ : Type) where
  target : Option Route
  responder : Responder σ

namespace Registration

/-- Registers the responder of a route. -/
def route (method : Method) (path : String) (responder : Responder σ) : Registration σ :=
  ⟨some ⟨method, path⟩, responder⟩

def get : String → Responder σ → Registration σ := route .get
def post : String → Responder σ → Registration σ := route .post
def delete : String → Responder σ → Registration σ := route .delete

/-- Registers the responder for requests without a route. -/
def fallback (responder : Responder σ) : Registration σ :=
  ⟨none, responder⟩

/-- The last registration of a target. -/
def last? (registrations : List (Registration σ)) (target : Option Route) :
    Option (Registration σ) :=
  (registrations.filter fun e => e.target == target).getLast?

/-- The registration that answers a request: the last one of its method and path as they are, or
else the last one for requests without a route. -/
def answering? (registrations : List (Registration σ)) (request : Request) :
    Option (Registration σ) :=
  (last? registrations (some ⟨request.line.method, request.line.path⟩)).or
    (last? registrations none)

/-- What answers by a registration, or without one. -/
def responder? : Option (Registration σ) → Responder σ
  | some e => e.responder
  | none => Handler.responder Router.notFound

theorem last?_append_singleton (registrations : List (Registration σ)) (e : Registration σ)
    (target : Option Route) :
    last? (registrations ++ [e]) target =
      if e.target = target then some e else last? registrations target := by
  unfold last?
  simp only [List.filter_append, List.filter_cons, List.filter_nil, beq_iff_eq]
  split
  · rw [List.getLast?_concat]
  · rw [List.append_nil]

end Registration

namespace Router

open Registration

/-! ## What is found -/

/-- The router after one more registration. -/
def register (r : Router σ) (e : Registration σ) : Router σ :=
  match e.target with
  | some route => r.add route.method route.path e.responder
  | none => r.otherwise e.responder

/-- The router after more registrations, the first one first. -/
def registerAll (r : Router σ) (registrations : List (Registration σ)) : Router σ :=
  registrations.foldl register r

/-- The router that registrations make. -/
def ofRegistrations (registrations : List (Registration σ)) : Router σ :=
  registerAll {} registrations

/-- What is set for a target. -/
def lookup (r : Router σ) : Option Route → Option (Responder σ)
  | some route => r.find? route.method route.path
  | none => r.fallback

theorem responder_eq (r : Router σ) (request : Request) :
    r.responder request =
      ((r.lookup (some ⟨request.line.method, request.line.path⟩)).or (r.lookup none)).getD
        (Handler.responder notFound) := by
  rw [Option.getD_or]
  rfl

theorem lookup_register (r : Router σ) (e : Registration σ) (target : Option Route) :
    (r.register e).lookup target =
      if e.target = target then some e.responder else r.lookup target := by
  unfold register
  cases he : e.target with
  | none =>
    cases target with
    | none => rfl
    | some route => rfl
  | some set =>
    cases target with
    | none => rfl
    | some route =>
      rw [lookup, lookup, find?_add]
      simp only [Option.some.injEq, eq_comm (a := set)]

theorem registerAll_append_singleton (r : Router σ) (registrations : List (Registration σ))
    (e : Registration σ) :
    r.registerAll (registrations ++ [e]) = (r.registerAll registrations).register e :=
  List.foldl_concat ..

/-- What is found for a target is what its last registration set, or what was there before. -/
theorem lookup_registerAll (r : Router σ) (registrations : List (Registration σ))
    (target : Option Route) :
    (r.registerAll registrations).lookup target =
      ((last? registrations target).map Registration.responder).or (r.lookup target) := by
  induction registrations using List.reverseRecOn with
  | nil => rfl
  | append_singleton registrations e ih =>
    rw [registerAll_append_singleton, lookup_register, last?_append_singleton, ih]
    split <;> rfl

/-- A router without routes answers by what is registered, or else as it did before. -/
theorem responder_registerAll {r : Router σ} (hr : r.routes = [])
    (registrations : List (Registration σ)) (request : Request) :
    (r.registerAll registrations).responder request =
      ((answering? registrations request).map Registration.responder).getD
        (r.fallback.getD (Handler.responder notFound)) := by
  have hnone : ∀ route, r.lookup (some route) = none := fun route => by
    rw [lookup, find?, hr, List.find?_nil, Option.map_none]
  rw [responder_eq, lookup_registerAll, lookup_registerAll, hnone, Option.or_none,
    ← Option.or_assoc, ← Option.map_or, ← answering?, Option.getD_or, lookup]

theorem responder_ofRegistrations (registrations : List (Registration σ)) (request : Request) :
    (ofRegistrations registrations).responder request =
      responder? (answering? registrations request) := by
  rw [ofRegistrations, responder_registerAll rfl]
  cases answering? registrations request <;> rfl

/-! ## Which responders are called -/

/-- Calls, each of what a registration set, or of what answers without one, for a request. -/
abbrev Calls (σ : Type) := List (Option (Registration σ) × Request)

/-- The responder that notes its calls. -/
def noted (e : Option (Registration σ)) : Responder (σ × Calls σ) := fun request clock state =>
  match responder? e request clock state.1 with
  | (answer, clock, after) => (answer, clock, after, state.2 ++ [(e, request)])

/-- The registration of the same target whose responder notes its calls. -/
def notedOf (e : Registration σ) : Registration (σ × Calls σ) :=
  ⟨e.target, noted (some e)⟩

/-- The router that registrations make if what they set notes its calls, and what answers without
any does so as well. -/
def noting (registrations : List (Registration σ)) : Router (σ × Calls σ) :=
  registerAll { fallback := some (noted none) } (registrations.map notedOf)

theorem answering?_map_notedOf (registrations : List (Registration σ)) (request : Request) :
    answering? (registrations.map notedOf) request =
      (answering? registrations request).map notedOf := by
  have hl : ∀ target, last? (registrations.map notedOf) target =
      (last? registrations target).map notedOf := fun target => by
    rw [last?, List.filter_map, List.getLast?_map]
    rfl
  rw [answering?, hl, hl, ← Option.map_or, ← answering?]

theorem responder_noting (registrations : List (Registration σ)) (request : Request) :
    (noting registrations).responder request = noted (answering? registrations request) := by
  rw [noting, responder_registerAll rfl, answering?_map_notedOf]
  cases answering? registrations request <;> rfl

/-- A request is one call, of what answers it. -/
theorem dispatch_noting (registrations : List (Registration σ)) {request : Request}
    {clock clock' : Clock} {state state' : σ} {answer : Option (Except HandlerError Response)}
    (h : responder? (answering? registrations request) request clock state =
      (answer, clock', state')) (calls : Calls σ) :
    (noting registrations).dispatch request clock (state, calls) =
      (answer.map toResponse, clock', state',
        calls ++ [(answering? registrations request, request)]) := by
  rw [dispatch, responder_noting, noted, h]

theorem dispatch_ofRegistrations (registrations : List (Registration σ)) {request : Request}
    {clock clock' : Clock} {state state' : σ} {answer : Option (Except HandlerError Response)}
    (h : responder? (answering? registrations request) request clock state =
      (answer, clock', state')) :
    (ofRegistrations registrations).dispatch request clock state =
      (answer.map toResponse, clock', state') := by
  rw [dispatch, responder_ofRegistrations, h]

/-! ## How many routes there are -/

/-- The routes that are set. -/
def served (r : Router σ) : List Route :=
  r.routes.map (·.1)

theorem mem_served_register (r : Router σ) (e : Registration σ) (route : Route) :
    route ∈ (r.register e).served ↔ e.target = some route ∨ route ∈ r.served := by
  unfold register
  cases e.target with
  | none => simp [otherwise, served]
  | some set =>
    rcases eq_or_ne set route with rfl | h
    · simp [add, served]
    · simp [add, served, h, h.symm]

theorem nodup_served_register {r : Router σ} (hr : r.served.Nodup) (e : Registration σ) :
    (r.register e).served.Nodup := by
  unfold register
  cases e.target with
  | none => exact hr
  | some set =>
    refine List.nodup_cons.2 ⟨by simp, ?_⟩
    exact hr.sublist (List.filter_sublist.map _)

theorem served_ofRegistrations (registrations : List (Registration σ)) :
    (ofRegistrations registrations).served.Nodup ∧
      ∀ route, route ∈ (ofRegistrations registrations).served ↔
        route ∈ registrations.filterMap Registration.target := by
  induction registrations using List.reverseRecOn with
  | nil => exact ⟨List.nodup_nil, fun route => Iff.rfl⟩
  | append_singleton registrations e ih =>
    obtain ⟨hn, hm⟩ := ih
    rw [ofRegistrations, registerAll_append_singleton]
    refine ⟨nodup_served_register hn e, fun route => ?_⟩
    rw [mem_served_register, ← ofRegistrations, hm]
    simp [or_comm]

/-- There are as many routes as are registered, each of them counted once. -/
theorem size_ofRegistrations (registrations : List (Registration σ)) :
    (ofRegistrations registrations).size =
      (registrations.filterMap Registration.target).toFinset.card := by
  obtain ⟨hn, hm⟩ := served_ofRegistrations registrations
  have hs : (ofRegistrations registrations).served.toFinset =
      (registrations.filterMap Registration.target).toFinset := by
    ext route
    rw [List.mem_toFinset, List.mem_toFinset, hm]
  rw [← hs, List.toFinset_card_of_nodup hn, served, List.length_map, size]

end Router

namespace Registration

/-! ## In another order -/

/-- The registrations of each target are the same, and in the same order. -/
def Reordered (registrations others : List (Registration σ)) : Prop :=
  ∀ target, (registrations.filter fun e => e.target == target) =
    others.filter fun e => e.target == target

theorem Reordered.swap {e e' : Registration σ} (h : e.target ≠ e'.target)
    (before after : List (Registration σ)) :
    Reordered (before ++ e :: e' :: after) (before ++ e' :: e :: after) := by
  intro target
  rw [List.filter_append, List.filter_append]
  congr 1
  by_cases he : e.target = target
  · have he' : e'.target ≠ target := fun h' => h (he.trans h'.symm)
    simp [List.filter_cons, he']
  · simp [List.filter_cons, he]

theorem Reordered.dispatch_eq {registrations others : List (Registration σ)}
    (h : Reordered registrations others) :
    (Router.ofRegistrations registrations).dispatch =
      (Router.ofRegistrations others).dispatch := by
  have hl : last? registrations = last? others :=
    funext fun target => by rw [last?, last?, h target]
  funext request clock state
  rw [Router.dispatch, Router.dispatch, Router.responder_ofRegistrations,
    Router.responder_ofRegistrations, answering?, answering?, hl]

end Registration

namespace Router

/-! ## What registrations tell -/

open Registration Response

theorem ofStatus_notFound :
    ofStatus .notFound =
      { status := { code := 404 }
        headers := [("Content-Type", "text/plain; charset=utf-8")]
        body := Utf8.encode "Not Found\n" } := by
  decide +kernel

/-- The last registration of the method and the path of a request answers it, or else the last one
for requests without a route, or else it is not found; and nothing else is called. A failure is
answered by a text with its status that tells of it, which can be written, since a text that memory
holds has a length that can be declared. The routes are those registered, each of them counted once,
and only the order among the registrations of one route counts. -/
theorem registrations_tell_answers (registrations : List (Registration σ)) :
    (∀ request clock state answer clock' state',
      responder? (answering? registrations request) request clock state =
        (answer, clock', state') →
      (ofRegistrations registrations).dispatch request clock state =
          (answer.map toResponse, clock', state') ∧
        ∀ calls, (noting registrations).dispatch request clock (state, calls) =
          (answer.map toResponse, clock', state',
            calls ++ [(answering? registrations request, request)])) ∧
    (∀ request clock state, answering? registrations request = none →
      (ofRegistrations registrations).dispatch request clock state =
        (some
          { status := { code := 404 }
            headers := [("Content-Type", "text/plain; charset=utf-8")]
            body := Utf8.encode "Not Found\n" }, clock, state)) ∧
    (∀ error : HandlerError,
      toResponse (.error error) =
          { status := error.status
            headers := [("Content-Type", "text/plain; charset=utf-8")]
            body := Utf8.encode (error.message ++ "\n") } ∧
        ((toResponse (.error error)).body.length ≤ Numeral.maxSigned →
          ∃ outgoing, (toResponse (.error error)).toOutgoing = .ok outgoing)) ∧
    (ofRegistrations registrations).size =
      (registrations.filterMap Registration.target).toFinset.card ∧
    ∀ others, Reordered registrations others →
      (ofRegistrations registrations).dispatch = (ofRegistrations others).dispatch := by
  refine ⟨fun request clock state answer clock' state' h => ?_, fun request clock state h => ?_,
    fun error => ⟨rfl, fun hl => exists_toOutgoing_text _ hl⟩,
    size_ofRegistrations registrations, fun others h => h.dispatch_eq⟩
  · exact ⟨dispatch_ofRegistrations registrations h, dispatch_noting registrations h⟩
  · have hn : responder? (answering? registrations request) request clock state =
        (some (.ok (ofStatus .notFound)), clock, state) := by
      rw [h]
      rfl
    exact dispatch_ofRegistrations registrations hn

/-- A handler that says a word and counts the requests. -/
def saying (word : String) : Handler Nat := fun _ count =>
  (.ok (.ok (Utf8.encode word)), count + 1)

/-- A handler that fails. -/
def failing : Handler Nat := fun _ count => (.error (.internal "offline"), count)

/-- A route that is set twice, with others and a responder for other requests between. -/
def setTwice : List (Registration Nat) :=
  [get "/kv" (saying "old"), .fallback failing, post "/kv" (saying "sent"),
    get "/kv" (saying "new")]

/-- A request without headers. -/
def asking (method : Method) (path : String) : Request :=
  { line := { method, path }, head := ⟨"", .empty, none, 0⟩, body := [] }

theorem setTwice_tells_answers :
    (∀ clock, (noting setTwice).dispatch (asking .get "/kv") clock (0, []) =
      (some (.ok (Utf8.encode "new")), clock, 1,
        [(some (get "/kv" (saying "new")), asking .get "/kv")])) ∧
    (∀ clock, (noting setTwice).dispatch (asking .get "/kv/") clock (0, []) =
      (some (text .internalServerError (Utf8.encode "internal error: offline\n")), clock, 0,
        [(some (.fallback failing), asking .get "/kv/")])) ∧
    (∃ outgoing, (text .internalServerError (Utf8.encode "internal error: offline\n")).toOutgoing =
      .ok outgoing) ∧
    (∀ clock, (ofRegistrations [get "/kv" (saying "new"), delete "/kv" failing]).dispatch
        (asking { name := "get" } "/kv") clock 0 =
      (some (ofStatus .notFound), clock, 0)) ∧
    (ofRegistrations setTwice).size = 2 ∧
    (ofRegistrations setTwice).dispatch =
      (ofRegistrations [.fallback failing, get "/kv" (saying "old"), post "/kv" (saying "sent"),
        get "/kv" (saying "new")]).dispatch := by
  obtain ⟨hcalls, -, hfail, hsize, horder⟩ := registrations_tell_answers setTwice
  refine ⟨fun clock => ?_, fun clock => ?_, ?_, fun clock => ?_, ?_, ?_⟩
  · exact (hcalls (asking .get "/kv") clock 0 (some (.ok (.ok (Utf8.encode "new")))) clock 1
      rfl).2 []
  · exact (hcalls (asking .get "/kv/") clock 0 (some (.error (.internal "offline"))) clock 0
      rfl).2 []
  · exact (hfail (.internal "offline")).2 (by decide)
  · rw [ofStatus_notFound]
    exact (registrations_tell_answers [get "/kv" (saying "new"), delete "/kv" failing]).2.1
      (asking { name := "get" } "/kv") clock 0 rfl
  · rw [hsize]
    decide
  · exact horder _ (Reordered.swap (by decide) [] [_, _])

end Router

end Courier
