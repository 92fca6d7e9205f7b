import Courier.Proofs.App.Bodies
import Courier.Proofs.App.Routes
import Courier.Proofs.Headers.Valid
import Mathlib.Data.Finmap
import Mathlib.Data.Finset.Sort
import Mathlib.Data.String.Basic

/-!
# The application as a finite map

A machine over finite maps from texts to texts takes commands and answers them (`Command.answer`,
`Command.after`), and a request asks for one of them by its route and by what its body holds
(`Asks`). The application answers any sequence of requests as the machine does, and after each of
them its store is the machine's map (`trace_refines_map`).
-/

namespace Courier

namespace Router

/-- What requests are answered one after the other, each with the state that is left. -/
def trace {σ : Type} (r : Router σ) : List Request → Clock → σ → List (Option Response × σ)
  | [], _, _ => []
  | request :: requests, clock, state =>
    match r.dispatch request clock state with
    | (response, clock, state) => (response, state) :: r.trace requests clock state

end Router

namespace App

/-! ## Stores as maps -/

/-- Finitely many texts under texts. -/
abbrev Texts := Finmap fun _ : String => String

/-- The keys of a map with their texts, in increasing order of the keys. -/
def listing (map : Texts) : List (String × String) :=
  map.keys.sort.map fun key => (key, (map.lookup key).getD "")

theorem mem_listing_iff {map : Texts} {key value : String} :
    (key, value) ∈ listing map ↔ map.lookup key = some value := by
  rw [listing, List.mem_map]
  constructor
  · rintro ⟨key', hk, he⟩
    cases he
    obtain ⟨value, hv⟩ := Finmap.mem_iff.1 (Finmap.mem_keys.1 ((Finset.mem_sort _).1 hk))
    rw [hv]
    rfl
  · intro h
    exact ⟨key, (Finset.mem_sort _).2 (Finmap.mem_keys.2 (Finmap.mem_of_lookup_eq_some h)), by
      rw [h]; rfl⟩

theorem sorted_listing (map : Texts) : (listing map).Pairwise fun a b => a.1 < b.1 := by
  rw [listing, List.pairwise_map]
  exact (Finset.sortedLT_sort map.keys).pairwise

/-- The map of what is in a store. -/
def toMap (store : Store) : Texts :=
  (store.entries.map Prod.toSigma).toFinmap

@[simp]
theorem lookup_toMap (store : Store) (key : String) :
    (toMap store).lookup key = store.get? key := by
  rw [toMap, Finmap.dlookup_list_toFinmap, Store.get?, Table.get?, Store.entries]
  induction store.table.entries with
  | nil => rfl
  | cons entry rest ih =>
    obtain ⟨k, v⟩ := entry
    by_cases hk : key = k
    · subst hk
      simp [Prod.toSigma_mk]
    · rw [List.map_cons, List.lookup_cons, beq_false_of_ne hk, ← ih]
      exact List.dlookup_cons_ne _ _ hk

theorem toMap_injective : Function.Injective toMap := by
  intro s t h
  have ht : s.table = t.table := Table.ext_get? fun key => by
    have := congrArg (Finmap.lookup key) h
    rwa [lookup_toMap, lookup_toMap] at this
  cases s
  cases t
  cases ht
  rfl

theorem mem_toMap_iff {store : Store} {key : String} :
    key ∈ toMap store ↔ (store.get? key).isSome = true := by
  rw [← Finmap.lookup_isSome, lookup_toMap]

/-- A store shows its entries as its map does. -/
theorem listing_toMap (store : Store) : listing (toMap store) = store.entries := by
  have h : (⟨listing (toMap store), sorted_listing _⟩ : Table String) = store.table := by
    refine Table.ext_get? fun key => Option.ext fun value => ?_
    rw [Table.get?_eq_some_iff, mem_listing_iff, lookup_toMap]
    rfl
  exact congrArg Table.entries h

theorem card_toMap (store : Store) : (toMap store).keys.card = store.size := by
  rw [Store.size, Table.size]
  show _ = store.entries.length
  rw [← listing_toMap, listing, List.length_map, Finset.length_sort]

theorem toMap_set (store : Store) (key value : String) :
    toMap (store.set key value).2 = (toMap store).insert key value := by
  refine Finmap.ext_lookup fun other => ?_
  rw [lookup_toMap, Store.get?_set]
  split
  · rename_i h
    rw [h, Finmap.lookup_insert]
  · rename_i h
    rw [Finmap.lookup_insert_of_ne _ h, lookup_toMap]

theorem toMap_delete (store : Store) (key : String) :
    toMap (store.delete key).2 = (toMap store).erase key := by
  refine Finmap.ext_lookup fun other => ?_
  rw [lookup_toMap, Store.get?_delete]
  split
  · rename_i h
    rw [h, Finmap.lookup_erase]
  · rename_i h
    rw [Finmap.lookup_erase_ne h, lookup_toMap]

/-! ## The machine -/

/-- What is seen of a response. -/
structure Answer where
  status : Status
  body : Bytes
deriving DecidableEq

/-- A text as an answer. -/
def Answer.text (status : Status) (text : String) : Answer :=
  ⟨status, Utf8.encode text⟩

/-- What is asked of a map. -/
inductive Command
  | put (key value : String)
  | get (key : String)
  | remove (key : String)
  | list
  | values
  | size
  | clear
  /-- To say something that has nothing to do with the map. -/
  | say (answer : Answer)

/-- A text for each line. -/
def lines (texts : List String) : String :=
  String.join (texts.map (· ++ "\n"))

/-- The answer that a key is not there. -/
def Answer.missing (key : String) : Answer :=
  .text .notFound ("no such key " ++ key ++ "\n")

/-- What is answered. -/
def Command.answer : Command → Texts → Answer
  | put key _, map => .text (if key ∈ map then .ok else .created) ("stored " ++ key ++ "\n")
  | get key, map =>
    match map.lookup key with
    | some value => .text .ok (value ++ "\n")
    | none => .missing key
  | remove key, map =>
    if key ∈ map then .text .ok ("deleted " ++ key ++ "\n") else .missing key
  | list, map => .text .ok (lines ((listing map).map fun (key, value) => key ++ "=" ++ value))
  | values, map => .text .ok (lines ((listing map).map fun (_, value) => value))
  | size, map => .text .ok (toString map.keys.card ++ "\n")
  | clear, map => .text .ok ("cleared " ++ toString map.keys.card ++ "\n")
  | say answer, _ => answer

/-- The map that is left. -/
def Command.after : Command → Texts → Texts
  | put key value, map => map.insert key value
  | remove key, map => map.erase key
  | clear, _ => ∅
  | _, map => map

/-- What is not there leaves the map as it was when it is removed. -/
theorem erase_of_notMem {map : Texts} {key : String} (h : key ∉ map) : map.erase key = map := by
  refine Finmap.ext_lookup fun other => ?_
  by_cases ho : other = key
  · rw [ho, Finmap.lookup_erase, Finmap.lookup_eq_none.2 h]
  · exact Finmap.lookup_erase_ne ho

/-- A command that is answered for not being understood, or for what is not there, leaves the map as
it was. -/
theorem Command.after_of_status {command : Command} {map : Texts}
    (h : (command.answer map).status = .badRequest ∨ (command.answer map).status = .notFound) :
    command.after map = map := by
  cases command with
  | put key value =>
    have hs : ((put key value).answer map).status = if key ∈ map then .ok else .created := rfl
    rw [hs] at h
    split at h <;> exact absurd h (by decide)
  | remove key =>
    by_cases hk : key ∈ map
    · have hs : ((remove key).answer map).status = .ok := by
        rw [answer, if_pos hk]
        rfl
      rw [hs] at h
      exact absurd h (by decide)
    · exact erase_of_notMem hk
  | clear =>
    have hs : (clear.answer map).status = .ok := rfl
    rw [hs] at h
    exact absurd h (by decide)
  | get | list | values | size | say => rfl

/-! ## What requests ask for -/

/-- The answer to a request that is not understood. -/
def refusal (reason : String) : Answer :=
  .text .badRequest ("bad request: " ++ reason ++ "\n")

/-- The routes on which something is answered. -/
def routes : List Route :=
  [⟨.get, "/"⟩, ⟨.post, "/echo"⟩, ⟨.get, "/kv"⟩, ⟨.post, "/kv"⟩, ⟨.post, "/kv/get"⟩,
    ⟨.delete, "/kv"⟩, ⟨.get, "/kv/size"⟩, ⟨.get, "/kv/values"⟩, ⟨.post, "/kv/clear"⟩]

/-- The routes on which the map can change. -/
def writing : List Route :=
  [⟨.post, "/kv"⟩, ⟨.delete, "/kv"⟩, ⟨.post, "/kv/clear"⟩]

/-- What a response shows. -/
def Answer.ofResponse (response : Response) : Answer :=
  ⟨response.status, response.body⟩

/-- What a request asks for. -/
inductive Asks (request : Request) : Command → Prop
  | put {text key value : String} (route : routeOf request = ⟨.post, "/kv"⟩)
      (body : request.body = Utf8.encode text) (entry : IsEntry text key value) :
      Asks request (.put key value)
  | noEntry {reason : String} (route : routeOf request = ⟨.post, "/kv"⟩)
      (body : IsNoEntry request.body reason) : Asks request (.say (refusal reason))
  | get {text key : String} (route : routeOf request = ⟨.post, "/kv/get"⟩)
      (body : request.body = Utf8.encode text) (names : Names text key) : Asks request (.get key)
  | remove {text key : String} (route : routeOf request = ⟨.delete, "/kv"⟩)
      (body : request.body = Utf8.encode text) (names : Names text key) : Asks request (.remove key)
  | noKey {reason : String}
      (route : routeOf request = ⟨.post, "/kv/get"⟩ ∨ routeOf request = ⟨.delete, "/kv"⟩)
      (body : IsNoKey request.body reason) : Asks request (.say (refusal reason))
  | list (route : routeOf request = ⟨.get, "/kv"⟩) : Asks request .list
  | values (route : routeOf request = ⟨.get, "/kv/values"⟩) : Asks request .values
  | size (route : routeOf request = ⟨.get, "/kv/size"⟩) : Asks request .size
  | clear (route : routeOf request = ⟨.post, "/kv/clear"⟩) : Asks request .clear
  | greet (route : routeOf request = ⟨.get, "/"⟩) :
      Asks request (.say (.ofResponse (Router.toResponse (greet request))))
  | echo (route : routeOf request = ⟨.post, "/echo"⟩) : Asks request (.say ⟨.ok, request.body⟩)
  | unknown (route : routeOf request ∉ routes) :
      Asks request (.say (.text .notFound "Not Found\n"))

/-- Every request asks for something. -/
theorem exists_asks (request : Request) : ∃ command, Asks request command := by
  by_cases h : routeOf request ∈ routes
  · simp only [routes, List.mem_cons, List.not_mem_nil, or_false] at h
    rcases h with h | h | h | h | h | h | h | h | h
    · exact ⟨_, .greet h⟩
    · exact ⟨_, .echo h⟩
    · exact ⟨_, .list h⟩
    · rcases exists_entry request.body with ⟨text, key, value, hb, he⟩ | ⟨reason, hb⟩
      · exact ⟨_, .put h hb he⟩
      · exact ⟨_, .noEntry h hb⟩
    · rcases exists_key request.body with ⟨text, key, hb, hn⟩ | ⟨reason, hb⟩
      · exact ⟨_, .get h hb hn⟩
      · exact ⟨_, .noKey (.inl h) hb⟩
    · rcases exists_key request.body with ⟨text, key, hb, hn⟩ | ⟨reason, hb⟩
      · exact ⟨_, .remove h hb hn⟩
      · exact ⟨_, .noKey (.inr h) hb⟩
    · exact ⟨_, .size h⟩
    · exact ⟨_, .values h⟩
    · exact ⟨_, .clear h⟩
  · exact ⟨_, .unknown h⟩

/-- Off the writing routes nothing is asked for that changes the map. -/
theorem Asks.after_of_notMem {request : Request} {command : Command} (h : Asks request command)
    (hr : routeOf request ∉ writing) (map : Texts) : command.after map = map := by
  cases h with
  | put route | remove route | clear route => exact absurd (route ▸ hr) (by decide)
  | _ => rfl

/-! ## One request -/

/-- What is seen of a request: the answer and the map after it. -/
def observe (step : Option Response × Store) : Option Answer × Texts :=
  (step.1.map .ofResponse, toMap step.2)

section Handlers

variable {request : Request} {store : Store}

theorem setEntry_of_ok {key value : String}
    (h : request.bodyText >>= parseEntry = .ok (key, value)) :
    setEntry request store =
      (.ok (.text (if (store.get? key).isSome then .ok else .created)
        (Utf8.encode ("stored " ++ key ++ "\n"))), (store.set key value).2) := by
  rw [setEntry, h]
  rfl

theorem setEntry_of_error {error : HandlerError}
    (h : request.bodyText >>= parseEntry = .error error) :
    setEntry request store = (.error error, store) := by
  rw [setEntry, h]

theorem getEntry_of_ok {key : String} (h : requestKey request = .ok key) :
    getEntry request store =
      (.ok ((store.get? key).elim (missingKey key) fun value => say (value ++ "\n")), store) := by
  rw [getEntry, h]
  show (match store.get? key with | some value => _ | none => _) = _
  cases store.get? key <;> rfl

theorem getEntry_of_error {error : HandlerError} (h : requestKey request = .error error) :
    getEntry request store = (.error error, store) := by
  rw [getEntry, h]

theorem deleteEntry_of_ok {key : String} (h : requestKey request = .ok key) :
    deleteEntry request store =
      (.ok (if (store.get? key).isSome then say ("deleted " ++ key ++ "\n") else missingKey key),
        (store.delete key).2) := by
  simp only [deleteEntry, h, Store.delete]
  cases store.get? key <;> rfl

theorem deleteEntry_of_error {error : HandlerError} (h : requestKey request = .error error) :
    deleteEntry request store = (.error error, store) := by
  rw [deleteEntry, h]

end Handlers

theorem observe_dispatch_of_mem {request : Request} {route : Route} {handler : Handler Store}
    {store after : Store} {answered : Except HandlerError Response}
    (hr : routeOf request = route) (hm : (route, handler) ∈ handlers)
    (hh : handler request store = (answered, after)) (clock : Clock) :
    observe ((router.dispatch request clock store).1, (router.dispatch request clock store).2.2) =
      (some (.ofResponse (Router.toResponse answered)), toMap after) := by
  subst hr
  rw [dispatch_of_mem hm, hh]
  rfl

/-- The case of a handler that leaves the store as it is. -/
theorem observe_dispatch_of_reads (answer : Request → Store → Except HandlerError Response)
    {request : Request} {route : Route} (hr : routeOf request = route)
    (hm : (route, fun request store => (answer request store, store)) ∈ handlers) (clock : Clock)
    (store : Store) :
    observe ((router.dispatch request clock store).1, (router.dispatch request clock store).2.2) =
      (some (.ofResponse (Router.toResponse (answer request store))), toMap store) :=
  observe_dispatch_of_mem hr hm rfl clock

/-- A request is answered as what it asks for is. -/
theorem Asks.observe_dispatch {request : Request} {command : Command} (h : Asks request command)
    (clock : Clock) (store : Store) :
    observe ((router.dispatch request clock store).1, (router.dispatch request clock store).2.2) =
      (some (command.answer (toMap store)), command.after (toMap store)) := by
  cases h with
  | put route body entry =>
    rw [observe_dispatch_of_mem route (by simp [handlers])
      (setEntry_of_ok (requestEntry_of_isEntry body entry)), toMap_set]
    simp only [Command.answer, mem_toMap_iff]
    rfl
  | noEntry route body =>
    rw [observe_dispatch_of_mem route (by simp [handlers]) (setEntry_of_error body.requestEntry)]
    rfl
  | get route body names =>
    rw [observe_dispatch_of_mem route (by simp [handlers])
      (getEntry_of_ok (requestKey_of_names body names))]
    simp only [Command.answer, lookup_toMap]
    cases store.get? _ <;> rfl
  | remove route body names =>
    rw [observe_dispatch_of_mem route (by simp [handlers])
      (deleteEntry_of_ok (requestKey_of_names body names)), toMap_delete]
    simp only [Command.answer, mem_toMap_iff]
    split <;> rfl
  | noKey route body =>
    rcases route with route | route
    · rw [observe_dispatch_of_mem route (by simp [handlers]) (getEntry_of_error body.requestKey)]
      rfl
    · rw [observe_dispatch_of_mem route (by simp [handlers]) (deleteEntry_of_error body.requestKey)]
      rfl
  | list route =>
    rw [observe_dispatch_of_reads (fun _ store => .ok (listEntries store)) route
      (by simp [handlers])]
    simp only [Command.answer, listing_toMap, lines, List.map_map]
    rfl
  | values route =>
    rw [observe_dispatch_of_reads (fun _ store => .ok (listValues store)) route
      (by simp [handlers])]
    simp only [Command.answer, listing_toMap]
    rfl
  | size route =>
    rw [observe_dispatch_of_reads (fun _ store => .ok (say (toString store.size ++ "\n"))) route
      (by simp [handlers])]
    simp only [Command.answer, card_toMap]
    rfl
  | clear route =>
    rw [observe_dispatch_of_mem route (by simp [handlers]) (rfl : clearEntries request store = _)]
    simp only [Command.answer, card_toMap]
    rfl
  | greet route =>
    exact observe_dispatch_of_reads (fun request _ => App.greet request) route
      (by simp [handlers]) clock store
  | echo route =>
    exact observe_dispatch_of_reads (fun request _ => .ok (App.echo request)) route
      (by simp [handlers]) clock store
  | unknown route =>
    rw [dispatch_of_notMem route]
    rfl

/-! ## Any number of requests -/

/-- The runs of the machine: the answer and the map after each of the requests. -/
inductive Runs : Texts → List Request → List (Answer × Texts) → Prop
  | nil {map : Texts} : Runs map [] []
  | cons {map : Texts} {request : Request} {requests : List Request} {command : Command}
      {run : List (Answer × Texts)} (asks : Asks request command)
      (rest : Runs (command.after map) requests run) :
      Runs map (request :: requests) ((command.answer map, command.after map) :: run)

/-- The machine has a run for any requests. -/
theorem exists_runs (map : Texts) (requests : List Request) : ∃ run, Runs map requests run := by
  induction requests generalizing map with
  | nil => exact ⟨[], .nil⟩
  | cons request requests ih =>
    obtain ⟨command, ha⟩ := exists_asks request
    obtain ⟨run, hr⟩ := ih (command.after map)
    exact ⟨_, .cons ha hr⟩

/-- What is seen of a sequence of requests is the one run of the machine that they ask for. -/
theorem map_observe_trace_iff (requests : List Request) (clock : Clock) (store : Store)
    (run : List (Answer × Texts)) :
    (router.trace requests clock store).map observe = run.map (Prod.map some id) ↔
      Runs (toMap store) requests run := by
  induction requests generalizing clock store run with
  | nil =>
    constructor
    · intro h
      rw [List.map_eq_nil_iff.1 h.symm]
      exact .nil
    · rintro ⟨⟩
      rfl
  | cons request requests ih =>
    have hstep {command : Command} (ha : Asks request command) :
        (router.trace (request :: requests) clock store).map observe =
          (some (command.answer (toMap store)), command.after (toMap store)) ::
            (router.trace requests (router.dispatch request clock store).2.1
              (router.dispatch request clock store).2.2).map observe := by
      rw [← ha.observe_dispatch clock store]
      rfl
    have hafter {command : Command} (ha : Asks request command) :
        toMap (router.dispatch request clock store).2.2 = command.after (toMap store) :=
      congrArg Prod.snd (ha.observe_dispatch clock store)
    constructor
    · intro h
      obtain ⟨command, ha⟩ := exists_asks request
      rw [hstep ha] at h
      cases run with
      | nil => cases h
      | cons first rest =>
        rw [List.map_cons, List.cons.injEq] at h
        obtain ⟨answer, map⟩ := first
        cases h.1
        exact .cons ha (hafter ha ▸ (ih _ _ rest).1 h.2)
    · rintro (_ | @⟨_, _, _, command, rest, ha, hrest⟩)
      rw [hstep ha, (ih _ _ rest).2 ((hafter ha).symm ▸ hrest)]
      rfl

/-- The application is the machine over finite maps: from any store and for any requests, the
machine has one run, and the answers and stores of the application are those of it. A request
changes the store only if it is for one of the writing routes, and is answered neither as one that
is not understood nor for what is not there. -/
theorem trace_refines_map (requests : List Request) (clock : Clock) (store : Store) :
    (∃! run, Runs (toMap store) requests run) ∧
    (∀ run : List (Answer × Texts),
      (router.trace requests clock store).map observe = run.map (Prod.map some id) ↔
        Runs (toMap store) requests run) ∧
    ∀ request : Request, (router.dispatch request clock store).2.2 ≠ store →
      routeOf request ∈ writing ∧
        ∃ response, (router.dispatch request clock store).1 = some response ∧
          response.status ≠ .badRequest ∧ response.status ≠ .notFound := by
  have hruns := map_observe_trace_iff requests clock store
  refine ⟨?_, hruns, fun request hne => ?_⟩
  · obtain ⟨run, hrun⟩ := exists_runs (toMap store) requests
    refine ⟨run, hrun, fun other hother => ?_⟩
    have hsame := ((hruns other).2 hother).symm.trans ((hruns run).2 hrun)
    exact ((Option.some_injective _).prodMap Function.injective_id).list_map hsame
  obtain ⟨command, ha⟩ := exists_asks request
  have hd := ha.observe_dispatch clock store
  have hchange : command.after (toMap store) ≠ toMap store := fun he =>
    hne (toMap_injective ((congrArg Prod.snd hd).trans he))
  refine ⟨by_contra fun hr => hchange (ha.after_of_notMem hr _), ?_⟩
  obtain ⟨response, hresponse, hanswer⟩ := Option.map_eq_some_iff.1 (congrArg Prod.fst hd)
  have hs : response.status = (command.answer (toMap store)).status :=
    congrArg Answer.status hanswer
  refine ⟨response, hresponse, fun he => ?_, fun he => ?_⟩
  · exact hchange (Command.after_of_status (.inl (hs ▸ he)))
  · exact hchange (Command.after_of_status (.inr (hs ▸ he)))

end App

end Courier
