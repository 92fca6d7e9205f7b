import Courier.Proofs.App.Refinement
import Courier.Proofs.Text.Split

/-!
# Dumps of the store

The list of all entries is a dump of the store, one line for each of them (`dump`). Whatever
requests have been answered, each key is trimmed and holds neither an equals sign nor a line break,
and each text is one line: every command leaves the map so (`Asks.isClean_after`), and so does every
sequence of requests (`isClean_after`).

Hence a line of the dump is told apart from the others and read back as its entry (`split_lines`,
`IsClean.splitOnce_lineOf`, `IsClean.isEntry_lineOf`), and the lines, sent one by one in any order,
put the same entries into a store without keys (`dump_restores`).
-/

namespace Courier

/-- The state that is left when requests have been answered one after the other. -/
def Router.after {σ : Type} (r : Router σ) (requests : List Request) (clock : Clock) (state : σ) :
    σ :=
  (r.trace requests clock state).foldl (fun _ step => step.2) state

theorem Router.after_cons {σ : Type} (r : Router σ) (request : Request) (requests : List Request)
    (clock : Clock) (state : σ) :
    r.after (request :: requests) clock state =
      r.after requests (r.dispatch request clock state).2.1 (r.dispatch request clock state).2.2 :=
  rfl

namespace App

open Text

/-! ## What can be in the store -/

/-- Each key is the trimmed form of itself, and each text is one line. -/
def IsClean (map : Texts) : Prop :=
  ∀ key value, map.lookup key = some value → Names key key ∧ hasLineBreak value = false

theorem Names.self {text key : String} (h : Names text key) : Names key key := by
  obtain ⟨⟨-, -, -, -, -, hh, hl⟩, hk⟩ := h
  exact ⟨⟨[], [], by simp, nofun, nofun, hh, hl⟩, hk⟩

theorem isClean_empty : IsClean ∅ := by
  intro key value h
  rw [Finmap.lookup_empty] at h
  cases h

theorem IsClean.insert {map : Texts} (hm : IsClean map) {key value : String} (hk : Names key key)
    (hv : hasLineBreak value = false) : IsClean (map.insert key value) := by
  intro other text h
  by_cases ho : other = key
  · subst ho
    rw [Finmap.lookup_insert] at h
    cases h
    exact ⟨hk, hv⟩
  · rw [Finmap.lookup_insert_of_ne _ ho] at h
    exact hm other text h

theorem IsClean.erase {map : Texts} (hm : IsClean map) (key : String) :
    IsClean (map.erase key) := by
  intro other text h
  by_cases ho : other = key
  · rw [ho, Finmap.lookup_erase] at h
    cases h
  · rw [Finmap.lookup_erase_ne ho] at h
    exact hm other text h

/-- Whatever a request asks for, the map stays clean. -/
theorem Asks.isClean_after {request : Request} {command : Command} (h : Asks request command)
    {map : Texts} (hm : IsClean map) : IsClean (command.after map) := by
  cases h with
  | put route body entry =>
    obtain ⟨left, -, hv, hk⟩ := entry
    exact hm.insert hk.self hv
  | remove route body names => exact hm.erase _
  | clear route => exact isClean_empty
  | _ => exact hm

theorem isClean_dispatch (request : Request) (clock : Clock) {store : Store}
    (hs : IsClean (toMap store)) :
    IsClean (toMap (router.dispatch request clock store).2.2) := by
  obtain ⟨command, ha⟩ := exists_asks request
  have hafter : toMap (router.dispatch request clock store).2.2 = command.after (toMap store) :=
    congrArg Prod.snd (ha.observe_dispatch clock store)
  rw [hafter]
  exact ha.isClean_after hs

/-- Whatever requests are answered, the map stays clean. -/
theorem isClean_after (requests : List Request) (clock : Clock) {store : Store}
    (hs : IsClean (toMap store)) : IsClean (toMap (router.after requests clock store)) := by
  induction requests generalizing clock store with
  | nil => exact hs
  | cons request requests ih =>
    rw [Router.after_cons]
    exact ih _ (isClean_dispatch request clock hs)

theorem isClean_toMap_empty : IsClean (toMap .empty) := by
  intro key value h
  rw [lookup_toMap, Store.get?_empty] at h
  cases h

/-! ## Lines -/

/-- An entry as a line. -/
def lineOf (entry : String × String) : String :=
  entry.1 ++ "=" ++ entry.2

/-- One line for each entry, in the order of the keys. -/
def dump (store : Store) : List String :=
  store.entries.map lineOf

/-- Lines are the parts between the line feeds behind them; behind the last there is nothing. -/
theorem split_lines {texts : List String} (h : ∀ text ∈ texts, '\n' ∉ text.toList) :
    split '\n' (lines texts) = texts ++ [""] := by
  induction texts with
  | nil => rfl
  | cons text rest ih =>
    obtain ⟨ht, hr⟩ := List.forall_mem_cons.1 h
    have hcons : (lines (text :: rest)).toList = text.toList ++ '\n' :: (lines rest).toList := by
      rw [lines, List.map_cons, String.join_cons, String.toList_append, String.toList_append,
        List.append_assoc]
      rfl
    have hrest := ih hr
    rw [split] at hrest
    rw [split, hcons, splitChars_append ht, List.map_cons, hrest, String.ofList_toList]
    rfl

theorem newline_notMem {text : String} (h : hasLineBreak text = false) : '\n' ∉ text.toList := by
  intro hm
  rw [hasLineBreak, List.any_eq_false] at h
  exact h _ hm (by decide)

section Clean

variable {store : Store} (hs : IsClean (toMap store)) {entry : String × String}
  (he : entry ∈ store.entries)

include hs he

theorem IsClean.of_mem : Names entry.1 entry.1 ∧ hasLineBreak entry.2 = false := by
  refine hs entry.1 entry.2 ?_
  rw [lookup_toMap]
  exact Table.get?_eq_some_iff.2 he

theorem IsClean.newline_notMem_lineOf : '\n' ∉ (lineOf entry).toList := by
  obtain ⟨⟨-, -, -, hk⟩, hv⟩ := hs.of_mem he
  refine newline_notMem ?_
  rw [lineOf, hasLineBreak_append, hasLineBreak_append, hk, hv]
  decide

/-- The first equals sign of a line stands between a key and its text. -/
theorem IsClean.splitOnce_lineOf : splitOnce '=' (lineOf entry) = some entry := by
  obtain ⟨⟨-, -, hk, -⟩, -⟩ := hs.of_mem he
  exact splitOnce_eq_some_iff.2 ⟨rfl, hk⟩

/-- Nothing is trimmed off a line or cut off its end when it is read as an entry. -/
theorem IsClean.isEntry_lineOf : IsEntry (lineOf entry) entry.1 entry.2 := by
  obtain ⟨hn, hv⟩ := hs.of_mem he
  refine ⟨entry.1, ⟨[], ?_, hn.2.2.1, nofun, fun c hc => ?_⟩, hv, hn⟩
  · simp [lineOf]
  · have := List.any_eq_false.1 hv c (List.mem_of_mem_getLast? hc)
    simpa using this

end Clean

/-! ## Sending lines -/

/-- The request would put the entry into the store. -/
def Posts (request : Request) (entry : String × String) : Prop :=
  routeOf request = ⟨.post, "/kv"⟩ ∧ request.body = Utf8.encode (lineOf entry) ∧
    IsEntry (lineOf entry) entry.1 entry.2

theorem Posts.dispatch {request : Request} {entry : String × String} (h : Posts request entry)
    (clock : Clock) {store : Store} (hn : store.get? entry.1 = none) :
    ∃ response, response.status = .created ∧ router.dispatch request clock store =
      (some response, clock, (store.set entry.1 entry.2).2) := by
  obtain ⟨hr, hb, he⟩ := h
  have hm : (routeOf request, setEntry) ∈ handlers := by
    rw [hr]
    simp [handlers]
  rw [dispatch_of_mem hm, setEntry_of_ok (requestEntry_of_isEntry hb he), hn]
  exact ⟨_, rfl, rfl⟩

/-- Entries with new keys are all created, and they are what the store has got more. -/
theorem created_of_posts {posts : List Request} {entries : List (String × String)}
    (h : List.Forall₂ Posts posts entries) (hd : (entries.map (·.1)).Nodup) (clock : Clock)
    {store : Store} (hn : ∀ entry ∈ entries, store.get? entry.1 = none) :
    (∀ step ∈ router.trace posts clock store,
      ∃ response, step.1 = some response ∧ response.status = .created) ∧
    ∀ key value, (router.after posts clock store).get? key = some value ↔
      (key, value) ∈ entries ∨ store.get? key = some value := by
  induction h generalizing clock store with
  | nil => exact ⟨nofun, fun key value => by simp [Router.after, Router.trace]⟩
  | @cons post entry posts entries hp _ ih =>
    obtain ⟨hne, hns⟩ := List.forall_mem_cons.1 hn
    rw [List.map_cons, List.nodup_cons] at hd
    obtain ⟨response, hcreated, hdispatch⟩ := hp.dispatch clock hne
    have hfresh : ∀ other ∈ entries, (store.set entry.1 entry.2).2.get? other.1 = none := by
      intro other ho
      have hk : other.1 ≠ entry.1 := fun hk => hd.1 (hk ▸ List.mem_map_of_mem ho)
      rw [Store.get?_set, if_neg hk]
      exact hns other ho
    obtain ⟨hall, hget⟩ := ih hd.2 clock hfresh
    refine ⟨fun step hs => ?_, fun key value => ?_⟩
    · rw [Router.trace, hdispatch] at hs
      rcases List.mem_cons.1 hs with rfl | hs
      · exact ⟨response, rfl, hcreated⟩
      · exact hall step hs
    · rw [Router.after_cons, hdispatch, hget, Store.get?_set, List.mem_cons]
      by_cases hk : key = entry.1
      · subst hk
        rw [if_pos rfl, hne, Option.some.injEq, Prod.ext_iff]
        simp [eq_comm, or_comm]
      · rw [if_neg hk, Prod.ext_iff]
        simp [hk]

theorem nodup_keys (store : Store) : (store.entries.map (·.1)).Nodup := by
  refine List.Pairwise.imp (fun h => ne_of_lt h) ?_
  exact List.pairwise_map.2 store.table.sorted

/-- Requests that send the lines of a dump, in any order, each send an entry of the store. -/
theorem exists_posts {store : Store} (hs : IsClean (toMap store)) {posts : List Request}
    (hr : ∀ post ∈ posts, routeOf post = ⟨.post, "/kv"⟩)
    (hb : (posts.map (·.body)).Perm ((dump store).map Utf8.encode)) :
    ∃ entries, List.Forall₂ Posts posts entries ∧ entries.Perm store.entries := by
  have hline : List.Forall₂ (fun body entry => body = Utf8.encode (lineOf entry))
      ((dump store).map Utf8.encode) store.entries := by
    rw [dump, List.map_map, List.forall₂_map_left_iff]
    exact List.forall₂_same.2 fun entry _ => rfl
  obtain ⟨entries, hsent, hperm⟩ := List.perm_comp_forall₂ hb hline
  refine ⟨entries, ?_, hperm⟩
  rw [List.forall₂_map_left_iff] at hsent
  rw [List.forall₂_iff_zip] at hsent ⊢
  refine ⟨hsent.1, fun {post entry} hz => ?_⟩
  obtain ⟨hpost, hentry⟩ := List.of_mem_zip hz
  exact ⟨hr post hpost, hsent.2 hz, hs.isEntry_lineOf (hperm.mem_iff.1 hentry)⟩

/-! ## The whole of it -/

/-- The listing of a store that requests have made is one line for each entry, in strictly
increasing order of the keys, each of which reads back as its entry; the texts are listed in the
same order. Sent to a store without keys, in any order, the lines are all created, and make the same
store. -/
theorem dump_restores (requests : List Request) (clock : Clock) {listing texts : Request}
    (hl : routeOf listing = ⟨.get, "/kv"⟩) (ht : routeOf texts = ⟨.get, "/kv/values"⟩) :
    let store := router.after requests clock .empty
    (router.dispatch listing clock store).1.map Answer.ofResponse =
        some (Answer.text .ok (lines (dump store))) ∧
    split '\n' (lines (dump store)) = dump store ++ [""] ∧
    (dump store).length = store.size ∧
    (dump store).map (splitOnce '=') = store.entries.map some ∧
    (store.entries.Pairwise fun a b => a.1 < b.1) ∧
    (router.dispatch texts clock store).1.map Answer.ofResponse =
        some (Answer.text .ok (lines store.values)) ∧
    split '\n' (lines store.values) = store.values ++ [""] ∧
    (dump store).map (fun line => (splitOnce '=' line).map (·.2)) = store.values.map some ∧
    ∀ (posts : List Request) (clock : Clock),
      (∀ post ∈ posts, routeOf post = ⟨.post, "/kv"⟩) →
      (posts.map (·.body)).Perm ((dump store).map Utf8.encode) →
      (∀ step ∈ router.trace posts clock .empty,
        ∃ response, step.1 = some response ∧ response.status = .created) ∧
      router.after posts clock .empty = store := by
  intro store
  have hs : IsClean (toMap store) := isClean_after requests clock isClean_toMap_empty
  have hentries : (dump store).map (splitOnce '=') = store.entries.map some := by
    rw [dump, List.map_map]
    exact List.map_congr_left fun entry he => hs.splitOnce_lineOf he
  refine ⟨?_, ?_, List.length_map _, hentries, store.table.sorted, ?_, ?_, ?_, ?_⟩
  · have := congrArg Prod.fst ((Asks.list hl).observe_dispatch clock store)
    rw [Command.answer, listing_toMap] at this
    exact this
  · refine split_lines fun line hm => ?_
    obtain ⟨entry, he, rfl⟩ := List.mem_map.1 hm
    exact hs.newline_notMem_lineOf he
  · have := congrArg Prod.fst ((Asks.values ht).observe_dispatch clock store)
    rw [Command.answer, listing_toMap] at this
    exact this
  · refine split_lines fun text hm => ?_
    obtain ⟨entry, he, rfl⟩ := List.mem_map.1 hm
    exact newline_notMem (hs.of_mem he).2
  · have := congrArg (List.map (Option.map Prod.snd)) hentries
    rw [List.map_map, List.map_map] at this
    rw [Store.values, Table.values, List.map_map]
    exact this
  · intro posts later hr hb
    obtain ⟨entries, hposts, hperm⟩ := exists_posts hs hr hb
    have hd : (entries.map (·.1)).Nodup := (hperm.map _).nodup_iff.2 (nodup_keys store)
    obtain ⟨hall, hget⟩ := created_of_posts hposts hd later fun entry _ => Store.get?_empty entry.1
    refine ⟨hall, toMap_injective (Finmap.ext_lookup fun key => Option.ext fun value => ?_)⟩
    rw [lookup_toMap, lookup_toMap, hget, Store.get?_empty, hperm.mem_iff]
    simp only [reduceCtorEq, or_false]
    exact Table.get?_eq_some_iff.symm

theorem dump_restores_texts :
    let ask (method : Method) (path : String) (body : Bytes) : Request :=
      { line := { method, path }, head := ⟨"", .empty, none, 0⟩, body }
    let put (text : String) := ask .post "/kv" (Utf8.encode text)
    let store := router.after [put "b=  x=y \r\n", put "\t a é=", put "c", put "b=="] {} .empty
    let posts := [put "b==", put "a é="]
    (∀ step ∈ router.trace posts {} .empty,
      ∃ response, step.1 = some response ∧ response.status = .created) ∧
    router.after posts {} .empty = store := by
  intro ask put store posts
  have hl : routeOf (ask .get "/kv" []) = ⟨.get, "/kv"⟩ := rfl
  have ht : routeOf (ask .get "/kv/values" []) = ⟨.get, "/kv/values"⟩ := rfl
  obtain ⟨-, -, -, -, -, -, -, -, hrestores⟩ :=
    dump_restores [put "b=  x=y \r\n", put "\t a é=", put "c", put "b=="] {} hl ht
  have hr : ∀ post ∈ posts, routeOf post = ⟨.post, "/kv"⟩ := by
    simp only [posts, List.mem_cons, List.not_mem_nil, or_false]
    rintro post (rfl | rfl) <;> rfl
  exact hrestores posts {} hr (by decide +kernel)

end App

end Courier
