import Courier.Proofs.App.Routes
import Courier.Proofs.Response
import Courier.Proofs.SetCookie

/-!
# Counting visits

A visitor is greeted with a number, and told it in a cookie (`welcome`). A client that sends this
cookie back is greeted with the next number (`dispatch_of_follows`), so the numbers go up by one
with each visit, from what the first request tells, and stay at the largest word when they have come
there (`visits_are_counted`).
-/

namespace Courier.App

/-! ## The count in a request -/

/-- The visits that cookies tell: the number in the first cookie for it. There were none if there is
no such cookie, or if it is not a word. -/
inductive Tells (cookies : List Cookie) : Nat → Prop where
  | word {before after : List Cookie} {cookie : Cookie} {n : Nat}
      (he : cookies = before ++ cookie :: after) (hname : cookie.name = visitsCookie)
      (hfirst : ∀ other ∈ before, other.name ≠ visitsCookie)
      (hn : Numeral.IsUnsigned cookie.value n) (hle : n ≤ Numeral.maxUnsigned) : Tells cookies n
  | noWord {before after : List Cookie} {cookie : Cookie}
      (he : cookies = before ++ cookie :: after) (hname : cookie.name = visitsCookie)
      (hfirst : ∀ other ∈ before, other.name ≠ visitsCookie)
      (hn : ∀ n, Numeral.IsUnsigned cookie.value n → Numeral.maxUnsigned < n) : Tells cookies 0
  | missing (h : ∀ cookie ∈ cookies, cookie.name ≠ visitsCookie) : Tells cookies 0

theorem previousVisits_of_word {cookie : Cookie} {n : Nat}
    (hn : Numeral.IsUnsigned cookie.value n) (hle : n ≤ Numeral.maxUnsigned) :
    previousVisits (some cookie) = n := by
  rw [previousVisits, Numeral.unsigned64, Numeral.unsigned_eq_ok_iff.2 ⟨hn, hle⟩]

theorem previousVisits_of_noWord {cookie : Cookie}
    (hn : ∀ n, Numeral.IsUnsigned cookie.value n → Numeral.maxUnsigned < n) :
    previousVisits (some cookie) = 0 := by
  rw [previousVisits]
  cases hw : Numeral.unsigned64 cookie.value with
  | error fault => rfl
  | ok n =>
    obtain ⟨hu, hle⟩ := Numeral.unsigned_eq_ok_iff.1 hw
    exact absurd hle (Nat.not_le.2 (hn n hu))

theorem tells_iff {cookies : List Cookie} {n : Nat} :
    Tells cookies n ↔
      previousVisits (cookies.find? fun cookie => cookie.name == visitsCookie) = n := by
  constructor
  · rintro (⟨he, hname, hfirst, hn, hle⟩ | ⟨he, hname, hfirst, hn⟩ | h)
    · rw [Cookie.find?_eq_some_iff.2 ⟨_, _, he, hname, hfirst⟩, previousVisits_of_word hn hle]
    · rw [Cookie.find?_eq_some_iff.2 ⟨_, _, he, hname, hfirst⟩, previousVisits_of_noWord hn]
    · rw [List.find?_eq_none.2 (by simpa using h), previousVisits]
  · rintro rfl
    cases hf : cookies.find? fun cookie => cookie.name == visitsCookie with
    | none => exact .missing (by simpa using hf)
    | some cookie =>
      obtain ⟨before, after, he, hname, hfirst⟩ := Cookie.find?_eq_some_iff.1 hf
      by_cases hw : ∃ n, Numeral.IsUnsigned cookie.value n ∧ n ≤ Numeral.maxUnsigned
      · obtain ⟨n, hn, hle⟩ := hw
        rw [previousVisits_of_word hn hle]
        exact .word he hname hfirst hn hle
      · have hn : ∀ n, Numeral.IsUnsigned cookie.value n → Numeral.maxUnsigned < n := by
          simpa using hw
        rw [previousVisits_of_noWord hn]
        exact .noWord he hname hfirst hn

/-! ## The count in a response -/

theorem isOctets_toString (n : Nat) : (toString n).toList.all Cookie.isOctet = true := by
  rw [DeclaredLength.toList_toString, List.all_eq_true]
  intro c hc
  have hd : 48 ≤ c.toNat ∧ c.toNat ≤ 57 :=
    Char.isDigit_iff_toNat.1 (Nat.isDigit_of_mem_toDigits (by decide) (by decide) hc)
  simp only [Cookie.isOctet, Bool.and_eq_true, decide_eq_true_eq, bne_iff_ne]
  omega

/-- The number of visits as a cookie. -/
def visitsPair (visits : Nat) : Cookie where
  name := visitsCookie
  value := toString visits
  isOctets := isOctets_toString visits

/-- The cookie with what a client is told to do about it. -/
def reminder (visits : Nat) : SetCookie where
  cookie := visitsPair visits
  path := some "/"
  httpOnly := true
  sameSite := some .lax

theorem visitsReminder_eq (visits : Nat) : visitsReminder visits = .ok (reminder visits) := by
  have hm : Cookie.make visitsCookie (toString visits) = .ok (visitsPair visits) :=
    Cookie.make_eq_ok_iff.2 ⟨rfl, rfl⟩
  rw [visitsReminder, hm]
  rfl

/-- How a visitor is greeted. -/
def welcome (visits : Nat) : Response :=
  (say (greeting visits)).withCookie (reminder visits)

theorem parse_reminder (visits : Nat) :
    SetCookie.parse (reminder visits).render = .ok (reminder visits) := by
  apply SetCookie.IsClean.parse_render
  refine ⟨fun text ht => ?_, nofun, nofun⟩
  obtain rfl := Option.some.inj ht
  exact ⟨by decide, by decide⟩

theorem filter_headers_welcome (visits : Nat) :
    ((welcome visits).headers.filter fun field => Text.sameFold field.1 "Set-Cookie") =
      [("Set-Cookie", (reminder visits).render)] := by
  have ht : Text.sameFold Head.contentTypeHeader "Set-Cookie" = false := by decide
  have hs : Text.sameFold "Set-Cookie" "Set-Cookie" = true := by decide
  simp [welcome, say, Response.withCookie, Response.withHeader, Response.ok, Response.text, ht, hs]

theorem header?_welcome (visits : Nat) :
    (welcome visits).header? "Set-Cookie" = some (reminder visits).render := by
  rw [Response.header?, ← List.head?_filter, filter_headers_welcome]
  rfl

theorem isWritable_welcome (visits : Nat) : (welcome visits).IsWritable := by
  refine (Response.isWritable_text _ _).withHeader (by decide) ?_
  refine SetCookie.hasLineBreak_render (fun text ht => ?_) nofun nofun
  obtain rfl := Option.some.inj ht
  decide

/-! ## The greeting -/

theorem greeting_eq_iff {visits : Nat} : greeting visits = "Hello World!\n" ↔ visits = 1 := by
  unfold greeting
  by_cases h : visits = 1
  · simp [h]
  · rw [if_neg h]
    apply iff_of_false _ h
    intro he
    have hc := congrArg (fun s => s.toList[6]?) he
    simp [String.toList_append] at hc

theorem length_greeting_le {visits : Nat} (h : visits ≤ Numeral.maxUnsigned) :
    (greeting visits).toList.length ≤ 40 := by
  have hd : (toString visits).toList.length ≤ 20 := by
    rw [DeclaredLength.toList_toString]
    apply Nat.toDigits_length 10 visits 20 (by decide)
    exact Nat.lt_of_le_of_lt h (by decide)
  unfold greeting
  split_ifs
  · decide
  · simp only [String.toList_append, List.length_append]
    have hl : "Hello again, visit ".toList.length = 19 := by decide
    have hr : "\n".toList.length = 1 := by decide
    omega

/-- The greeting is short enough to be sent. -/
theorem exists_toOutgoing_welcome {visits : Nat} (h : visits ≤ Numeral.maxUnsigned) :
    ∃ outgoing, (welcome visits).toOutgoing = .ok outgoing := by
  apply Response.exists_toOutgoing (isWritable_welcome visits)
  show (Utf8.encode (greeting visits)).length ≤ Numeral.maxSigned
  have hl := Utf8.length_encode_le (greeting visits)
  have hg := length_greeting_le h
  rw [Numeral.maxSigned]
  omega

/-- The response greets a visitor whose visit has the number, and sets this number, and no other
cookie. -/
structure Counts (response : Response) (visits : Nat) : Prop where
  status : response.status = .ok
  sets : ∃ header set, response.header? "Set-Cookie" = some header ∧
    (response.headers.filter fun field => Text.sameFold field.1 "Set-Cookie") =
      [("Set-Cookie", header)] ∧
    SetCookie.parse header = .ok set ∧ set.cookie.name = visitsCookie ∧
    set.cookie.value = toString visits
  body : response.body = Utf8.encode (greeting visits)
  welcomes_iff : response.body = Utf8.encode "Hello World!\n" ↔ visits = 1
  sent : ∃ outgoing, response.toOutgoing = .ok outgoing

theorem counts_welcome {visits : Nat} (h : visits ≤ Numeral.maxUnsigned) :
    Counts (welcome visits) visits where
  status := rfl
  sets := ⟨_, _, header?_welcome visits, filter_headers_welcome visits, parse_reminder visits,
    rfl, rfl⟩
  body := rfl
  welcomes_iff := Utf8.encode_injective.eq_iff.trans greeting_eq_iff
  sent := exists_toOutgoing_welcome h

/-! ## One visit -/

theorem greet_of_tells {request : Request} {cookies : List Cookie} {visits : Nat}
    (hc : request.cookies = .ok cookies) (ht : Tells cookies visits) :
    greet request = .ok (welcome (min (visits + 1) Numeral.maxUnsigned)) := by
  have hf : request.cookie? visitsCookie =
      .ok (cookies.find? fun cookie => cookie.name == visitsCookie) := by
    rw [Request.cookie?, hc]
    rfl
  rw [greet, hf]
  show Except.mapError HandlerError.cookie (visitsReminder _) >>= _ = _
  rw [visitsReminder_eq, tells_iff.1 ht]
  rfl

theorem dispatch_greeting {request : Request} {cookies : List Cookie} {visits : Nat}
    (hr : routeOf request = ⟨.get, "/"⟩) (hc : request.cookies = .ok cookies)
    (ht : Tells cookies visits) (clock : Clock) (store : Store) :
    router.dispatch request clock store =
      (some (welcome (min (visits + 1) Numeral.maxUnsigned)), clock, store) := by
  have hm : (routeOf request, fun request store => (greet request, store)) ∈ handlers := by
    rw [hr]
    exact List.mem_cons_self
  rw [dispatch_of_mem hm, greet_of_tells hc ht]
  rfl

/-! ## Visits one after the other -/

/-- The request asks for the greeting, and sends the pair that a client reads out of what the
response sets. -/
structure Follows (response : Response) (request : Request) : Prop where
  route : routeOf request = ⟨.get, "/"⟩
  sent : ∃ header set, response.header? "Set-Cookie" = some header ∧
    SetCookie.parse header = .ok set ∧
    request.head.headers.getAll Request.cookieHeader = [set.cookie.render]

/-- The request is the one with this number, counted from one, of requests that each follow the
response to the one before. -/
inductive Asked (first : Request) : Nat → Request → Prop where
  | first : Asked first 1 first
  | next {k : Nat} {request later : Request} {response : Response} {clock : Clock} {store : Store}
      {left : Clock × Store} (before : Asked first k request)
      (answered : router.dispatch request clock store = (some response, left))
      (follows : Follows response later) : Asked first (k + 1) later

theorem Follows.cookies_eq {visits : Nat} {request : Request}
    (h : Follows (welcome visits) request) : request.cookies = .ok [visitsPair visits] := by
  obtain ⟨header, set, hheader, hparse, hsent⟩ := h.sent
  rw [header?_welcome] at hheader
  obtain rfl := Option.some.inj hheader
  rw [parse_reminder] at hparse
  obtain rfl := Except.ok.inj hparse
  rw [Request.cookies_eq, hsent]
  exact Cookie.parseHeader_join_render [visitsPair visits]

theorem tells_visitsPair {visits : Nat} (h : visits ≤ Numeral.maxUnsigned) :
    Tells [visitsPair visits] visits :=
  .word (List.nil_append _).symm rfl nofun (.inl (Numeral.denotes_toString visits)) h

/-- The cookie of a response can be sent with a request, whatever else this has. -/
theorem exists_follows {request : Request} (hr : routeOf request = ⟨.get, "/"⟩) (visits : Nat) :
    ∃ later, Follows (welcome visits) later := by
  have htrim : Text.trim (visitsPair visits).render = (visitsPair visits).render :=
    (visitsPair visits).trim_render
  have hline : Text.hasLineBreak (Text.trim (visitsPair visits).render) = false := by
    rw [htrim]
    exact (visitsPair visits).hasLineBreak_render
  obtain ⟨headers, hs⟩ := (request.head.headers.exists_set_eq_ok_iff Request.cookieHeader
    (visitsPair visits).render).2 ⟨by decide, hline⟩
  refine ⟨{ request with head := { request.head with headers } }, hr, (reminder visits).render,
    reminder visits, header?_welcome visits, parse_reminder visits, ?_⟩
  show headers.getAll Request.cookieHeader = [(visitsPair visits).render]
  rw [Headers.getAll_set hs, if_pos rfl, htrim]

/-- Each of the requests asks for the greeting, and tells the number of the visit before. -/
theorem Asked.tells {first request : Request} {cookies : List Cookie} {visits k : Nat}
    (h : Asked first k request) (hr : routeOf first = ⟨.get, "/"⟩)
    (hc : first.cookies = .ok cookies) (ht : Tells cookies visits) :
    routeOf request = ⟨.get, "/"⟩ ∧ ∃ sent told, request.cookies = .ok sent ∧ Tells sent told ∧
      min (told + 1) Numeral.maxUnsigned = min (visits + k) Numeral.maxUnsigned := by
  induction h with
  | first => exact ⟨hr, cookies, visits, hc, ht, rfl⟩
  | next before answered follows ih =>
    obtain ⟨hroute, sent, told, hsent, htold, hnext⟩ := ih
    rw [dispatch_greeting hroute hsent htold, hnext] at answered
    obtain ⟨hw, -⟩ := Prod.mk.inj answered
    obtain rfl := Option.some.inj hw
    refine ⟨follows.route, _, _, follows.cookies_eq, tells_visitsPair (Nat.min_le_right _ _), ?_⟩
    -- To stop at the largest word after each visit comes to stopping there once.
    omega

theorem Asked.dispatch {first request : Request} {cookies : List Cookie} {visits k : Nat}
    (h : Asked first k request) (hr : routeOf first = ⟨.get, "/"⟩)
    (hc : first.cookies = .ok cookies) (ht : Tells cookies visits) (clock : Clock)
    (store : Store) :
    router.dispatch request clock store =
      (some (welcome (min (visits + k) Numeral.maxUnsigned)), clock, store) := by
  obtain ⟨hroute, sent, told, hsent, htold, hnext⟩ := h.tells hr hc ht
  rw [dispatch_greeting hroute hsent htold, hnext]

/-- There is always a next request. -/
theorem exists_asked {first : Request} {cookies : List Cookie} {visits k : Nat} (hk : 1 ≤ k)
    (hr : routeOf first = ⟨.get, "/"⟩) (hc : first.cookies = .ok cookies)
    (ht : Tells cookies visits) : ∃ request, Asked first k request := by
  induction k, hk using Nat.le_induction with
  | base => exact ⟨first, .first⟩
  | succ k hk ih =>
    obtain ⟨request, before⟩ := ih
    obtain ⟨later, follows⟩ := exists_follows hr (min (visits + k) Numeral.maxUnsigned)
    exact ⟨later, .next before (before.dispatch hr hc ht {} .empty) follows⟩

/-- The cookies of a first request tell one number of visits. Each request after it that sends back
what the response before has set is answered, with the number of its own visit, as long as a word
holds that, and from then on with the largest word. -/
theorem visits_are_counted {first : Request} {cookies : List Cookie}
    (hr : routeOf first = ⟨.get, "/"⟩) (hc : first.cookies = .ok cookies) :
    ∃ visits, (∀ n, Tells cookies n ↔ n = visits) ∧ ∀ k, 1 ≤ k →
      (∃ request, Asked first k request) ∧
      ∀ request, Asked first k request → ∀ clock store, ∃ response,
        router.dispatch request clock store = (some response, clock, store) ∧
        Counts response (min (visits + k) Numeral.maxUnsigned) := by
  obtain ⟨visits, ht⟩ : ∃ visits, Tells cookies visits := ⟨_, tells_iff.2 rfl⟩
  refine ⟨visits, fun n => ?_, fun k hk => ⟨exists_asked hk hr hc ht, ?_⟩⟩
  · rw [tells_iff, tells_iff.1 ht, eq_comm]
  · intro request h clock store
    exact ⟨_, h.dispatch hr hc ht clock store, counts_welcome (Nat.min_le_right _ _)⟩

/-- A request with a count in the second of its cookies, and another one behind. -/
def returning : Request where
  line := { method := .get, path := "/" }
  head := ⟨"GET / HTTP/1.1",
    ⟨.insert .empty "Cookie" ["a=1; visits=+18446744073709551614", "visits=7"]⟩, none, 0⟩
  body := []

theorem returning_is_counted :
    (∃ request, Asked returning 2 request) ∧
      ∀ request, Asked returning 2 request → ∀ clock store, ∃ response,
        router.dispatch request clock store = (some response, clock, store) ∧
        Counts response Numeral.maxUnsigned := by
  have hc : returning.cookies = .ok
      [{ name := "a", value := "1" }, { name := "visits", value := "+18446744073709551614" },
        { name := "visits", value := "7" }] := by
    decide +kernel
  obtain ⟨visits, ht, h⟩ := visits_are_counted (by decide) hc
  obtain rfl : 18446744073709551614 = visits := (ht _).1 (tells_iff.2 (by decide +kernel))
  have hm : min (18446744073709551614 + 2) Numeral.maxUnsigned = Numeral.maxUnsigned := by decide
  exact hm ▸ h 2 (by decide)

end Courier.App
