import Courier.Proofs.Deadline.Stream
import Courier.Proofs.Outcome

/-!
# Streams that hold what is asked for

Where a stream holds what an operation is to take from it, the operation ends well unless it is too
late, however the stream ends behind that: it does not fail, and it is not too late if everything
that the stream holds comes in time (`Outcome.EndsWell`). `endsWell_readLine` says so of a line, and
`carries_run` of a transfer to a sink that takes everything.
-/

namespace Courier

/-- The operation ends well unless it is too late, and in time it does. `late` are the errors that
say that it is too late. -/
def Outcome.EndsWell {ε α : Type} (late : ε → Prop) (timely : Prop) : Outcome ε α → Prop
  | .ok _ => True
  | .error e => late e ∧ ¬timely
  | .expired | .stalled => ¬timely

/-- The operation was too late. -/
def Outcome.EndsLate {ε α : Type} (late : ε → Prop) : Outcome ε α → Prop
  | .ok _ => False
  | .error e => late e
  | .expired | .stalled => True

namespace Outcome.EndsWell

variable {ε ε' α β : Type} {late : ε → Prop} {late' : ε' → Prop} {timely timely' : Prop}
  {outcome : Outcome ε α}

theorem mono (h : outcome.EndsWell late timely) (ht : timely' → timely) :
    outcome.EndsWell late timely' := by
  cases outcome with
  | ok value => trivial
  | error error => exact ⟨h.1, fun ht' => h.2 (ht ht')⟩
  | expired => exact fun ht' => h (ht ht')
  | stalled => exact fun ht' => h (ht ht')

theorem imp {wider : ε → Prop} (h : outcome.EndsWell late timely)
    (hw : ∀ error, late error → wider error) : outcome.EndsWell wider timely := by
  cases outcome with
  | error error => exact ⟨hw error h.1, h.2⟩
  | _ => exact h

theorem map (h : outcome.EndsWell late timely) (f : α → β) :
    (outcome.map f).EndsWell late timely := by
  cases outcome <;> exact h

theorem mapError (h : outcome.EndsWell late timely) {f : ε → ε'}
    (hf : ∀ error, late error → late' (f error)) :
    (outcome.mapError f).EndsWell late' timely := by
  cases outcome with
  | error error => exact ⟨hf error h.1, h.2⟩
  | _ => exact h

theorem within (h : outcome.EndsWell late timely) {error : ε} (he : late error) :
    (outcome.within error).EndsWell late timely := by
  cases outcome with
  | expired => exact ⟨he, h⟩
  | _ => exact h

theorem exists_ok (h : outcome.EndsWell late timely) (ht : timely ∨ ¬outcome.EndsLate late) :
    ∃ value, outcome = .ok value := by
  cases outcome with
  | ok value => exact ⟨value, rfl⟩
  | error error => exact absurd ht (not_or.2 ⟨h.2, not_not.2 h.1⟩)
  | expired => exact absurd ht (not_or.2 ⟨h, not_not.2 trivial⟩)
  | stalled => exact absurd ht (not_or.2 ⟨h, not_not.2 trivial⟩)

end Outcome.EndsWell

namespace Inlet

variable {i i' : Inlet} {clock clock' later : Clock} {deadline : Deadline} {limit : Nat}
  {wanted : Wanted}

/-- Everything that the stream holds is there before the deadline, however the stream ends. -/
def Timely (i : Inlet) (clock : Clock) (deadline : Deadline) : Prop :=
  clock.Allows deadline (i.settled clock.now)

theorem timely_earliest_iff {other : Deadline} :
    i.Timely clock (deadline.earliest other) ↔ i.Timely clock deadline ∧ i.Timely clock other := by
  simp only [Timely, Clock.Allows, Deadline.passed_earliest, Bool.or_eq_false_iff]
  tauto

theorem Gives.timely_iff {given : Bytes} (h : i.Gives clock given i' clock') :
    i'.Timely clock' deadline ↔ i.Timely clock deadline := by
  unfold Timely Clock.Allows
  rw [h.settled, h.horizon]

theorem gives_of_still (h : clock.Still later) (i : Inlet) : i.Gives clock [] i later :=
  ⟨rfl, rfl, by rw [h.now], h.horizon⟩

/-- No time passes behind what was given. -/
theorem Gives.still {given : Bytes} (h : i.Gives clock given i' clock') (hs : clock'.Still later) :
    i.Gives clock given i' later := by
  have hg := h.trans (gives_of_still hs i')
  rwa [List.append_nil] at hg

/-! ## Reads -/

/-- A stream with bytes gives some of them, or there is a pause in it. -/
theorem read_cases_of_ne_nil {result : ReadResult} (hl : limit ≠ 0) (hb : i.bytes ≠ [])
    (h : i.read wanted clock limit = (result, clock', i')) :
    (∃ seen ≠ [], result = .data seen) ∨
      ∃ wake rest, result = .pending (some wake) ∧ i'.source.pieces = .notBefore wake :: rest := by
  obtain hd | hp | ⟨-, hnil⟩ := read_cases hl h
  · exact .inl hd
  · exact .inr hp
  · exact absurd hnil hb

/-- A stream with bytes lets nobody wait for anything but a pause in it. -/
theorem not_timely_of_read {wake : Option Time} {ended : Wait} {waiting : Clock} (hl : limit ≠ 0)
    (hb : i.bytes ≠ []) (hr : i.read wanted clock limit = (.pending wake, clock', i'))
    (hs : clock'.Still waiting) (hw : waiting.wait wake deadline = (ended, later))
    (hn : ended ≠ .ready) : ¬i.Timely clock deadline := by
  intro ht
  obtain ⟨seen, -, he⟩ | ⟨moment, rest, he, hp⟩ := read_cases_of_ne_nil hl hb hr
  · cases he
  · cases he
    obtain ⟨last, hready⟩ := exists_wait hp (((gives_read hr).still hs).allows ht)
    rw [hw] at hready
    exact hn (Prod.mk.inj hready).1

/-- A line that is there is read, unless it is too late. -/
theorem endsWell_readLine {outcome : Outcome String Bytes}
    (hw : (takeLine limit i.bytes).getLast? = some Bytes.lineFeed)
    (h : i.readLine clock deadline limit = (outcome, clock', i')) :
    outcome.EndsWell (fun _ => False) (i.Timely clock deadline) := by
  have hb : ∀ {limit : Nat} {bytes : Bytes},
      (takeLine limit bytes).getLast? = some Bytes.lineFeed → bytes ≠ [] := by
    rintro limit _ hw rfl
    rw [List.prefix_nil.1 (takeLine_isPrefix limit [])] at hw
    cases hw
  unfold readLine at h
  fun_induction gather .line i clock deadline limit generalizing outcome clock' i' with
  | case1 i clock =>
    cases h
    trivial
  | case2 i clock limit hl reason clock₁ i₁ hr =>
    obtain ⟨seen, -, he⟩ | ⟨wake, rest, he, -⟩ := read_cases_of_ne_nil hl (hb hw) hr <;> cases he
  | case3 i clock limit hl wake clock₁ i₁ hr later hwait ih =>
    have hg := gives_read_skip hl hr hwait
    have hsame : (i₁.skip later.now).bytes = i.bytes := hg.bytes
    exact (ih (hsame ▸ hw) h).mono hg.timely_iff.2
  | case4 i clock limit hl wake clock₁ i₁ hr later hwait
  | case5 i clock limit hl wake clock₁ i₁ hr later hwait =>
    cases h
    exact not_timely_of_read hl (hb hw) hr ⟨rfl, rfl⟩ hwait (by rintro ⟨⟩)
  | case6 i clock limit hl seen clock₁ i₁ hr he =>
    cases h
    trivial
  | case7 i clock limit hl seen clock₁ i₁ hr he outcome clock₂ i₂ hn ih =>
    cases h
    rw [Bool.or_eq_true, not_or] at he
    have hfirst : takeLine limit i.bytes = seen ++ takeLine (limit - seen.length) i₁.bytes :=
      (first_of_read hl hr).2 (Bool.eq_false_iff.2 he.2)
    -- The line feed is in what is still to be read.
    have hrest : (takeLine (limit - seen.length) i₁.bytes).getLast? = some Bytes.lineFeed := by
      rw [hfirst, List.getLast?_append] at hw
      exact (Option.or_eq_some_iff.1 hw).resolve_right fun hlast =>
        he.2 (decide_eq_true hlast.2)
    exact ((ih hrest hn).mono (gives_read hr).timely_iff.2).map _

end Inlet

namespace Channel

/-- The operation ends well unless it is too late, and then these bytes have been taken and the way
out still takes everything. -/
structure Carries {ε α : Type} (late : ε → Prop) (timely : Prop) (c : Channel) (given : Bytes)
    (outcome : Outcome ε α) (c' : Channel) : Prop where
  endsWell : outcome.EndsWell late timely
  after : ∀ value, outcome = .ok value →
    c.inlet.Gives c.clock given c'.inlet c'.clock ∧ c'.outlet.IsOpen

namespace Carries

variable {ε ε' α β : Type} {late : ε → Prop} {late' : ε' → Prop} {timely timely' : Prop}
  {c c₁ c' : Channel} {given more : Bytes} {outcome : Outcome ε α}

theorem ok (value : α) (hg : c.inlet.Gives c.clock given c'.inlet c'.clock)
    (ho : c'.outlet.IsOpen) : c.Carries late timely given (.ok value : Outcome ε α) c' :=
  ⟨trivial, fun _ _ => ⟨hg, ho⟩⟩

theorem expired (h : ¬timely) : c.Carries late timely given (.expired : Outcome ε α) c' :=
  ⟨h, by rintro _ ⟨⟩⟩

theorem stalled (h : ¬timely) : c.Carries late timely given (.stalled : Outcome ε α) c' :=
  ⟨h, by rintro _ ⟨⟩⟩

theorem mono (h : c.Carries late timely given outcome c') (ht : timely' → timely) :
    c.Carries late timely' given outcome c' :=
  ⟨h.endsWell.mono ht, h.after⟩

/-- What goes on where bytes have been taken. -/
theorem append (h : c₁.Carries late timely more outcome c')
    (hg : c.inlet.Gives c.clock given c₁.inlet c₁.clock) :
    c.Carries late timely (given ++ more) outcome c' :=
  ⟨h.endsWell, fun value he => ⟨hg.trans (h.after value he).1, (h.after value he).2⟩⟩

theorem mapError (h : c.Carries late timely given outcome c') {f : ε → ε'}
    (hf : ∀ error, late error → late' (f error)) :
    c.Carries late' timely given (outcome.mapError f) c' :=
  ⟨h.endsWell.mapError hf, fun value he => h.after value (Outcome.mapError_eq_ok_iff.1 he)⟩

theorem within (h : c.Carries late timely given outcome c') {error : ε} (he : late error) :
    c.Carries late timely given (outcome.within error) c' :=
  ⟨h.endsWell.within he, fun value hv => h.after value (Outcome.within_eq_ok_iff.1 hv)⟩

end Carries

end Channel

namespace Transfer

variable {c c' : Channel} {deadline : Deadline}

/-- A sink that takes everything takes what the way out keeps. -/
theorem release_of_isOpen {unflushed : Bool} {o o' : Outlet} {answer : Except String Bool}
    (ho : o.IsOpen) (h : release unflushed o = (answer, o')) : answer = .ok false ∧ o'.IsOpen := by
  obtain ⟨next, hf, hnext⟩ := ho.exists_flush
  unfold release at h
  split_ifs at h
  · rw [hf] at h
    cases h
    exact ⟨rfl, hnext⟩
  · cases h
    exact ⟨rfl, ho⟩

/-- Who waits for a source with bytes meets a pause in it, or has too little time. -/
theorem not_timely_of_wait {limit : Nat} {wake : Option Time} {clock waiting : Clock}
    {inlet : Inlet} {outlet : Outlet} {ended : Wait} (hl : limit ≠ 0) (hb : c.inlet.bytes ≠ [])
    (hr : c.inlet.read .bytes c.clock limit = (.pending wake, clock, inlet))
    (hs : clock.Still waiting)
    (hw : Channel.wait { clock := waiting, inlet, outlet } wake deadline = (ended, c'))
    (hn : ended ≠ .ready) : ¬c.inlet.Timely c.clock deadline := by
  unfold Channel.wait at hw
  split at hw
  · cases hw
    exact absurd rfl hn
  · rename_i hw'
    cases hw
    exact Inlet.not_timely_of_read hl hb hr hs hw' hn

theorem carries_finish {moved : Nat} {late : String → Prop} {timely : Prop}
    {outcome : Outcome String Nat} (ho : c.outlet.IsOpen)
    (h : finish c deadline moved = (outcome, c')) : c.Carries late timely [] outcome c' := by
  obtain ⟨o, hfinish, ho', -⟩ := finish_of_isOpen ho deadline moved
  rw [hfinish] at h
  cases h
  exact .ok _ (.refl ..) ho'

/-- What the source holds is moved to a sink that takes everything, unless it is too late. -/
theorem carries_pump {remaining moved : Nat} {unflushed : Bool} {stake : Option Nat}
    {outcome : Outcome String Nat} (ho : c.outlet.IsOpen)
    (hl : remaining ≤ c.inlet.bytes.length)
    (h : pump c deadline remaining moved unflushed stake = (outcome, c')) :
    c.Carries (fun _ => False) (c.inlet.Timely c.clock deadline) (c.inlet.bytes.take remaining)
      outcome c' := by
  fun_induction pump c deadline remaining moved unflushed stake with
  | case1 c moved unflushed stake =>
    rw [List.take_zero]
    exact carries_finish ho h
  | case2 c remaining moved unflushed stake hn reason clock inlet hr =>
    have hroom := min_bufferSize_ne_zero hn
    obtain ⟨seen, -, he⟩ | ⟨wake, rest, he, -⟩ :=
      Inlet.read_cases_of_ne_nil hroom (Inlet.bytes_ne_nil hn hl) hr <;> cases he
  | case3 c remaining moved unflushed stake hn wake clock inlet hr reason outlet hrelease =>
    cases (release_of_isOpen ho hrelease).1
  | case4 c remaining moved unflushed stake hn wake clock inlet hr kept outlet hrelease c₁ hw =>
    cases h
    have hs := clock.still_giveBack stake
    have hroom := min_bufferSize_ne_zero hn
    exact .expired (not_timely_of_wait hroom (Inlet.bytes_ne_nil hn hl) hr hs hw (by rintro ⟨⟩))
  | case5 c remaining moved unflushed stake hn wake clock inlet hr kept outlet hrelease c₁ hw =>
    cases h
    have hs := clock.still_giveBack stake
    have hroom := min_bufferSize_ne_zero hn
    exact .stalled (not_timely_of_wait hroom (Inlet.bytes_ne_nil hn hl) hr hs hw (by rintro ⟨⟩))
  | case6 c remaining moved unflushed stake hn wake clock inlet hr kept outlet hrelease c₁ hw ih =>
    obtain ⟨later, hready, rfl⟩ := Channel.wait_ready hw
    obtain ⟨-, ho'⟩ := release_of_isOpen ho hrelease
    have hready := Clock.wait_of_still (clock.still_giveBack stake) hready
    have hg := (Inlet.gives_read_skip (min_bufferSize_ne_zero hn) hr hready).still
      (Clock.still_look later)
    have hsame : (inlet.skip later.now).bytes = c.inlet.bytes := hg.bytes
    have hc := ih ho' (Nat.le_trans hl (Nat.le_of_eq (congrArg List.length hsame.symm))) h
    exact hsame ▸ (hc.mono hg.timely_iff.2).append hg
  | case7 c remaining moved unflushed stake hn bytes clock inlet hr he =>
    obtain rfl := List.isEmpty_iff.1 he
    exact absurd (Inlet.end_of_read (min_bufferSize_ne_zero hn) hr).1 (Inlet.bytes_ne_nil hn hl)
  | case8 c remaining moved unflushed stake hn bytes clock inlet hr he reason outlet hp =>
    cases (ho.of_push hp).1
  | case9 c remaining moved unflushed stake hn bytes clock inlet hr he outlet hp =>
    cases (ho.of_push hp).1
  | case10 c remaining moved unflushed stake hn bytes clock inlet hr he outlet hp ih =>
    obtain ⟨-, ho'⟩ := ho.of_push hp
    have hseen := length_le_of_read hr
    have hg : c.inlet.Gives c.clock bytes inlet clock := Inlet.gives_read hr
    have hrest : remaining - bytes.length ≤ inlet.bytes.length := by
      have := congrArg List.length hg.bytes
      rw [List.length_append] at this
      omega
    have hc := ((ih ho' hrest h).mono hg.timely_iff.2).append hg
    rwa [← take_append_of_le hseen, hg.bytes] at hc

/-- A transfer is done, unless it is too late. -/
theorem carries_run {length : Nat} {outcome : Outcome String Nat} (ho : c.outlet.IsOpen)
    (hl : length ≤ c.inlet.bytes.length) (h : run c deadline length = (outcome, c')) :
    c.Carries (fun _ => False) (c.inlet.Timely c.clock deadline) (c.inlet.bytes.take length)
      outcome c' := by
  have hg : c.inlet.Gives c.clock [] c.inlet c.clock.begin.look :=
    Inlet.gives_of_still ((Clock.still_begin _).trans (Clock.still_look _)) _
  have hc : Channel.Carries _ _ _ _ outcome c' :=
    carries_pump (c := { c with clock := c.clock.begin.look }) ho hl h
  exact (hc.mono hg.timely_iff.2).append hg

end Transfer

end Courier
