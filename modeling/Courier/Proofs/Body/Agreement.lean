import Courier.Proofs.Body.Arrival
import Courier.Proofs.Relay.Stream

/-!
# Reading a body and copying it

A copy looks at the clock once in each of its turns, so that it has one look less than a read to
find the bytes of a body with (`Transfer.fetches_run`). That makes a difference only for what comes
when time is over, after as many pauses at that moment as there are looks in a turn
(`Inlet.JustArrives`): it can still be read, and is too late to be copied
(`Body.copy_late_at_deadline`). But for that a body is copied to a sink that takes everything as it
is read (`Body.copy_agrees_with_read`), for both come to what `Body.verdict` says.
-/

namespace Courier

namespace Clock

theorem looks_begin_ne_zero (clock : Clock) : clock.begin.looks ≠ 0 := by
  unfold begin
  split_ifs with h
  · exact nofun
  · exact h

/-- Who waits for nothing meets the deadline if somebody is there until then. -/
theorem fst_wait_none_of_outlasts {clock : Clock} {moment : Time} (ho : clock.Outlasts moment) :
    (clock.wait none (some moment)).1 = .expired := by
  rcases hw : clock.wait none (some moment) with ⟨ended, later⟩
  cases ended with
  | ready =>
    obtain ⟨_, he, -⟩ := wake_le_of_ready hw
    cases he
  | expired => rfl
  | stalled => exact absurd rfl (keeps_wait ho hw).2.1

end Clock

namespace Inlet

variable {i i' : Inlet} {clock clock' : Clock} {deadline : Deadline} {turn turn' n : Nat}

/-- The first `n` bytes, or the end of the stream, come when time is over, with as many pauses at
that moment as there are looks. One more would be too many. -/
def JustArrives (i : Inlet) (n : Nat) (clock : Clock) (deadline : Deadline) : Prop :=
  ∃ moment ∈ deadline.earliest clock.horizon, i.due n clock.now ≤ max clock.now moment ∧
    Piece.stops moment clock.now (Piece.upTo (n - i.buffer.length) i.source.pieces) =
      if clock.now < moment then Clock.turn else clock.looks

instance : Decidable (i.JustArrives n clock deadline) :=
  inferInstanceAs (Decidable (∃ moment ∈ deadline.earliest clock.horizon,
    i.due n clock.now ≤ max clock.now moment ∧
      Piece.stops moment clock.now (Piece.upTo (n - i.buffer.length) i.source.pieces) =
        if clock.now < moment then Clock.turn else clock.looks))

/-- With one look less in each turn everything comes in time that did, but for what needed all of
them. -/
theorem arrivesBy_look_iff (hl : clock.looks ≠ 0) :
    i.ArrivesBy (Clock.turn - 1) n clock.look deadline ↔
      i.ArrivesBy Clock.turn n clock deadline ∧ ¬i.JustArrives n clock deadline := by
  unfold ArrivesBy Piece.ArrivesBy JustArrives due
  simp only [Clock.look]
  cases deadline.earliest clock.horizon with
  | none => simp
  | some moment =>
    simp only [Option.mem_some_iff, forall_eq', exists_eq_left', not_and, Clock.turn, and_assoc]
    refine and_congr_right fun hdue => ?_
    by_cases hm : clock.now < moment <;>
      simp only [hm, hdue, if_true, if_false, true_imp_iff] <;> omega

/-- More looks reach as far at least. -/
theorem reach_le_reach
    (h : ∀ count ≤ n,
      i.ArrivesBy turn count clock deadline → i.ArrivesBy turn' count clock' deadline) :
    i.reach turn n clock deadline ≤ i.reach turn' n clock' deadline :=
  Nat.le_findGreatest (i.reach_le ..)
    (h _ (Nat.le_trans (i.reach_le ..) (Nat.min_le_left ..)) arrivesBy_reach)

/-- As many bytes were taken as were reached. -/
theorem Fetches.length_eq {α : Type} {outcome : Outcome String α} {given : Bytes} {later : Clock}
    (h : i.Fetches turn n clock deadline outcome i' later) (hb : given ++ i'.bytes = i.bytes) :
    given.length = i.reach turn n clock deadline := by
  have hle := Nat.le_trans (i.reach_le turn n clock deadline) (Nat.min_le_right ..)
  have hdrop := congrArg List.length h.bytes
  rw [List.length_drop] at hdrop
  have hlength := congrArg List.length hb
  rw [List.length_append] at hlength
  omega

end Inlet

namespace Channel

variable {c c₁ c' : Channel}

theorem wait_late {wake : Option Time} {deadline : Deadline} {ended : Wait}
    (h : c.wait wake deadline = (ended, c')) (he : ended ≠ .ready) :
    ∃ later, c.clock.wait wake deadline = (ended, later) ∧ c' = { c with clock := later } := by
  unfold wait at h
  split at h
  · cases h
    exact absurd rfl he
  · rename_i later _ hw
    cases h
    exact ⟨later, hw, rfl⟩

/-- What was taken from the way in, and nothing else, has been put out. -/
def Passes (c c' : Channel) : Prop :=
  ∃ given, given ++ c'.inlet.bytes = c.inlet.bytes ∧
    c'.outlet.written = c.outlet.written ++ given

theorem Passes.of_eq (hb : c'.inlet.bytes = c.inlet.bytes)
    (hw : c'.outlet.written = c.outlet.written) : c.Passes c' :=
  ⟨[], hb, hw.trans (List.append_nil _).symm⟩

theorem Passes.append {seen : Bytes} (h : c₁.Passes c')
    (hb : seen ++ c₁.inlet.bytes = c.inlet.bytes)
    (hw : c₁.outlet.written = c.outlet.written ++ seen) : c.Passes c' := by
  obtain ⟨given, hgiven, hwritten⟩ := h
  refine ⟨seen ++ given, ?_, ?_⟩
  · rw [List.append_assoc, hgiven, hb]
  · rw [hwritten, hw, List.append_assoc]

end Channel

namespace Transfer

variable {c c' : Channel} {deadline : Deadline}

/-- A transfer to a sink that takes everything fetches its bytes with one look less in each turn,
and puts out what it takes. -/
theorem fetches_pump {remaining moved : Nat} {unflushed : Bool} {stake : Option Nat}
    {outcome : Outcome String Nat} (ho : c.outlet.IsOpen)
    (h : pump c deadline remaining moved unflushed stake = (outcome, c')) :
    c.inlet.Fetches (Clock.turn - 1) remaining c.clock deadline outcome c'.inlet c'.clock ∧
      c.Passes c' := by
  fun_induction pump c deadline remaining moved unflushed stake with
  | case1 c moved unflushed stake =>
    obtain ⟨o, hfinish, -, hw⟩ := finish_of_isOpen ho deadline moved
    rw [hfinish] at h
    cases h
    exact ⟨.none .., .of_eq rfl hw⟩
  | case2 c remaining moved unflushed stake hn reason clock inlet hr =>
    cases h
    have hlimit := min_bufferSize_ne_zero hn
    exact ⟨.failed hlimit hn hr, .of_eq (Inlet.append_bytes_read hr) rfl⟩
  | case3 c remaining moved unflushed stake hn wake clock inlet hr reason outlet hrelease =>
    cases (release_of_isOpen ho hrelease).1
  | case4 c remaining moved unflushed stake hn wake clock inlet hr kept outlet hrelease c₁ hw =>
    cases h
    obtain ⟨later, hwait, rfl⟩ := Channel.wait_late hw (by rintro ⟨⟩)
    have hlimit := min_bufferSize_ne_zero hn
    exact ⟨.late hlimit hn hr (Clock.still_giveBack ..) hwait (by rintro ⟨⟩),
      .of_eq (Inlet.append_bytes_read hr) (written_release hrelease)⟩
  | case5 c remaining moved unflushed stake hn wake clock inlet hr kept outlet hrelease c₁ hw =>
    cases h
    obtain ⟨later, hwait, rfl⟩ := Channel.wait_late hw (by rintro ⟨⟩)
    have hlimit := min_bufferSize_ne_zero hn
    exact ⟨.late hlimit hn hr (Clock.still_giveBack ..) hwait (by rintro ⟨⟩),
      .of_eq (Inlet.append_bytes_read hr) (written_release hrelease)⟩
  | case6 c remaining moved unflushed stake hn wake clock inlet hr kept outlet hrelease c₁ hw ih =>
    obtain ⟨later, hready, rfl⟩ := Channel.wait_ready hw
    obtain ⟨-, ho'⟩ := release_of_isOpen ho hrelease
    have hlooks : later.look.looks + 1 = Clock.turn - 1 := by
      rw [Clock.look, Clock.looks_of_ready hready]
      rfl
    obtain ⟨hfetches, hpasses⟩ := ih ho' h
    have hlimit := min_bufferSize_ne_zero hn
    exact ⟨.paused hlimit hn hr (Clock.still_giveBack ..) hready (Clock.still_look later)
      hlooks hfetches, hpasses.append ((inlet.bytes_skip _).trans (Inlet.append_bytes_read hr))
        ((written_release hrelease).trans (List.append_nil _).symm)⟩
  | case7 c remaining moved unflushed stake hn bytes clock inlet hr he =>
    obtain ⟨o, hfinish, -, hw⟩ := finish_of_isOpen (c := { c with clock, inlet }) ho deadline moved
    rw [hfinish] at h
    cases h
    obtain rfl := List.isEmpty_iff.1 he
    have hlimit := min_bufferSize_ne_zero hn
    exact ⟨.ended hlimit hn hr _, .of_eq (Inlet.append_bytes_read hr) hw⟩
  | case8 c remaining moved unflushed stake hn bytes clock inlet hr he reason outlet hp =>
    cases (ho.of_push hp).1
  | case9 c remaining moved unflushed stake hn bytes clock inlet hr he outlet hp =>
    cases (ho.of_push hp).1
  | case10 c remaining moved unflushed stake hn bytes clock inlet hr he outlet hp ih =>
    obtain ⟨-, ho'⟩ := ho.of_push hp
    have hseen := length_le_of_read hr
    obtain ⟨hfetches, hpasses⟩ := ih ho' h
    exact ⟨.data hr hseen hfetches,
      hpasses.append (Inlet.append_bytes_read hr) (Outlet.written_push hp)⟩

theorem fetches_run {length : Nat} {outcome : Outcome String Nat} (ho : c.outlet.IsOpen)
    (h : run c deadline length = (outcome, c')) :
    c.inlet.Fetches (Clock.turn - 1) length c.clock.begin.look deadline outcome c'.inlet c'.clock ∧
      c.Passes c' :=
  fetches_pump (c := { c with clock := c.clock.begin.look }) ho h

end Transfer

namespace Body

variable {body body' : Body} {clock later : Clock} {inlet inlet' : Inlet} {c c' : Channel}

/-- What the body comes to, with the number of its bytes, if a turn that begins with a wait has so
many looks. -/
def verdict (turn : Nat) (body : Body) (clock : Clock) (inlet : Inlet) : Outcome BodyError Nat :=
  body.checkComplete id
    ((((inlet.answer turn body.length clock body.deadline).map fun _ =>
      inlet.reach turn body.length clock body.deadline).mapError .io).within .timeout)

theorem verdict_of_fetches {α : Type} {turn : Nat} {given : Outcome String α} (size : α → Nat)
    (h : inlet.Fetches turn body.length clock body.deadline given inlet' later)
    (hs : ∀ value, given = .ok value →
      size value = inlet.reach turn body.length clock body.deadline) :
    (body.checkComplete size ((given.mapError .io).within .timeout)).map size =
      body.verdict turn clock inlet := by
  rw [verdict, ← h.answer]
  cases given with
  | ok value =>
    have hvalue := hs value rfl
    by_cases hl : inlet.reach turn body.length clock body.deadline < body.length <;>
      simp only [Outcome.map, Outcome.mapError, Outcome.within, checkComplete, id, hvalue, hl,
        if_true, if_false]
  | _ => rfl

/-- A body is read as its bytes come with all the looks of a turn. -/
theorem verdict_read {outcome : Outcome BodyError Bytes} (hc : body.consumed = false)
    (h : body.read clock inlet = (outcome, body', later, inlet')) :
    outcome.map List.length = body.verdict Clock.turn clock.begin inlet ∧
      inlet'.bytes =
        inlet.bytes.drop (inlet.reach Clock.turn body.length clock.begin body.deadline) := by
  rcases hr : inlet.readUpTo clock.begin body.deadline body.length with ⟨given, clock', i⟩
  have hf := Inlet.fetches_readUpTo hr
  rw [read, hc, if_neg Bool.false_ne_true, hr] at h
  cases h
  refine ⟨verdict_of_fetches List.length hf fun bytes he => ?_, hf.bytes⟩
  rw [he] at hr
  exact hf.length_eq (Inlet.gives_gather hr).bytes

/-- A body is copied to a sink that takes everything as its bytes come with one look less in each
turn. -/
theorem verdict_copy {outcome : Outcome BodyError Nat} (hc : body.consumed = false)
    (ho : c.outlet.IsOpen) (h : body.copy none c = (outcome, body', c')) :
    outcome = body.verdict (Clock.turn - 1) c.clock.begin.look c.inlet ∧
      c'.inlet.bytes = c.inlet.bytes.drop
        (c.inlet.reach (Clock.turn - 1) body.length c.clock.begin.look body.deadline) ∧
      c.Passes c' := by
  rw [copy, hc, if_neg Bool.false_ne_true] at h
  split_ifs at h with hz
  · cases h
    have hf : c.inlet.Fetches (Clock.turn - 1) body.length c.clock.begin.look body.deadline
        (.ok 0 : Outcome String Nat) c.inlet c.clock.begin.look := by
      rw [hz]
      exact .none ..
    have hv := verdict_of_fetches id hf fun count he => by
      cases he
      exact hf.length_eq (List.nil_append _)
    refine ⟨?_, hf.bytes, .of_eq rfl rfl⟩
    rw [← hv, Outcome.map_id]
    simp only [Outcome.mapError, Outcome.within, checkComplete, hz, id, Nat.lt_irrefl, if_false]
  · have hdeadline : body.deadline.earliest none = body.deadline := by cases body.deadline <;> rfl
    rw [hdeadline] at h
    rcases hr : Transfer.run c body.deadline body.length with ⟨given, c₁⟩
    obtain ⟨hf, hp⟩ := Transfer.fetches_run ho hr
    rw [hr] at h
    cases h
    have hv := verdict_of_fetches id hf fun count he => by
      rw [he] at hr
      obtain ⟨hbytes, -, -, rfl⟩ := Transfer.moves_run hr
      exact hf.length_eq hbytes
    have hwithin : (if Deadline.passed body.deadline c'.clock.now
        then (given.mapError BodyError.io).within .timeout else given.mapError .io) =
          (given.mapError .io).within .timeout := by
      split_ifs with hpassed
      · rfl
      · cases given <;> first | rfl | exact absurd (hf.passed rfl) hpassed
    exact ⟨by rw [hwithin, ← hv, Outcome.map_id], hf.bytes, hp⟩

/-- What nothing comes late of comes to the same with one look less in each turn. -/
theorem verdict_look_eq (body : Body) (hl : clock.looks ≠ 0)
    (hj : ∀ count ≤ body.length, ¬inlet.JustArrives count clock body.deadline) :
    body.verdict (Clock.turn - 1) clock.look inlet = body.verdict Clock.turn clock inlet ∧
      inlet.reach (Clock.turn - 1) body.length clock.look body.deadline =
        inlet.reach Clock.turn body.length clock body.deadline := by
  have harrives : ∀ count ≤ body.length,
      (inlet.ArrivesBy (Clock.turn - 1) count clock.look body.deadline ↔
        inlet.ArrivesBy Clock.turn count clock body.deadline) := fun count hc =>
    (Inlet.arrivesBy_look_iff hl).trans (and_iff_left (hj count hc))
  have hreach := Nat.le_antisymm (Inlet.reach_le_reach fun count hc => (harrives count hc).1)
    (Inlet.reach_le_reach fun count hc => (harrives count hc).2)
  have hanswer : inlet.answer (Clock.turn - 1) body.length clock.look body.deadline =
      inlet.answer Clock.turn body.length clock body.deadline := by
    simp only [Inlet.answer, Inlet.arrivalBy, harrives _ (Nat.le_refl _),
      Clock.fst_wait_of_still (Clock.still_look clock)]
  exact ⟨by rw [verdict, verdict, hanswer, hreach], hreach⟩

/-- What needs all the looks of a turn is late without one of them. -/
theorem verdict_look_of_justArrives {count : Nat} (body : Body) (hl : clock.looks ≠ 0)
    (hc : count ≤ body.length) (hj : inlet.JustArrives count clock body.deadline) :
    body.verdict (Clock.turn - 1) clock.look inlet = .error .timeout ∨
      body.verdict (Clock.turn - 1) clock.look inlet = .stalled ∧
        ∀ moment ∈ body.deadline, ¬clock.Outlasts moment := by
  have hlate : ¬inlet.ArrivesBy (Clock.turn - 1) body.length clock.look body.deadline := fun ha =>
    ((Inlet.arrivesBy_look_iff hl).1 (ha.mono hc)).2 hj
  have hended : ∀ moment ∈ body.deadline, clock.Outlasts moment →
      (clock.look.wait none body.deadline).1 = .expired := by
    rintro moment hm ho
    have hlook : clock.look.Outlasts moment := ho
    rw [hm, Clock.fst_wait_none_of_outlasts hlook]
  rw [verdict, Inlet.answer, Inlet.arrivalBy, if_neg hlate]
  cases hw : (clock.look.wait none body.deadline).1 with
  | expired => exact .inl rfl
  | ready | stalled =>
    refine .inr ⟨rfl, fun moment hm ho => ?_⟩
    have he := hended moment hm ho
    rw [hw] at he
    cases he

/-- A body is copied to a sink that takes everything as it is read: if one ends well the other does,
with so many bytes and just these in the sink, and if one fails the other fails in the same way;
both stop at the same place. The exception are bytes, or an end of the stream, that come only just
in time: for them a copy is too late. It puts out a beginning of the body in any case. -/
theorem copy_agrees_with_read (length : Nat) (deadline : Deadline) (clock : Clock) (inlet : Inlet)
    (outlet : Outlet) (ho : outlet.IsOpen) :
    ∃ outcome later inlet' copied c' given,
      ({ length, deadline } : Body).read clock inlet =
        (outcome, { length, deadline, consumed := true }, later, inlet') ∧
      ({ length, deadline } : Body).copy none { clock, inlet, outlet } =
        (copied, { length, deadline, consumed := true }, c') ∧
      given ++ c'.inlet.bytes = inlet.bytes ∧ given.length ≤ length ∧
      c'.outlet.written = outlet.written ++ given ∧
      inlet'.bytes <:+ c'.inlet.bytes ∧
      (∀ count, copied = .ok count → outcome = .ok given ∧ count = given.length ∧
        (outlet.buffer = [] → c'.outlet.buffer = [])) ∧
      ((∀ count ≤ length, ¬inlet.JustArrives count clock.begin deadline) →
        copied = outcome.map List.length ∧ c'.inlet.bytes = inlet'.bytes) ∧
      ((∃ count ≤ length, inlet.JustArrives count clock.begin deadline) →
        copied = .error .timeout ∨
          copied = .stalled ∧ ∀ moment ∈ deadline, ¬clock.Outlasts moment) := by
  rcases hr : ({ length, deadline } : Body).read clock inlet with ⟨outcome, read, later, inlet'⟩
  rcases hw : ({ length, deadline } : Body).copy none { clock, inlet, outlet } with
    ⟨copied, written, c'⟩
  have hl := clock.looks_begin_ne_zero
  obtain ⟨rfl, -⟩ := consume_of_read rfl hr
  obtain ⟨rfl, hdraws⟩ := consume_of_copy rfl hw
  obtain ⟨hread, hleft⟩ := verdict_read rfl hr
  obtain ⟨hcopied, hleft', given, hgiven, hwritten⟩ := verdict_copy rfl ho hw
  have hagrees : (∀ count ≤ length, ¬inlet.JustArrives count clock.begin deadline) →
      copied = outcome.map List.length ∧ c'.inlet.bytes = inlet'.bytes := by
    intro hj
    obtain ⟨hverdict, hreach⟩ := verdict_look_eq { length, deadline } hl hj
    exact ⟨by rw [hcopied, hread, hverdict], by rw [hleft, hleft', hreach]⟩
  have hlate : (∃ count ≤ length, inlet.JustArrives count clock.begin deadline) →
      copied = .error .timeout ∨
        copied = .stalled ∧ ∀ moment ∈ deadline, ¬clock.Outlasts moment := by
    rintro ⟨count, hc, hj⟩
    have hended := verdict_look_of_justArrives { length, deadline } hl hc hj
    rw [← hcopied] at hended
    simpa only [Clock.Outlasts, clock.horizon_begin] using hended
  refine ⟨outcome, later, inlet', copied, c', given, rfl, rfl, hgiven, ?_, hwritten, ?_, ?_,
    hagrees, hlate⟩
  · obtain ⟨taken, hle, htaken⟩ := hdraws
    rwa [List.append_cancel_right (hgiven.trans htaken.symm)]
  · rw [hleft, hleft']
    exact List.drop_suffix_drop_left _
      (Inlet.reach_le_reach fun _ _ ha => ((Inlet.arrivesBy_look_iff hl).1 ha).1)
  · rintro count rfl
    have hj : ∀ count ≤ length, ¬inlet.JustArrives count clock.begin deadline := by
      intro count hc hj
      obtain he | ⟨he, -⟩ := hlate ⟨count, hc, hj⟩ <;> cases he
    obtain ⟨hok, hsame⟩ := hagrees hj
    obtain ⟨bytes, rfl, rfl⟩ := Outcome.map_eq_ok_iff.1 hok.symm
    obtain ⟨-, -, hgives⟩ := gives_read hr
    obtain rfl : given = bytes := by
      rw [hsame] at hgiven
      exact List.append_cancel_right (hgiven.trans hgives.bytes.symm)
    exact ⟨rfl, rfl, fun hb => buffer_copy hb hw⟩

/-- Two bytes that come at different moments, with another behind them. -/
theorem copy_agrees_with_read_across_pause :
    let inlet : Inlet := .direct { pieces := [.chunk [97], .pause 1, .chunk [98, 99]] }
    let body : Body := { length := 2, deadline := some 1 }
    ∃ later inlet' c',
      body.read {} inlet = (.ok [97, 98], body.consume, later, inlet') ∧
      body.copy none { clock := {}, inlet, outlet := .direct {} } = (.ok 2, body.consume, c') ∧
      c'.outlet.sink.received = [97, 98] ∧ c'.inlet.bytes = [99] ∧ inlet'.bytes = [99] := by
  intro inlet body
  obtain ⟨outcome, later, inlet', copied, c', given, hread, hcopy, hgiven, -, hwritten, -, hok,
    hsame, -⟩ := copy_agrees_with_read 2 (some 1) {} inlet (.direct {}) rfl
  have hverdict : outcome.map List.length = .ok 2 :=
    (verdict_read rfl hread).1.trans (by decide +kernel)
  obtain ⟨hcopied, hbytes⟩ := hsame (by decide +kernel)
  rw [hverdict] at hcopied
  obtain ⟨rfl, hlength, hbuffer⟩ := hok 2 hcopied
  have hall : inlet.bytes = [97, 98] ++ [99] := rfl
  obtain ⟨rfl, hrest⟩ := List.append_inj (hgiven.trans hall) hlength.symm
  rw [Outlet.written, hbuffer rfl, List.append_nil] at hwritten
  rw [hcopied] at hcopy
  exact ⟨later, inlet', c', hread, hcopy, hwritten, hrest, hbytes ▸ hrest⟩

/-- Two bytes with just as many pauses between them as a turn has looks, all of them at one
moment. -/
def packed : Source :=
  { pieces := .chunk [97] :: List.replicate 128 (.pause 0) ++ [.chunk [98]] }

/-- Bytes that come at the very moment of the deadline can be in time to be read and too late to be
copied. -/
theorem copy_late_at_deadline :
    ¬∀ (source : Source) (length : Nat) (deadline : Time),
      (({ length, deadline := some deadline } : Body).copy none
          { clock := {}, inlet := .direct source, outlet := .direct {} }).1 =
        (({ length, deadline := some deadline } : Body).read {} (.direct source)).1.map
          List.length := by
  intro h
  let body : Body := { length := 2, deadline := some 0 }
  have hread := (verdict_read rfl (rfl : body.read {} (.direct packed) = _)).1
  let c : Channel := { clock := {}, inlet := .direct packed, outlet := .direct {} }
  have ho : c.outlet.IsOpen := rfl
  have hcopied := (verdict_copy rfl ho (rfl : body.copy none c = _)).1
  have hne : body.verdict (Clock.turn - 1) ({} : Clock).begin.look (.direct packed) ≠
      body.verdict Clock.turn ({} : Clock).begin (.direct packed) := by
    decide +kernel
  exact hne (hcopied.symm.trans ((h packed 2 0).trans hread))

end Body

end Courier
