import Courier.Stream.Channel

/-!
# Transfers

A transfer moves a number of bytes from the way in of a channel to its way out, through a buffer of
its own. It reads a chunk, writes it, and reads again; where the source lets it wait, and at the
end, it asks the way out to let go of what it keeps. A source that fails ends the transfer at once.

While the way out is stuck nothing more gets written, but the buffer still fills: with one read
after the write that got stuck, and with two reads whenever the transfer is woken, be it by the
source or by the end of its time (`Transfer.absorb`). What was read that way is lost with the
transfer.

A transfer takes a look at the clock in each of its turns. Until it gets something in a turn, what
the turn had before is set aside (`stake`), and a turn that gets it nothing costs nothing.
-/

namespace Courier.Transfer

/-- The size of the buffer. -/
def bufferSize : Nat := 8192

theorem min_bufferSize_ne_zero {n : Nat} (hn : ¬n = 0) : min bufferSize n ≠ 0 := by
  simp only [bufferSize]
  omega

/-! ## With the way out stuck -/

/-- Reads into the room that is left in the buffer. -/
def sip (c : Channel) (room : Nat) : ReadResult × Channel :=
  if room = 0 then (.data [], c)
  else
    match c.inlet.read .bytes c.clock room with
    | (result, clock, inlet) => (result, { c with clock, inlet })

theorem weight_sip_le {c c' : Channel} {room : Nat} {result : ReadResult}
    (h : sip c room = (result, c')) : c'.inlet.weight ≤ c.inlet.weight := by
  obtain rfl : (sip c room).2 = c' := by rw [h]
  unfold sip
  split
  · exact Nat.le_refl _
  · exact Nat.le_trans (Nat.le_add_left ..) (Inlet.length_add_weight_read_le rfl)

theorem weight_sip_wait_lt {c c' later : Channel} {room : Nat} {wake : Option Time}
    {deadline : Deadline} {f : Clock → Clock} (hs : sip c room = (.pending wake, c'))
    (hw : (c'.withClock f).wait wake deadline = (.ready, later)) :
    later.inlet.weight < c.inlet.weight := by
  unfold sip at hs
  split at hs
  · simp at hs
  · split at hs
    rename_i hr
    simp only [Prod.mk.injEq] at hs
    obtain ⟨rfl, rfl⟩ := hs
    unfold Channel.wait at hw
    split at hw
    · rename_i hc
      simp only [Prod.mk.injEq, true_and] at hw
      subst hw
      obtain ⟨_, rfl, hle⟩ := Clock.wake_le_of_ready hc
      exact Inlet.weight_read_skip_lt ‹_› hr hle
    · simp_all

/-- Waits for the end of the time, and reads twice more if that took any. -/
def lastLook (c : Channel) (deadline : Deadline) (room : Nat) : Outcome String Nat × Channel :=
  match c.wait none deadline with
  | (wait, later) =>
    let outcome := if wait = .expired then .expired else .stalled
    if later.clock.now = c.clock.now then (outcome, later)
    else
      match sip (later.withClock (·.nextTurn.look)) room with
      | (.failed reason, later) => (.error reason, later)
      | (.pending _, later) => (outcome, later.withClock (·.nextTurn.look))
      | (.data bytes, later) =>
        match sip later (room - bytes.length) with
        | (.failed reason, later) => (.error reason, later)
        | (_, later) => (outcome, later.withClock (·.look))

/-- Fills the buffer until the time is over. -/
def absorb (c : Channel) (deadline : Deadline) (room : Nat) (stake : Option Nat) :
    Outcome String Nat × Channel :=
  match _hs : sip c room with
  | (.failed reason, c) => (.error reason, c)
  | (.data bytes, c) => lastLook (c.withClock (·.giveBack stake)) deadline (room - bytes.length)
  | (.pending wake, c) =>
    match _hw : (c.withClock (·.giveBack stake)).wait wake deadline with
    | (.expired, c) => (.expired, c)
    | (.stalled, c) => (.stalled, c)
    | (.ready, c) =>
      match _ht : sip (c.withClock (·.look)) room with
      | (.failed reason, c) => (.error reason, c)
      | (.data bytes, c) => absorb c deadline (room - bytes.length) none
      | (.pending _, c) => absorb c deadline room (some Clock.turn)
termination_by c.inlet.weight
decreasing_by
  all_goals
    have hlt := weight_sip_wait_lt _hs _hw
    exact Nat.lt_of_le_of_lt (weight_sip_le _ht) hlt

/-! ## With the way out open -/

/-- Lets go of what the way out keeps, if something was written since that was last done. -/
def release (unflushed : Bool) (o : Outlet) : Except String Bool × Outlet :=
  if unflushed then
    match o.flush with
    | (.done, o) => (.ok false, o)
    | (.stuck, o) => (.ok true, o)
    | (.failed reason, o) => (.error reason, o)
  else (.ok false, o)

/-- Ends the transfer after `moved` bytes. -/
def finish (c : Channel) (deadline : Deadline) (moved : Nat) : Outcome String Nat × Channel :=
  match c.flush deadline with
  | (outcome, c) => (outcome.map fun _ => moved, c)

/-- Moves up to `remaining` bytes more, after `moved`. -/
def pump (c : Channel) (deadline : Deadline) (remaining moved : Nat) (unflushed : Bool)
    (stake : Option Nat) : Outcome String Nat × Channel :=
  if remaining = 0 then finish c deadline moved
  else
    match _hr : c.inlet.read .bytes c.clock (min bufferSize remaining) with
    | (.failed reason, clock, inlet) => (.error reason, { c with clock, inlet })
    | (.pending wake, clock, inlet) =>
      match release unflushed c.outlet with
      | (.error reason, outlet) => (.error reason, { clock, inlet, outlet })
      | (.ok unflushed, outlet) =>
        match _hw : Channel.wait { clock := clock.giveBack stake, inlet, outlet } wake deadline with
        | (.expired, c) => (.expired, c)
        | (.stalled, c) => (.stalled, c)
        | (.ready, c) =>
          pump (c.withClock (·.look)) deadline remaining moved unflushed (some Clock.turn)
    | (.data bytes, clock, inlet) =>
      if bytes.isEmpty then finish { c with clock, inlet } deadline moved
      else
        match c.outlet.push bytes with
        | (.failed reason, outlet) => (.error reason, { clock, inlet, outlet })
        | (.stuck, outlet) =>
          absorb { clock, inlet, outlet } deadline (min bufferSize remaining - bytes.length) none
        | (.done, outlet) =>
          pump { clock, inlet, outlet } deadline (remaining - bytes.length) (moved + bytes.length)
            true none
termination_by c.inlet.weight
decreasing_by
  · unfold Channel.wait at _hw
    split at _hw
    · rename_i hc
      simp only [Prod.mk.injEq, true_and] at _hw
      subst _hw
      obtain ⟨_, rfl, hle⟩ := Clock.wake_le_of_ready hc
      exact Inlet.weight_read_skip_lt (min_bufferSize_ne_zero ‹_›) _hr hle
    · simp_all
  · have hle : bytes.length + inlet.weight ≤ _ := Inlet.length_add_weight_read_le _hr
    have := List.length_pos_iff.2 fun h => ‹¬List.isEmpty _ = true› (List.isEmpty_iff.2 h)
    show inlet.weight < _
    omega

/-- Moves `length` bytes, or all there are if the source ends before, and gives their number. -/
def run (c : Channel) (deadline : Deadline) (length : Nat) : Outcome String Nat × Channel :=
  let clock := c.clock.begin
  pump { c with clock := clock.look } deadline length 0 false (some clock.looks)

end Courier.Transfer
