/-!
# The clock

Time is counted in milliseconds and moves only while somebody waits. A wait ends with the first of
three things: what it waits for, the deadline of the operation, or the moment at which whoever set
the clock up gives up altogether. Of things that happen at one moment, the earlier in this list
counts.

What is done between two waits is a turn. Finding that a moment has come takes one look at the
clock, and a turn has a limited number of them (`Clock.turn`). Who needs one more has to wait for
another turn, even if only for the present moment, and meets the deadline there: no operation gets
past its deadline by never having to wait.

A wait that ends well is not cut short (`wake_le_of_ready`).
-/

namespace Courier

/-- A moment, in milliseconds from the start. -/
abbrev Time := Nat

/-- The moment after which an operation is abandoned; none if it may take forever. -/
abbrev Deadline := Option Time

namespace Deadline

/-- The earlier of two moments that may never come. -/
def earliest : Deadline → Deadline → Deadline
  | some a, some b => some (min a b)
  | some a, none => some a
  | none, b => b

/-- Whether the moment has come. -/
def passed (deadline : Deadline) (now : Time) : Bool :=
  match deadline with
  | some moment => moment ≤ now
  | none => false

end Deadline

/-- How a wait ended. -/
inductive Wait where
  /-- What was waited for is there. -/
  | ready
  /-- The deadline passed first. -/
  | expired
  /-- It never ends. -/
  | stalled
deriving Repr, DecidableEq

/-- The number of looks at the clock that a turn has. -/
def Clock.turn : Nat := 128

/-- The present moment, the last one for which anybody stays, and the looks left in this turn. -/
structure Clock where
  now : Time := 0
  horizon : Deadline := none
  looks : Nat := Clock.turn
deriving Repr, DecidableEq

namespace Clock

open Deadline

/-! ## Turns -/

/-- One look. -/
def look (clock : Clock) : Clock :=
  { clock with looks := clock.looks - 1 }

/-- Another turn. -/
def nextTurn (clock : Clock) : Clock :=
  { clock with looks := turn }

/-- The looks given back, if any were set aside. -/
def giveBack (clock : Clock) : Option Nat → Clock
  | some looks => { clock with looks }
  | none => clock

/-- An operation begins in another turn if there is nothing left of this one. -/
def begin (clock : Clock) : Clock :=
  if clock.looks = 0 then clock.nextTurn else clock

/-- The clock for an operation that is given up after `patience`. -/
def patient (clock : Clock) (patience : Nat) : Clock :=
  { clock with horizon := some (clock.now + patience) }

/-- Whether a moment has come, and there is a look left to find that out. -/
def sees (clock : Clock) (moment : Time) : Bool :=
  moment ≤ clock.now && 0 < clock.looks

/-! ## Waits -/

/-- What has happened by now, of what a wait can end with. -/
def verdict (clock : Clock) (wake : Option Time) (deadline : Deadline) : Wait :=
  if passed wake clock.now then .ready
  else if passed deadline clock.now then .expired
  else .stalled

/-- Waits for the moment `wake`, but not beyond the deadline, and finds in one look what the wait
ended with. -/
def wait (clock : Clock) (wake : Option Time) (deadline : Deadline) : Wait × Clock :=
  if passed deadline clock.now then (.expired, clock.look)
  else if passed clock.horizon clock.now then (.stalled, clock.look)
  else
    match earliest wake (earliest deadline clock.horizon) with
    | none => (.stalled, clock)
    | some moment =>
      let later := { clock.nextTurn with now := max clock.now moment }
      (later.verdict wake deadline, later.look)

theorem wake_le_of_ready {clock later : Clock} {wake : Option Time} {deadline : Deadline}
    (h : clock.wait wake deadline = (.ready, later)) :
    ∃ moment, wake = some moment ∧ moment ≤ later.now := by
  unfold wait at h
  repeat' split at h
  all_goals try simp at h
  obtain ⟨hv, rfl⟩ := h
  unfold verdict at hv
  split at hv
  · rename_i hp
    cases wake <;> simp_all [passed, look]
  · split at hv <;> simp at hv

end Clock

end Courier
