import Courier.Stream.Inlet.Basic

/-!
# Reads that wait

A read of an inlet that ends only with what is wanted, the end of the stream, or the end of the
time (`Inlet.gather`): `Inlet.readLine` reads a line, and `Inlet.readUpTo` a number of bytes. What
it reads before an error or the end of the time is lost. What it gives weighs no more than what it
leaves weighs less (`length_add_weight_gather_le`).
-/

namespace Courier

namespace Inlet

/-- Reads until it has what is wanted, but no more than `limit` bytes; less at the end of the
stream. -/
def gather (wanted : Wanted) (i : Inlet) (clock : Clock) (deadline : Deadline) (limit : Nat) :
    Outcome String Bytes × Clock × Inlet :=
  if limit = 0 then (.ok [], clock, i)
  else
    match _hr : i.read wanted clock limit with
    | (.failed reason, clock, i) => (.error reason, clock, i)
    | (.pending wake, clock, i) =>
      match _hw : clock.wait wake deadline with
      | (.ready, clock) => gather wanted (i.skip clock.now) clock deadline limit
      | (.expired, clock) => (.expired, clock, i)
      | (.stalled, clock) => (.stalled, clock, i)
    | (.data seen, clock, i) =>
      if seen.isEmpty || wanted.isWhole seen then (.ok seen, clock, i)
      else
        match gather wanted i clock deadline (limit - seen.length) with
        | (outcome, clock, i) => (outcome.map (seen ++ ·), clock, i)
termination_by i.weight
decreasing_by
  · obtain ⟨_, rfl, hle⟩ := Clock.wake_le_of_ready _hw
    exact weight_read_skip_lt ‹_› _hr hle
  · have hle : seen.length + i.weight ≤ _ := length_add_weight_read_le _hr
    have : seen ≠ [] := fun he => ‹¬(seen.isEmpty || _) = true› (by rw [he]; rfl)
    have := List.length_pos_iff.2 this
    omega

/-- Reads to the end of the line, but no more than `limit` bytes; less at the end of the stream. -/
def readLine (i : Inlet) (clock : Clock) (deadline : Deadline) (limit : Nat) :
    Outcome String Bytes × Clock × Inlet :=
  gather .line i clock deadline limit

/-- Reads `limit` bytes; less at the end of the stream. -/
def readUpTo (i : Inlet) (clock : Clock) (deadline : Deadline) (limit : Nat) :
    Outcome String Bytes × Clock × Inlet :=
  gather .bytes i clock deadline limit

theorem length_add_weight_gather_le {wanted : Wanted} {clock clock' : Clock} {deadline : Deadline}
    {limit : Nat} {i i' : Inlet} {bytes : Bytes}
    (h : gather wanted i clock deadline limit = (.ok bytes, clock', i')) :
    bytes.length + i'.weight ≤ i.weight := by
  fun_induction gather wanted i clock deadline limit generalizing bytes clock' i' with
  | case1 =>
    cases h
    exact Nat.le_of_eq (Nat.zero_add _)
  | case3 _ _ _ hl _ _ _ hr _ hw ih =>
    obtain ⟨_, rfl, hle⟩ := Clock.wake_le_of_ready hw
    exact Nat.le_of_lt (Nat.lt_of_le_of_lt (ih h) (weight_read_skip_lt hl hr hle))
  | case6 _ _ _ _ _ _ _ hr =>
    cases h
    exact length_add_weight_read_le hr
  | case7 _ _ _ _ seen _ _ hr _ outcome _ _ hn ih =>
    cases outcome <;> cases h
    have hle : seen.length + _ ≤ _ := length_add_weight_read_le hr
    have := ih hn
    rw [List.length_append]
    omega
  | _ => cases h

end Inlet

end Courier
