import Courier.Proofs.Body
import Courier.Proofs.Stream.Arrival

/-!
# Bodies and when they come

What becomes of a body is decided by how its bytes come (`Inlet.arrival`): whether they are there
before time is over, or the stream ends or fails before that, or neither. `Inlet.due` is the moment
at which they are there. It is early enough before the deadline, and at the deadline as well if no
more pauses end at that very moment than one turn has looks for (`Inlet.Arrives`).

`Inlet.yields_readUpTo` is the account of reading a number of bytes, and `Body.read_as_it_comes`
that of reading a body: in time it gives the bytes and takes no notice of what is behind them.
`Body.read_late_at_deadline` shows that the number of pauses matters at the deadline.
-/

namespace Courier

namespace Inlet

variable {i i' : Inlet} {clock clock' : Clock} {deadline : Deadline} {n : Nat}

/-- What reading `n` bytes comes to, by how they come. -/
def Yields (i : Inlet) (n : Nat) (clock : Clock) (deadline : Deadline)
    (outcome : Outcome String Bytes) (later : Clock) : Prop :=
  match i.arrival n clock deadline with
  | .whole | .short => outcome = .ok (i.bytes.take n) ∧ later.now = i.due n clock.now
  | .failed reason => outcome = .error reason ∧ later.now = i.due n clock.now
  | .late => outcome = .expired ∨ outcome = .stalled

theorem yields_readUpTo {outcome : Outcome String Bytes}
    (h : i.readUpTo clock deadline n = (outcome, clock', i')) :
    i.Yields n clock deadline outcome clock' := by
  obtain ⟨-, hanswer, hnow, -⟩ := fetches_readUpTo h
  rw [answer] at hanswer
  unfold Yields arrival
  cases ha : i.arrivalBy Clock.turn n clock deadline with
  | whole | short =>
    rw [ha] at hanswer hnow
    cases outcome <;> cases hanswer
    exact ⟨by rw [take_of_readUpTo h], hnow (by rintro ⟨⟩)⟩
  | failed reason =>
    rw [ha] at hanswer hnow
    cases outcome <;> cases hanswer
    exact ⟨rfl, hnow (by rintro ⟨⟩)⟩
  | late =>
    rw [ha] at hanswer
    cases hw : (clock.wait none deadline).1 <;> rw [hw] at hanswer <;> cases outcome <;>
      cases hanswer
    · exact .inr rfl
    · exact .inl rfl
    · exact .inr rfl

end Inlet

namespace Body

theorem read_of_readUpTo {length : Nat} {deadline : Deadline} {clock later : Clock}
    {inlet inlet' : Inlet} {given : Outcome String Bytes}
    (h : inlet.readUpTo clock.begin deadline length = (given, later, inlet')) :
    ({ length, deadline } : Body).read clock inlet =
      (({ length, deadline } : Body).checkComplete List.length
        ((given.mapError .io).within .timeout), { length, deadline, consumed := true }, later,
          inlet') := by
  simp only [read, h, consume, Bool.false_eq_true, if_false]

theorem ne_ok_of_late {length : Nat} {deadline : Deadline} {clock : Clock} {inlet : Inlet}
    (h : inlet.arrival length clock.begin deadline = .late) (bytes : Bytes) :
    (({ length, deadline } : Body).read clock inlet).1 ≠ .ok bytes := by
  rcases hr : inlet.readUpTo clock.begin deadline length with ⟨given, later, inlet'⟩
  have hyields := Inlet.yields_readUpTo hr
  rw [Inlet.Yields, h] at hyields
  rw [read_of_readUpTo hr]
  rcases hyields with rfl | rfl <;> nofun

/-- A body is read as its bytes come: whole, with no notice of what is behind it, if they come in
time; short or not at all if the stream ends or fails first; and too late otherwise. No byte beyond
it is taken. -/
theorem read_as_it_comes (length : Nat) (deadline : Deadline) (clock : Clock) (inlet : Inlet) :
    ∃ outcome later inlet',
      ({ length, deadline } : Body).read clock inlet =
        (outcome, { length, deadline, consumed := true }, later, inlet') ∧
      inlet.Draws length inlet' ∧
      ((∀ moment ∈ deadline.earliest clock.horizon, inlet.due length clock.now < moment) →
        inlet.Arrives length clock.begin deadline) ∧
      match inlet.arrival length clock.begin deadline with
      | .whole =>
        outcome = .ok (inlet.bytes.take length) ∧ length ≤ inlet.bytes.length ∧
          inlet'.bytes = inlet.bytes.drop length ∧ later.now = inlet.due length clock.now ∧
          ∀ more ending,
            ({ length, deadline } : Body).read clock (inlet.followedBy more ending) =
              (outcome, { length, deadline, consumed := true }, later,
                inlet'.followedBy more ending)
      | .short =>
        outcome = .error (.incomplete length inlet.bytes.length) ∧ inlet.bytes.length < length ∧
          inlet.source.ending = .finish ∧ later.now = inlet.due length clock.now
      | .failed reason =>
        outcome = .error (.io reason) ∧ inlet.bytes.length < length ∧
          inlet.source.ending = .failure reason ∧ later.now = inlet.due length clock.now
      | .late =>
        outcome = .error .timeout ∨
          outcome = .stalled ∧ ∀ moment ∈ deadline, ¬clock.Outlasts moment := by
  rcases hr : inlet.readUpTo clock.begin deadline length with ⟨given, later, inlet'⟩
  have hyields := Inlet.yields_readUpTo hr
  have hcases := inlet.arrivalBy_cases Clock.turn length clock.begin deadline
  have hbody := read_of_readUpTo hr
  have hdraws := Inlet.draws_gather hr
  have hearly : (∀ moment ∈ deadline.earliest clock.horizon, inlet.due length clock.now < moment) →
      inlet.Arrives length clock.begin deadline := by
    rw [← clock.horizon_begin, ← clock.now_begin]
    exact Inlet.arrivesBy_of_due_lt
  unfold Inlet.Yields Inlet.arrival at hyields
  rw [Clock.now_begin] at hyields
  unfold Inlet.arrival
  cases ha : inlet.arrivalBy Clock.turn length clock.begin deadline with
  | whole =>
    rw [ha] at hyields hcases
    obtain ⟨rfl, hnow⟩ := hyields
    have hlength : (inlet.bytes.take length).length = length := List.length_take_of_le hcases
    have hok : ({ length, deadline } : Body).checkComplete List.length
        (((Outcome.ok (inlet.bytes.take length)).mapError .io).within .timeout) =
          .ok (inlet.bytes.take length) :=
      checkComplete_eq_ok_iff.2 ⟨rfl, hlength.ge⟩
    rw [hok] at hbody
    refine ⟨_, later, inlet', hbody, hdraws, hearly, rfl, hcases, ?_, hnow, ?_⟩
    · have hb := (Inlet.gives_gather hr).bytes
      exact List.append_cancel_left (hb.trans (List.take_append_drop length inlet.bytes).symm)
    · intro more ending
      rw [read_of_readUpTo (Inlet.gather_followedBy hcases hr more ending), hok]
  | short =>
    rw [ha] at hyields hcases
    obtain ⟨rfl, hnow⟩ := hyields
    obtain ⟨hlt, hending⟩ := hcases
    rw [List.take_of_length_le (Nat.le_of_lt hlt)] at hbody
    refine ⟨_, later, inlet', hbody, hdraws, hearly, ?_, hlt, hending, hnow⟩
    simp only [Outcome.mapError, Outcome.within, checkComplete, if_pos hlt]
  | failed reason =>
    rw [ha] at hyields hcases
    obtain ⟨rfl, hnow⟩ := hyields
    exact ⟨_, later, inlet', hbody, hdraws, hearly, rfl, hcases.1, hcases.2, hnow⟩
  | late =>
    rw [ha] at hyields
    refine ⟨_, later, inlet', hbody, hdraws, hearly, ?_⟩
    rcases hyields with rfl | rfl
    · exact .inl rfl
    · refine .inr ⟨rfl, ?_⟩
      rintro moment hm ho
      obtain rfl : deadline = some moment := hm
      have hbegin : clock.begin.Outlasts moment := by
        unfold Clock.Outlasts
        rwa [Clock.horizon_begin]
      exact (Inlet.meets_gather hbegin hr).ends rfl

/-- Two bytes with more pauses between them than a turn has looks, all of them at one moment. -/
def crowded : Source :=
  { pieces := .chunk [97] :: List.replicate 129 (.pause 0) ++ [.chunk [98]] }

/-- Bytes that come at the very moment of the deadline are not always read: there is room for no
more than one turn of pauses between it and them. -/
theorem read_late_at_deadline :
    ¬∀ (source : Source) (length : Nat) (deadline : Time), length ≤ source.bytes.length →
      (Inlet.direct source).due length 0 ≤ deadline →
        (({ length, deadline := some deadline } : Body).read {} (.direct source)).1 =
          .ok (source.bytes.take length) := by
  intro h
  have hlate : (Inlet.direct crowded).arrival 2 ({} : Clock).begin (some 0) = .late := by
    decide +kernel
  have hlength : 2 ≤ crowded.bytes.length := by decide +kernel
  have hdue : (Inlet.direct crowded).due 2 0 = 0 := by decide +kernel
  exact ne_ok_of_late hlate _ (h crowded 2 0 hlength (Nat.le_of_eq hdue))

end Body

end Courier
