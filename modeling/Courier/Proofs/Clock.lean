import Courier.Clock
import Mathlib.Order.MinMax
import Mathlib.Tactic.SplitIfs

/-!
# Waits that end well

A wait that ends with what it waits for takes time up to that moment and no more (`now_of_ready`).
It does end so if the moment lies before the deadline and while somebody stays (`exists_ready`).
-/

namespace Courier

namespace Deadline

theorem passed_mono {deadline : Deadline} {early late : Time} (h : early ≤ late)
    (hl : deadline.passed late = false) : deadline.passed early = false := by
  cases deadline with
  | none => rfl
  | some moment =>
    simp only [passed, decide_eq_false_iff_not] at hl ⊢
    exact fun hm => hl (Nat.le_trans hm h)

theorem passed_earliest (a b : Deadline) (now : Time) :
    (a.earliest b).passed now = (a.passed now || b.passed now) := by
  cases a <;> cases b <;> simp only [earliest, passed, Bool.or_false, Bool.false_or]
  rw [Bool.eq_iff_iff, Bool.or_eq_true, decide_eq_true_eq, decide_eq_true_eq, decide_eq_true_eq]
  exact min_le_iff

theorem exists_earliest (wake : Time) (deadline : Deadline) :
    ∃ moment ≤ wake, Deadline.earliest (some wake) deadline = some moment := by
  cases deadline with
  | none => exact ⟨wake, Nat.le_refl _, rfl⟩
  | some end_ => exact ⟨min wake end_, Nat.min_le_left .., rfl⟩

theorem earliest_of_passed {wake : Time} {deadline : Deadline} (h : deadline.passed wake = false) :
    Deadline.earliest (some wake) deadline = some wake := by
  cases deadline with
  | none => rfl
  | some end_ =>
    simp only [passed, decide_eq_false_iff_not] at h
    exact congrArg some (Nat.min_eq_left (Nat.le_of_not_le h))

end Deadline

namespace Clock

/-- The moment lies before the deadline, and somebody is still there at it. -/
def Allows (clock : Clock) (deadline : Deadline) (moment : Time) : Prop :=
  deadline.passed moment = false ∧ clock.horizon.passed moment = false

theorem now_begin (clock : Clock) : clock.begin.now = clock.now := by
  unfold begin
  split <;> rfl

theorem horizon_begin (clock : Clock) : clock.begin.horizon = clock.horizon := by
  unfold begin
  split <;> rfl

theorem now_of_ready {clock later : Clock} {wake : Time} {deadline : Deadline}
    (h : clock.wait (some wake) deadline = (.ready, later)) :
    later.now = max clock.now wake ∧ later.horizon = clock.horizon := by
  obtain ⟨_, hw, hle⟩ := wake_le_of_ready h
  cases hw
  obtain ⟨moment, hm, he⟩ := Deadline.exists_earliest wake (deadline.earliest clock.horizon)
  unfold wait at h
  rw [he] at h
  split_ifs at h
  · cases h
  · cases h
  · obtain rfl := (Prod.mk.inj h).2
    simp only [look, nextTurn] at hle ⊢
    exact ⟨Nat.le_antisymm
      (Nat.max_le.2 ⟨Nat.le_max_left .., Nat.le_trans hm (Nat.le_max_right ..)⟩)
      (Nat.max_le.2 ⟨Nat.le_max_left .., hle⟩), trivial⟩

theorem exists_ready {clock : Clock} {deadline : Deadline} {wake moment : Time}
    (ha : clock.Allows deadline moment) (hw : wake ≤ moment) (hn : clock.now ≤ moment) :
    ∃ later, clock.wait (some wake) deadline = (.ready, later) := by
  obtain ⟨hd, hh⟩ := ha
  have he : (deadline.earliest clock.horizon).passed wake = false := by
    rw [Deadline.passed_earliest, Deadline.passed_mono hw hd, Deadline.passed_mono hw hh]
    rfl
  unfold wait
  rw [Deadline.passed_mono hn hd, Deadline.passed_mono hn hh, Deadline.earliest_of_passed he]
  simp [verdict, Deadline.passed]

end Clock

end Courier
