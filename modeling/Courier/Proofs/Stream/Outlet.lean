import Courier.Stream.Outlet
import Mathlib.Data.List.Basic

/-!
# What an outlet has put out

Whatever a write comes to, a beginning of its bytes is behind what was written before, and nothing
else (`Outlet.Puts`, `puts_push`), and unless it is done, not all of them (`stops_push`). An outlet
whose sink takes everything takes every write (`exists_push`).
-/

namespace Courier

/-- What a sink takes is the beginning of what it is given. -/
theorem Sink.exists_push {s s' : Sink} {bytes left : Bytes} (h : s.push bytes = (left, s')) :
    ∃ put, put ++ left = bytes ∧ s'.received = s.received ++ put ∧ s'.refusal = s.refusal := by
  unfold push at h
  split at h
  · cases h
    exact ⟨bytes, List.append_nil bytes, rfl, rfl⟩
  · cases h
    exact ⟨_, List.take_append_drop .., rfl, rfl⟩

namespace Outlet

/-- Behind what was written there is now a beginning of the bytes. -/
def Puts (o : Outlet) (bytes : Bytes) (o' : Outlet) : Prop :=
  ∃ put, put <+: bytes ∧ o'.written = o.written ++ put

/-- Behind what was written there is now a beginning of the bytes, and not all of them if there are
any. -/
def Stops (o : Outlet) (bytes : Bytes) (o' : Outlet) : Prop :=
  ∃ put, put <+: bytes ∧ (put = bytes → bytes = []) ∧ o'.written = o.written ++ put

theorem Stops.puts {o o' : Outlet} {bytes : Bytes} (h : o.Stops bytes o') : o.Puts bytes o' := by
  obtain ⟨put, hp, -, hw⟩ := h
  exact ⟨put, hp, hw⟩

theorem Stops.of_eq {o o' : Outlet} (h : o'.written = o.written) (bytes : Bytes) :
    o.Stops bytes o' :=
  ⟨[], List.nil_prefix, Eq.symm, by rw [h, List.append_nil]⟩

theorem Puts.of_eq {o o' : Outlet} (h : o'.written = o.written) (bytes : Bytes) :
    o.Puts bytes o' :=
  ⟨[], List.nil_prefix, by rw [h, List.append_nil]⟩

theorem Puts.of_written {o o' : Outlet} {bytes : Bytes} (h : o'.written = o.written ++ bytes) :
    o.Puts bytes o' :=
  ⟨bytes, List.prefix_rfl, h⟩

theorem Puts.mono {o o' : Outlet} {bytes more : Bytes} (h : o.Puts bytes o')
    (hb : bytes <+: more) : o.Puts more o' := by
  obtain ⟨put, hp, hw⟩ := h
  exact ⟨put, hp.trans hb, hw⟩

/-- A write that goes on where another was done. -/
theorem Puts.append {o o' o'' : Outlet} {bytes more : Bytes}
    (h : o'.written = o.written ++ bytes) (h' : o'.Puts more o'') : o.Puts (bytes ++ more) o'' := by
  obtain ⟨put, hp, hw⟩ := h'
  exact ⟨bytes ++ put, List.prefix_append_right_inj bytes |>.2 hp,
    by rw [hw, h, List.append_assoc]⟩

/-- The sink has a beginning of what was written. -/
theorem received_isPrefix (o : Outlet) : o.sink.received <+: o.written :=
  List.prefix_append ..

/-! ## Steps -/

/-- A write past the buffer that is not done puts out some of its bytes, and not all of them. -/
theorem stops_pushPast {o o' : Outlet} {bytes : Bytes} {pushed : Pushed} (hb : o.buffer = [])
    (hd : pushed ≠ .done) (h : o.pushPast bytes = (pushed, o')) : o.Stops bytes o' := by
  unfold pushPast at h
  split at h
  · cases h
    exact absurd rfl hd
  · rename_i left sink hleft hs
    obtain ⟨put, rfl, hr, -⟩ := Sink.exists_push hs
    have hne : put = put ++ left → put ++ left = [] := fun he =>
      absurd (List.self_eq_append_right.1 he) hleft
    split at h
    · cases h
      exact absurd rfl hd
    · split at h <;> cases h <;>
        exact ⟨put, List.prefix_append .., hne, by simp only [written, hb, List.append_nil, hr]⟩

/-- A write that is not done puts out some of its bytes, and not all of them. -/
theorem stops_push {o o' : Outlet} {bytes : Bytes} {pushed : Pushed} (hd : pushed ≠ .done)
    (h : o.push bytes = (pushed, o')) : o.Stops bytes o' := by
  unfold push at h
  split at h
  · rename_i ready hr
    split at h
    · cases h
      exact absurd rfl hd
    · rename_i hc
      split at hr
      · obtain ⟨hw, he⟩ := written_flush hr
        obtain ⟨put, hp, hne, hput⟩ := stops_pushPast (he rfl) hd h
        exact ⟨put, hp, hne, by rw [hput, hw]⟩
      · cases hr
        exact stops_pushPast (List.length_eq_zero_iff.1 (by omega)) hd h
  · rename_i hr
    split at h
    · exact .of_eq (written_flush h).1 bytes
    · cases h
      exact absurd rfl hd

/-- A write puts out a beginning of its bytes, and all of them if it is done. -/
theorem puts_push {o o' : Outlet} {bytes : Bytes} {pushed : Pushed}
    (h : o.push bytes = (pushed, o')) : o.Puts bytes o' := by
  by_cases hd : pushed = .done
  · subst hd
    exact .of_written (written_push h)
  · exact (stops_push hd h).puts

theorem puts_close {o o' : Outlet} {pushed : Pushed} (h : o.close = (pushed, o')) :
    o'.written = o.written ∧ (pushed = .done → o'.buffer = []) := by
  unfold close at h
  split at h
  · rename_i flushed hf
    cases h
    exact @written_flush o flushed _ hf
  · exact written_flush h

/-- A step is settled with the outlet that it left, and with success if it was done. -/
theorem settle_eq {clock clock' : Clock} {deadline : Deadline} {step : Pushed × Outlet}
    {outcome : Outcome String Unit} {o : Outlet}
    (h : settle clock deadline step = (outcome, clock', o)) :
    o = step.2 ∧ (outcome = .ok () ↔ step.1 = .done) := by
  obtain ⟨pushed, o'⟩ := step
  unfold settle at h
  split at h
  · rename_i hs
    cases h
    cases hs
    exact ⟨rfl, iff_of_true rfl rfl⟩
  · rename_i hs
    cases h
    cases hs
    exact ⟨rfl, by simp⟩
  · rename_i hs
    cases hs
    split at h <;> cases h <;> exact ⟨rfl, by simp⟩

/-! ## Sinks that take everything -/

/-- The sink takes everything. -/
def IsOpen (o : Outlet) : Prop :=
  o.sink.room = none

theorem IsOpen.exists_flush {o : Outlet} (ho : o.IsOpen) :
    ∃ o', o.flush = (.done, o') ∧ o'.IsOpen := by
  simp only [IsOpen] at ho
  refine ⟨{ o with
    buffer := [], spent := 0, sink := { o.sink with received := o.sink.received ++ o.buffer } },
    ?_, ho⟩
  simp only [flush, Sink.push, ho]

theorem IsOpen.exists_push {o : Outlet} (ho : o.IsOpen) (bytes : Bytes) :
    ∃ o', o.push bytes = (.done, o') ∧ o'.IsOpen := by
  have ready : ∃ o₁, (if o.capacity < o.spent + o.buffer.length + bytes.length then o.flush
      else (.done, o)) = (.done, o₁) ∧ o₁.IsOpen := by
    split
    · exact ho.exists_flush
    · exact ⟨o, rfl, ho⟩
  obtain ⟨o₁, hr, ho₁⟩ := ready
  unfold push
  rw [hr]
  dsimp only
  split
  · exact ⟨_, rfl, ho₁⟩
  · simp only [IsOpen] at ho₁
    refine ⟨{ o₁ with sink := { o₁.sink with received := o₁.sink.received ++ bytes } }, ?_, ho₁⟩
    simp only [pushPast, Sink.push, ho₁]

theorem IsOpen.of_push {o o' : Outlet} {bytes : Bytes} {pushed : Pushed} (ho : o.IsOpen)
    (h : o.push bytes = (pushed, o')) : pushed = .done ∧ o'.IsOpen := by
  obtain ⟨next, hp, hnext⟩ := ho.exists_push bytes
  rw [h] at hp
  cases hp
  exact ⟨rfl, hnext⟩

theorem IsOpen.exists_close {o : Outlet} (ho : o.IsOpen) : ∃ o', o.close = (.done, o') := by
  obtain ⟨flushed, hf, -⟩ := ho.exists_flush
  exact ⟨{ flushed with sink := flushed.sink.close }, by rw [close, hf]⟩

end Outlet

end Courier
