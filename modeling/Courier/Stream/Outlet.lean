import Courier.Outcome
import Courier.Stream.Sink

/-!
# Outlets

A sink behind a buffer. Bytes are kept until the buffer cannot take more, then the buffer is written
out first; a write as large as the buffer goes past it. An outlet of capacity zero is the bare sink.

A flush that gets stuck keeps its place: the bytes that did get out still take up room in the buffer
(`Outlet.spent`) until the flush is over.

`Outlet.written` is what was written so far, wherever it is now: a flush leaves it as it is
(`written_flush`), and a write adds its bytes at the end (`written_push`).
-/

namespace Courier

/-- A sink and the bytes that are still to be written to it. -/
structure Outlet where
  capacity : Nat
  buffer : Bytes := []
  /-- The room that bytes of an unfinished flush still take up. -/
  spent : Nat := 0
  sink : Sink
deriving Repr, DecidableEq

/-- What a flush or a write came to. -/
inductive Pushed where
  | done
  /-- The sink failed. -/
  | failed (reason : String)
  /-- The sink takes nothing more and does not say so. -/
  | stuck
deriving Repr, DecidableEq

namespace Outlet

/-- How much the outlet of a connection keeps. -/
def defaultCapacity : Nat := 8192

/-- The bare sink. -/
def direct (sink : Sink) : Outlet :=
  { capacity := 0, sink }

/-- The sink behind a buffer. -/
def buffered (sink : Sink) : Outlet :=
  { capacity := defaultCapacity, sink }

/-- Everything that was written to the outlet, whether it got out or not. -/
def written (o : Outlet) : Bytes :=
  o.sink.received ++ o.buffer

/-- Writes the buffer out. -/
def flush (o : Outlet) : Pushed × Outlet :=
  match o.sink.push o.buffer with
  | ([], sink) => (.done, { o with buffer := [], spent := 0, sink })
  | (left, sink) =>
    match o.sink.refusal with
    | .failure reason => (.failed reason, { o with buffer := left, spent := 0, sink })
    | .silence =>
      (.stuck,
        { o with buffer := left, spent := o.spent + (o.buffer.length - left.length), sink })

/-- Writes past the empty buffer; the end of a write that is taken in part may still fit into it. -/
def pushPast (o : Outlet) (bytes : Bytes) : Pushed × Outlet :=
  match o.sink.push bytes with
  | ([], sink) => (.done, { o with sink })
  | (left, sink) =>
    if left.length < bytes.length && left.length < o.capacity then
      (.done, { o with buffer := o.buffer ++ left, sink })
    else
      match o.sink.refusal with
      | .failure reason => (.failed reason, { o with sink })
      | .silence => (.stuck, { o with sink })

/-- Writes bytes. -/
def push (o : Outlet) (bytes : Bytes) : Pushed × Outlet :=
  match if o.capacity < o.spent + o.buffer.length + bytes.length then o.flush else (.done, o) with
  | (.done, o) =>
    if bytes.length < o.capacity then (.done, { o with buffer := o.buffer ++ bytes })
    else o.pushPast bytes
  | answer => answer

theorem written_flush {o o' : Outlet} {pushed : Pushed} (h : o.flush = (pushed, o')) :
    o'.written = o.written ∧ (pushed = .done → o'.buffer = []) := by
  have hp := o.sink.received_push o.buffer
  unfold flush at h
  split at h
  · rename_i hs
    rw [hs] at hp
    simp only [Prod.mk.injEq] at h
    rw [← h.2]
    exact ⟨hp, fun _ => rfl⟩
  · rename_i hs
    rw [hs] at hp
    split at h <;> simp only [Prod.mk.injEq] at h <;> rw [← h.1, ← h.2]
    · exact ⟨hp, nofun⟩
    · exact ⟨hp, nofun⟩

theorem written_pushPast {o o' : Outlet} {bytes : Bytes} (hb : o.buffer = [])
    (h : o.pushPast bytes = (.done, o')) : o'.written = o.written ++ bytes := by
  have hp := o.sink.received_push bytes
  unfold pushPast at h
  split at h
  · rename_i hs
    rw [hs, List.append_nil] at hp
    simp only [Prod.mk.injEq, true_and] at h
    simp only [written, ← h, hb, List.append_nil]
    exact hp
  · rename_i hs
    rw [hs] at hp
    split at h
    · simp only [Prod.mk.injEq, true_and] at h
      simp only [written, ← h, hb, List.nil_append, List.append_nil]
      exact hp
    · split at h <;> simp at h

theorem written_push {o o' : Outlet} {bytes : Bytes} (h : o.push bytes = (.done, o')) :
    o'.written = o.written ++ bytes := by
  unfold push at h
  split at h
  · rename_i ready hr
    have hw : ready.written = o.written ∧ (ready.capacity ≤ bytes.length → ready.buffer = []) := by
      split at hr
      · obtain ⟨hw, he⟩ := written_flush hr
        exact ⟨hw, fun _ => he rfl⟩
      · simp only [Prod.mk.injEq, true_and] at hr
        subst hr
        exact ⟨rfl, fun hc => List.length_eq_zero_iff.1 (by omega)⟩
    rw [← hw.1]
    split at h
    · simp only [Prod.mk.injEq, true_and] at h
      simp only [written, ← h, List.append_assoc]
    · exact written_pushPast (hw.2 (by omega)) h
  · rename_i hd
    exact absurd h (hd _)

/-- Writes the buffer out and closes the sink. -/
def close (o : Outlet) : Pushed × Outlet :=
  match o.flush with
  | (.done, o) => (.done, { o with sink := o.sink.close })
  | answer => answer

/-- What a step comes to before the deadline. A sink that stopped taking bytes does not start again,
so a step that is stuck waits for the end of its time. -/
def settle (clock : Clock) (deadline : Deadline) (step : Pushed × Outlet) :
    Outcome String Unit × Clock × Outlet :=
  match step with
  | (.done, o) => (.ok (), clock, o)
  | (.failed reason, o) => (.error reason, clock, o)
  | (.stuck, o) =>
    match clock.wait none deadline with
    | (.expired, clock) => (.expired, clock, o)
    | (_, clock) => (.stalled, clock, o)

end Outlet

end Courier
