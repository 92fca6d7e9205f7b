import Courier.Body
import Courier.Proofs.Outcome
import Courier.Proofs.Transfer

/-!
# What a body is read and copied as

A body that is read well is the next bytes of its inlet (`Body.gives_read`). Whatever copying it
comes to, a beginning of those bytes has been put out (`Body.puts_copy`), and all of them if copying
ends well (`Body.written_copy`). Both use the body up, whatever they come to, and neither takes a
byte beyond it (`Body.consume_of_read`, `Body.consume_of_copy`).
-/

namespace Courier

namespace Body

theorem checkComplete_eq_ok_iff {α : Type} {body : Body} {size : α → Nat}
    {outcome : Outcome BodyError α} {value : α} :
    body.checkComplete size outcome = .ok value ↔
      outcome = .ok value ∧ body.length ≤ size value := by
  cases outcome with
  | ok other =>
    simp only [checkComplete]
    split_ifs with hl
    · simp only [Outcome.ok.injEq, false_iff, not_and]
      rintro rfl
      omega
    · simp only [Outcome.ok.injEq, iff_self_and]
      rintro rfl
      omega
  | _ => simp [checkComplete]

/-! ## Reading -/

/-- A body that is read well is the next bytes of the inlet, as many as it should have. -/
theorem gives_read {body body' : Body} {clock clock' : Clock} {inlet inlet' : Inlet} {bytes : Bytes}
    (h : body.read clock inlet = (.ok bytes, body', clock', inlet')) :
    bytes = inlet.bytes.take body.length ∧ bytes.length = body.length ∧
      inlet.Gives clock bytes inlet' clock' := by
  unfold read at h
  split_ifs at h with hc
  · cases h
  · rcases hr : inlet.readUpTo clock.begin body.deadline body.length with ⟨outcome, clock₁, i⟩
    rw [hr] at h
    simp only [Prod.mk.injEq, checkComplete_eq_ok_iff, Outcome.within_eq_ok_iff,
      Outcome.mapError_eq_ok_iff] at h
    obtain ⟨⟨rfl, hl⟩, -, rfl, rfl⟩ := h
    have ht := Inlet.take_of_readUpTo hr
    have hle : bytes.length ≤ body.length := ht ▸ List.length_take_le ..
    exact ⟨ht, by omega, (Inlet.gives_gather hr).begin⟩

/-- Of a stream that finishes, a body that is there is read, unless it is too late. -/
theorem read_cases {body body' : Body} {clock clock' : Clock} {inlet inlet' : Inlet}
    {outcome : Outcome BodyError Bytes} (hc : body.consumed = false)
    (hf : inlet.source.ending = .finish) (hl : body.length ≤ inlet.bytes.length)
    (h : body.read clock inlet = (outcome, body', clock', inlet')) :
    outcome = .error .timeout ∨ outcome = .stalled ∨ ∃ bytes, outcome = .ok bytes := by
  unfold read at h
  rw [hc, if_neg Bool.false_ne_true] at h
  rcases hr : inlet.readUpTo clock.begin body.deadline body.length with ⟨read, clock₁, i⟩
  rw [hr] at h
  cases h
  cases read with
  | ok bytes =>
    have ht := congrArg List.length (Inlet.take_of_readUpTo hr)
    rw [List.length_take, Nat.min_eq_left hl] at ht
    exact .inr (.inr ⟨bytes, checkComplete_eq_ok_iff.2 ⟨rfl, by omega⟩⟩)
  | error reason =>
    have he := Inlet.ending_of_gather hr
    rw [hf] at he
    cases he
  | expired => exact .inl rfl
  | stalled => exact .inr (.inl rfl)

/-- A body that is all there in time is read in time. -/
theorem not_late_of_read {body body' : Body} {clock clock' : Clock} {inlet inlet' : Inlet}
    {outcome : Outcome BodyError Bytes} (hi : inlet.InTime clock body.deadline)
    (h : body.read clock inlet = (outcome, body', clock', inlet')) :
    outcome ≠ .error .timeout ∧ outcome ≠ .expired ∧ outcome ≠ .stalled := by
  unfold read at h
  split_ifs at h
  · cases h
    simp
  · obtain ⟨clock₁, i, hr⟩ := Inlet.exists_readUpTo hi.begin body.length
    rw [hr] at h
    cases h
    simp only [Outcome.mapError, Outcome.within, checkComplete]
    split <;> simp

/-- Of a stream that is all there in time, a body is read as what there is of it, or found too
short. -/
theorem exists_read (body : Body) {clock : Clock} {inlet : Inlet} (hc : body.consumed = false)
    (hi : inlet.InTime clock body.deadline) :
    ∃ clock' inlet', body.read clock inlet =
      (if inlet.bytes.length < body.length then .error (.incomplete body.length inlet.bytes.length)
        else .ok (inlet.bytes.take body.length), body.consume, clock', inlet') := by
  obtain ⟨clock', inlet', hr⟩ := Inlet.exists_readUpTo hi.begin body.length
  refine ⟨clock', inlet', ?_⟩
  rw [read, hc, if_neg Bool.false_ne_true, hr]
  simp only [Outcome.mapError, Outcome.within, checkComplete, List.length_take]
  by_cases hl : inlet.bytes.length < body.length
  · rw [Nat.min_eq_right (Nat.le_of_lt hl), if_pos hl]
  · rw [Nat.min_eq_left (Nat.le_of_not_lt hl), if_neg (Nat.lt_irrefl _), if_neg hl]

/-! ## Copying -/

/-- A body that is copied well is empty, or has been moved whole. -/
theorem moves_copy {body body' : Body} {outer : Deadline} {c c' : Channel} {count : Nat}
    (h : body.copy outer c = (.ok count, body', c')) :
    body.length = 0 ∧ count = 0 ∧ c' = c ∨
      body.length ≤ count ∧ Transfer.Moves c body.length count c' := by
  unfold copy at h
  split_ifs at h with hc hz
  · cases h
  · cases h
    exact .inl ⟨hz, rfl, rfl⟩
  · rcases hr : Transfer.run c (body.deadline.earliest outer) body.length with ⟨moved, c₁⟩
    rw [hr] at h
    simp only [Prod.mk.injEq, checkComplete_eq_ok_iff, id] at h
    obtain ⟨⟨ho, hl⟩, -, rfl⟩ := h
    obtain rfl : moved = .ok count := by
      split at ho
      · simpa using ho
      · simpa using ho
    exact .inr ⟨hl, Transfer.moves_run hr⟩

/-- A body that is copied well has been put out whole. -/
theorem written_copy {body body' : Body} {outer : Deadline} {c c' : Channel} {count : Nat}
    (h : body.copy outer c = (.ok count, body', c')) :
    count = body.length ∧ (c.inlet.bytes.take body.length).length = body.length ∧
      c'.outlet.written = c.outlet.written ++ c.inlet.bytes.take body.length := by
  obtain ⟨hz, rfl, rfl⟩ | ⟨hl, -, hw, -, hn⟩ := moves_copy h
  · rw [hz, List.take_zero]
    exact ⟨rfl, rfl, (List.append_nil _).symm⟩
  · have hle := List.length_take_le body.length c.inlet.bytes
    exact ⟨by omega, by omega, hw⟩

/-- A body that is copied well leaves nothing behind in the outlet. -/
theorem buffer_copy {body body' : Body} {outer : Deadline} {c c' : Channel} {count : Nat}
    (hb : c.outlet.buffer = []) (h : body.copy outer c = (.ok count, body', c')) :
    c'.outlet.buffer = [] := by
  obtain ⟨-, -, rfl⟩ | ⟨-, hm⟩ := moves_copy h
  · exact hb
  · exact hm.buffer

/-- Whatever copying a body comes to, a beginning of it has been put out. -/
theorem puts_copy {body body' : Body} {outer : Deadline} {c c' : Channel}
    {outcome : Outcome BodyError Nat} (h : body.copy outer c = (outcome, body', c')) :
    c.outlet.Puts (c.inlet.bytes.take body.length) c'.outlet := by
  unfold copy at h
  split_ifs at h with hc hz
  · cases h
    exact .of_eq rfl _
  · cases h
    exact .of_eq rfl _
  · rcases hr : Transfer.run c (body.deadline.earliest outer) body.length with ⟨moved, c₁⟩
    rw [hr] at h
    cases h
    exact Transfer.puts_run hr

theorem exists_copy {body : Body} (outer : Deadline) {c : Channel} (hc : body.consumed = false)
    (hl : body.length ≤ c.inlet.bytes.length) (hi : c.inlet.AtHand) (ho : c.outlet.IsOpen) :
    ∃ count body' c', body.copy outer c = (.ok count, body', c') ∧ c'.outlet.IsOpen := by
  unfold copy
  rw [hc, if_neg Bool.false_ne_true]
  split_ifs with hz
  · exact ⟨_, _, _, rfl, ho⟩
  · obtain ⟨total, c', hr, ho'⟩ :=
      Transfer.exists_run (body.deadline.earliest outer) body.length hi ho
    have hn := (Transfer.moves_run hr).count
    rw [List.length_take] at hn
    refine ⟨total, body.consume, c', ?_, ho'⟩
    rw [hr]
    simp only [Prod.mk.injEq, checkComplete_eq_ok_iff, id, and_true]
    refine ⟨?_, by omega⟩
    split <;> rfl

/-! ## Using it up -/

theorem read_of_consumed {body : Body} (hc : body.consumed = true) (clock : Clock)
    (inlet : Inlet) : body.read clock inlet = (.error .alreadyConsumed, body, clock, inlet) := by
  rw [read, if_pos hc]

theorem copy_of_consumed {body : Body} (hc : body.consumed = true) (outer : Deadline)
    (c : Channel) : body.copy outer c = (.error .alreadyConsumed, body, c) := by
  rw [copy, if_pos hc]

/-- Reading a body uses it up, whatever that comes to, and takes no byte beyond it. -/
theorem consume_of_read {body body' : Body} {clock clock' : Clock} {inlet inlet' : Inlet}
    {outcome : Outcome BodyError Bytes} (hc : body.consumed = false)
    (h : body.read clock inlet = (outcome, body', clock', inlet')) :
    body' = body.consume ∧ inlet.Draws body.length inlet' := by
  unfold read at h
  rw [hc, if_neg Bool.false_ne_true] at h
  rcases hr : inlet.readUpTo clock.begin body.deadline body.length with ⟨given, clock₁, i⟩
  rw [hr] at h
  cases h
  exact ⟨rfl, Inlet.draws_gather hr⟩

/-- Copying a body uses it up, whatever that comes to, and takes no byte beyond it. -/
theorem consume_of_copy {body body' : Body} {outer : Deadline} {c c' : Channel}
    {outcome : Outcome BodyError Nat} (hc : body.consumed = false)
    (h : body.copy outer c = (outcome, body', c')) :
    body' = body.consume ∧ c.inlet.Draws body.length c'.inlet := by
  unfold copy at h
  rw [hc, if_neg Bool.false_ne_true] at h
  split_ifs at h with hz
  · cases h
    exact ⟨rfl, .of_eq rfl _⟩
  · rcases hr : Transfer.run c (body.deadline.earliest outer) body.length with ⟨moved, c₁⟩
    rw [hr] at h
    cases h
    exact ⟨rfl, Transfer.draws_run hr⟩

end Body

end Courier
