import Courier.Message.Basic
import Courier.Proofs.Body

/-!
# What is written of a message

The written form of a message is its head and the bytes of its body (`Message.encode`). Whatever
writing it comes to, a beginning of that has been put out (`puts_write`), and all of it if writing
ends well (`written_write`). With the body at hand and a sink that takes everything, writing ends
well (`exists_write`). `Message.Writes` tells what becomes of the message and of the channel.
-/

namespace Courier

theorem Head.encode_ne_nil (head : Head) : head.encode ≠ [] :=
  List.append_ne_nil_of_right_ne_nil _ (List.cons_ne_nil _ _)

namespace Message

/-- The written form of a message whose body comes from the inlet. -/
def encode (m : Message) (inlet : Inlet) : Bytes :=
  m.head.encode ++ inlet.bytes.take m.body.length

theorem length_encode {m : Message} {inlet : Inlet}
    (h : (inlet.bytes.take m.body.length).length = m.body.length) :
    (m.encode inlet).length = m.head.encode.length + m.body.length := by
  rw [encode, List.length_append, h]

theorem written_writeBody {m m' : Message} {outer : Deadline} {headSize count : Nat}
    {c c' : Channel} (h : m.writeBody outer headSize c = (.ok count, m', c')) :
    count = headSize + m.body.length ∧
      (c.inlet.bytes.take m.body.length).length = m.body.length ∧
      c'.outlet.written = c.outlet.written ++ c.inlet.bytes.take m.body.length ∧
      c'.outlet.buffer = [] := by
  unfold writeBody at h
  split at h
  · rename_i copied body c₁ hc
    rcases hf : c₁.flush outer with ⟨outcome, c₂⟩
    rw [hf] at h
    simp only [Prod.mk.injEq, Outcome.map_eq_ok_iff, Outcome.mapError_eq_ok_iff] at h
    obtain ⟨⟨done, rfl, rfl⟩, -, rfl⟩ := h
    obtain ⟨rfl, hl, hw⟩ := Body.written_copy hc
    obtain ⟨-, hw', hb⟩ := Channel.flush_eq hf
    exact ⟨rfl, hl, hw'.trans hw, hb done rfl⟩
  all_goals cases h

theorem puts_writeBody {m m' : Message} {outer : Deadline} {headSize : Nat} {c c' : Channel}
    {outcome : Outcome SendError Nat} (h : m.writeBody outer headSize c = (outcome, m', c')) :
    c.outlet.Puts (c.inlet.bytes.take m.body.length) c'.outlet := by
  unfold writeBody at h
  split at h
  · rename_i copied body c₁ hc
    rcases hf : c₁.flush outer with ⟨flushed, c₂⟩
    rw [hf] at h
    cases h
    exact .of_written ((Channel.flush_eq hf).2.1.trans (Body.written_copy hc).2.2)
  all_goals
    rename_i hc
    cases h
    exact Body.puts_copy hc

/-- A message that is written well is written whole, and nothing of it is kept back. -/
theorem written_write {m m' : Message} {outer : Deadline} {c c' : Channel} {count : Nat}
    (h : m.write outer c = (.ok count, m', c')) :
    count = (m.encode c.inlet).length ∧ c'.outlet.written = c.outlet.written ++ m.encode c.inlet ∧
      c'.outlet.buffer = [] := by
  unfold write at h
  split_ifs at h
  · cases h
  · cases h
  · split at h
    · rename_i done c₁ hp
      obtain ⟨hi, -, hw⟩ := Channel.push_eq hp
      obtain ⟨hn, hl, hw', hb⟩ := written_writeBody h
      rw [hi] at hl hw'
      exact ⟨hn.trans (length_encode hl).symm,
        by rw [hw', hw done rfl, encode, List.append_assoc], hb⟩
    all_goals cases h

/-- Whatever writing a message comes to, a beginning of it has been put out. -/
theorem puts_write {m m' : Message} {outer : Deadline} {c c' : Channel}
    {outcome : Outcome SendError Nat} (h : m.write outer c = (outcome, m', c')) :
    c.outlet.Puts (m.encode c.inlet) c'.outlet := by
  unfold write at h
  split_ifs at h
  · cases h
    exact .of_eq rfl _
  · cases h
    exact .of_eq rfl _
  · split at h
    · rename_i done c₁ hp
      obtain ⟨hi, -, hw⟩ := Channel.push_eq hp
      have hput := puts_writeBody h
      rw [hi] at hput
      exact .append (hw done rfl) hput
    all_goals
      rename_i hp
      cases h
      exact (Channel.push_eq hp).2.1.mono (List.prefix_append ..)

theorem exists_write {m : Message} (outer : Deadline) {c : Channel}
    (hc : m.body.consumed = false) (hm : m.head.bodySize = m.body.length)
    (hl : m.body.length ≤ c.inlet.bytes.length) (hi : c.inlet.AtHand) (ho : c.outlet.IsOpen) :
    ∃ count m' c', m.write outer c = (.ok count, m', c') ∧ c'.outlet.IsOpen := by
  obtain ⟨c₁, hp, ho₁⟩ := Channel.exists_push outer m.head.encode ho
  have he := (Channel.push_eq hp).1
  obtain ⟨count, body, c₂, hcopy, ho₂⟩ := Body.exists_copy outer hc (he ▸ hl) (he ▸ hi) ho₁
  obtain ⟨c₃, hf, ho₃⟩ := Channel.exists_flush outer ho₂
  refine ⟨m.head.encode.length + count, { m with body }, c₃, ?_, ho₃⟩
  rw [write, hc, if_neg Bool.false_ne_true, if_neg (not_not.2 hm), hp]
  simp only [writeBody, hcopy, hf]
  rfl

/-! ## Using the body up -/

/-- Writing the body behind the head uses the body up, whatever it comes to. -/
theorem consume_of_writeBody {m m' : Message} {outer : Deadline} {headSize : Nat} {c c' : Channel}
    {outcome : Outcome SendError Nat} (hc : m.body.consumed = false)
    (h : m.writeBody outer headSize c = (outcome, m', c')) :
    m' = { m with body := m.body.consume } ∧ c.inlet.Draws m.body.length c'.inlet ∧
      ∀ declared actual, outcome ≠ .error (.lengthMismatch declared actual) := by
  unfold writeBody at h
  split at h
  · rename_i copied body c₁ hcopy
    obtain ⟨rfl, hd⟩ := Body.consume_of_copy hc hcopy
    rcases hf : c₁.flush outer with ⟨flushed, c₂⟩
    rw [hf] at h
    cases h
    refine ⟨rfl, (Channel.flush_eq hf).1 ▸ hd, fun declared actual he => ?_⟩
    cases flushed <;> cases he
  all_goals
    rename_i hcopy
    obtain ⟨rfl, hd⟩ := Body.consume_of_copy hc hcopy
    cases h
    exact ⟨rfl, hd, nofun⟩

/-- What writing a message may come to, and what becomes of it and of the channel. -/
inductive Writes (m : Message) (c : Channel) : Outcome SendError Nat → Message → Channel → Prop
  /-- The body is used up already. -/
  | refused (hc : m.body.consumed = true) : Writes m c (.error (.body .alreadyConsumed)) m c
  /-- The head declares another length. -/
  | mismatched (hc : m.body.consumed = false) (hm : m.head.bodySize ≠ m.body.length) :
    Writes m c (.error (.lengthMismatch m.head.contentLength m.body.length)) m c
  /-- Writing ends inside the head. -/
  | stopped {outcome : Outcome SendError Nat} {c' : Channel} (hc : m.body.consumed = false)
    (hm : m.head.bodySize = m.body.length) (hi : c'.inlet = c.inlet)
    (hs : c.outlet.Stops m.head.encode c'.outlet) (hok : ∀ count, outcome ≠ .ok count)
    (hne : ∀ declared actual, outcome ≠ .error (.lengthMismatch declared actual)) :
    Writes m c outcome m c'
  /-- The head is out, and the body is used up. -/
  | passed {outcome : Outcome SendError Nat} {c' : Channel} {put : Bytes}
    (hc : m.body.consumed = false) (hm : m.head.bodySize = m.body.length)
    (hd : c.inlet.Draws m.body.length c'.inlet) (hp : put <+: c.inlet.bytes.take m.body.length)
    (hw : c'.outlet.written = c.outlet.written ++ m.head.encode ++ put)
    (hne : ∀ declared actual, outcome ≠ .error (.lengthMismatch declared actual)) :
    Writes m c outcome { m with body := m.body.consume } c'

theorem Writes.within {m m' : Message} {c c' : Channel} {outcome : Outcome SendError Nat}
    (h : Writes m c outcome m' c') : Writes m c (outcome.within .timeout) m' c' := by
  cases h with
  | refused hc => exact .refused hc
  | mismatched hc hm => exact .mismatched hc hm
  | stopped hc hm hi hs hok hne =>
    refine .stopped hc hm hi hs (fun count he => ?_) fun declared actual he => ?_
    · exact hok count (Outcome.within_eq_ok_iff.1 he)
    · cases outcome <;> cases he
      exact hne _ _ rfl
  | passed hc hm hd hp hw hne =>
    refine .passed hc hm hd hp hw fun declared actual he => ?_
    cases outcome <;> cases he
    exact hne _ _ rfl

theorem writes_write {m m' : Message} {outer : Deadline} {c c' : Channel}
    {outcome : Outcome SendError Nat} (h : m.write outer c = (outcome, m', c')) :
    Writes m c outcome m' c' := by
  unfold write at h
  split_ifs at h with hc hm
  · cases h
    exact .refused hc
  · cases h
    exact .mismatched (Bool.eq_false_iff.2 hc) hm
  · have hc := Bool.eq_false_iff.2 hc
    have hm := not_not.1 hm
    split at h
    · rename_i done c₁ hp
      obtain ⟨hi, -, hw⟩ := Channel.push_eq hp
      obtain ⟨rfl, hd, hne⟩ := consume_of_writeBody hc h
      obtain ⟨put, hput, hw'⟩ := puts_writeBody h
      rw [hi] at hd hput
      exact .passed hc hm hd hput (by rw [hw', hw done rfl]) hne
    all_goals
      rename_i hp
      obtain ⟨hi, hs⟩ := Channel.stops_push hp nofun
      cases h
      exact .stopped hc hm hi hs nofun nofun

end Message

end Courier
