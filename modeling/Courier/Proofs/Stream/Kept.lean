import Courier.Proofs.Message.Use
import Courier.Proofs.Stream.Behind

/-!
# What no operation changes

A property of inlets that reading and passing over a pause leave in force (`Inlet.Kept`) is left in
force by everything that is made of these: reads that wait, transfers, and all uses of a body
(`Inlet.Kept.used`).

One such property is that the buffer holds no more than it can (`Inlet.Buffered`). Where it does, an
inlet cannot be told from a new one before what is left of the stream (`Inlet.gather_rest`).
-/

namespace Courier

namespace Inlet

/-- No operation on an inlet ends the property. -/
structure Kept (P : Inlet → Prop) : Prop where
  read : ∀ {i i' : Inlet} {clock clock' : Clock} {limit : Nat} {wanted : Wanted}
    {result : ReadResult}, P i → i.read wanted clock limit = (result, clock', i') → P i'
  skip : ∀ {i : Inlet} (now : Time), P i → P (i.skip now)

theorem Kept.gather {P : Inlet → Prop} {wanted : Wanted} {i i' : Inlet} {clock clock' : Clock}
    {deadline : Deadline} {limit : Nat} {outcome : Outcome String Bytes} (hk : Kept P) (hi : P i)
    (h : gather wanted i clock deadline limit = (outcome, clock', i')) : P i' := by
  fun_induction Inlet.gather wanted i clock deadline limit generalizing outcome clock' i' with
  | case1 =>
    cases h
    exact hi
  | case2 i clock limit hl reason clock₁ i₁ hr | case4 i clock limit hl wake clock₁ i₁ hr
  | case5 i clock limit hl wake clock₁ i₁ hr | case6 i clock limit hl clock₁ i₁ seen hr =>
    cases h
    exact hk.read hi hr
  | case3 i clock limit hl wake clock₁ i₁ hr later hw ih =>
    exact ih (hk.skip _ (hk.read hi hr)) h
  | case7 i clock limit hl seen clock₁ i₁ hr he outcome clock₂ i₂ hn ih =>
    cases h
    exact ih (hk.read hi hr) hn

end Inlet

/-! ## Transfers -/

namespace Channel

variable {P : Inlet → Prop} {c c' : Channel} {deadline : Deadline}

theorem kept_wait {wake : Option Time} {ended : Wait} (hk : Inlet.Kept P)
    (h : c.wait wake deadline = (ended, c')) (hc : P c.inlet) : P c'.inlet := by
  unfold wait at h
  split at h <;> cases h
  · exact hk.skip _ hc
  · exact hc

end Channel

namespace Transfer

variable {P : Inlet → Prop} {c c' : Channel} {deadline : Deadline}

theorem kept_sip {room : Nat} {result : ReadResult} (hk : Inlet.Kept P)
    (h : sip c room = (result, c')) (hc : P c.inlet) : P c'.inlet := by
  unfold sip at h
  split at h
  · cases h
    exact hc
  · rcases hr : c.inlet.read .bytes c.clock room with ⟨read, clock, inlet⟩
    rw [hr] at h
    cases h
    exact hk.read hc hr

theorem kept_lastLook {room : Nat} {outcome : Outcome String Nat} (hk : Inlet.Kept P)
    (h : lastLook c deadline room = (outcome, c')) (hc : P c.inlet) : P c'.inlet := by
  unfold lastLook at h
  rcases hw : c.wait none deadline with ⟨ended, later⟩
  rw [hw] at h
  have hlater := Channel.kept_wait hk hw hc
  dsimp only at h
  split at h
  · cases h
    exact hlater
  · split at h
    · rename_i hs
      have hfirst := kept_sip hk hs hlater
      cases h
      exact hfirst
    · rename_i hs
      have hfirst := kept_sip hk hs hlater
      cases h
      exact hfirst
    · rename_i hs
      have hfirst := kept_sip hk hs hlater
      split at h <;>
        · rename_i ht
          have hsecond := kept_sip hk ht hfirst
          cases h
          exact hsecond

theorem kept_absorb {room : Nat} {stake : Option Nat} {outcome : Outcome String Nat}
    (hk : Inlet.Kept P) (h : absorb c deadline room stake = (outcome, c')) (hc : P c.inlet) :
    P c'.inlet := by
  fun_induction absorb c deadline room stake with
  | case1 c room stake reason c₁ hs =>
    cases h
    exact kept_sip hk hs hc
  | case2 c room stake bytes c₁ hs =>
    have hfirst := kept_sip hk hs hc
    exact kept_lastLook hk h hfirst
  | case3 c room stake wake c₁ hs c₂ hw | case4 c room stake wake c₁ hs c₂ hw =>
    have hfirst := kept_sip hk hs hc
    cases h
    exact Channel.kept_wait hk hw hfirst
  | case5 c room stake wake c₁ hs c₂ hw reason c₃ ht =>
    have hfirst := kept_sip hk hs hc
    have hlater := Channel.kept_wait hk hw hfirst
    cases h
    exact kept_sip hk ht hlater
  | case6 c room stake wake c₁ hs c₂ hw bytes c₃ ht ih
  | case7 c room stake wake c₁ hs c₂ hw wake' c₃ ht ih =>
    have hfirst := kept_sip hk hs hc
    have hlater := Channel.kept_wait hk hw hfirst
    exact ih h (kept_sip hk ht hlater)

theorem kept_pump {remaining moved : Nat} {unflushed : Bool} {stake : Option Nat}
    {outcome : Outcome String Nat} (hk : Inlet.Kept P)
    (h : pump c deadline remaining moved unflushed stake = (outcome, c')) (hc : P c.inlet) :
    P c'.inlet := by
  fun_induction pump c deadline remaining moved unflushed stake with
  | case1 c moved unflushed stake => exact inlet_finish h ▸ hc
  | case2 c remaining moved unflushed stake hn reason clock inlet hr
  | case3 c remaining moved unflushed stake hn wake clock inlet hr
  | case8 c remaining moved unflushed stake hn bytes clock inlet hr =>
    cases h
    exact hk.read hc hr
  | case4 c remaining moved unflushed stake hn wake clock inlet hr unflushed' outlet hrelease c₁ hw
  | case5 c remaining moved unflushed stake hn wake clock inlet hr unflushed' outlet hrelease c₁
      hw =>
    cases h
    exact Channel.kept_wait hk hw (hk.read hc hr)
  | case6 c remaining moved unflushed stake hn wake clock inlet hr unflushed' outlet hrelease c₁ hw
      ih =>
    have hread := hk.read hc hr
    have hlater := Channel.kept_wait hk hw hread
    exact ih h hlater
  | case7 c remaining moved unflushed stake hn bytes clock inlet hr he =>
    rw [inlet_finish h]
    exact hk.read hc hr
  | case9 c remaining moved unflushed stake hn bytes clock inlet hr he outlet hp =>
    exact kept_absorb hk h (hk.read hc hr)
  | case10 c remaining moved unflushed stake hn bytes clock inlet hr he outlet hp ih =>
    exact ih h (hk.read hc hr)

theorem kept_run {length : Nat} {outcome : Outcome String Nat} (hk : Inlet.Kept P)
    (h : run c deadline length = (outcome, c')) (hc : P c.inlet) : P c'.inlet :=
  kept_pump hk h hc

end Transfer

/-! ## Uses of a body -/

variable {P : Inlet → Prop}

theorem Body.kept_read {body body' : Body} {clock clock' : Clock} {inlet inlet' : Inlet}
    {outcome : Outcome BodyError Bytes} (hk : Inlet.Kept P)
    (h : body.read clock inlet = (outcome, body', clock', inlet')) (hi : P inlet) : P inlet' := by
  unfold read at h
  split_ifs at h
  · cases h
    exact hi
  · rcases hr : inlet.readUpTo clock.begin body.deadline body.length with ⟨given, clock₁, i⟩
    rw [hr] at h
    cases h
    exact hk.gather hi hr

theorem Body.kept_copy {body body' : Body} {outer : Deadline} {c c' : Channel}
    {outcome : Outcome BodyError Nat} (hk : Inlet.Kept P)
    (h : body.copy outer c = (outcome, body', c')) (hc : P c.inlet) : P c'.inlet := by
  unfold copy at h
  split_ifs at h
  · cases h
    exact hc
  · cases h
    exact hc
  · rcases hr : Transfer.run c (body.deadline.earliest outer) body.length with ⟨moved, c₁⟩
    rw [hr] at h
    cases h
    exact Transfer.kept_run hk hr hc

namespace Message

theorem kept_writeBody {m m' : Message} {outer : Deadline} {headSize : Nat} {c c' : Channel}
    {outcome : Outcome SendError Nat} (hk : Inlet.Kept P)
    (h : m.writeBody outer headSize c = (outcome, m', c')) (hc : P c.inlet) : P c'.inlet := by
  unfold writeBody at h
  split at h
  · rename_i copied body c₁ hcopy
    rcases hf : c₁.flush outer with ⟨flushed, c₂⟩
    rw [hf] at h
    cases h
    rw [(Channel.flush_eq hf).1]
    exact Body.kept_copy hk hcopy hc
  all_goals
    rename_i hcopy
    cases h
    exact Body.kept_copy hk hcopy hc

theorem kept_write {m m' : Message} {outer : Deadline} {c c' : Channel}
    {outcome : Outcome SendError Nat} (hk : Inlet.Kept P)
    (h : m.write outer c = (outcome, m', c')) (hc : P c.inlet) : P c'.inlet := by
  unfold write at h
  split_ifs at h
  · cases h
    exact hc
  · cases h
    exact hc
  · split at h
    · rename_i done c₁ hp
      exact kept_writeBody hk h ((Channel.push_eq hp).1 ▸ hc)
    all_goals
      rename_i hp
      cases h
      exact (Channel.push_eq hp).1 ▸ hc

end Message

/-- Whatever a message is used for, its inlet keeps what no operation ends. -/
theorem Inlet.Kept.step {o : Outgoing} (hk : Inlet.Kept P) (ho : P o.inlet) (use : Use) :
    P (use.step o).after.inlet := by
  cases hm : use.manner with
  | read =>
    rcases hr : o.message.body.read use.clock o.inlet with ⟨outcome, body, clock, inlet⟩
    simp only [Use.step, Use.run, hm, hr]
    exact Body.kept_read hk hr ho
  | copy =>
    rcases hr : o.message.body.copy use.deadline ⟨use.clock, o.inlet, use.outlet⟩ with
      ⟨outcome, body, c⟩
    simp only [Use.step, Use.run, hm, hr]
    exact Body.kept_copy hk hr ho
  | write =>
    rcases hr : o.message.write use.deadline ⟨use.clock, o.inlet, use.outlet⟩ with ⟨outcome, m, c⟩
    simp only [Use.step, Use.run, hm, hr]
    exact Message.kept_write hk hr ho
  | send =>
    rcases hr : o.message.write use.deadline ⟨use.clock.begin, o.inlet, use.outlet⟩ with
      ⟨outcome, m, c⟩
    simp only [Use.step, Use.run, hm, Sender.send, hr]
    exact Message.kept_write hk hr ho

/-- The message after all of the uses. -/
def Outgoing.used (o : Outgoing) (uses : List Use) : Outgoing :=
  uses.foldl (fun o use => (use.step o).after) o

theorem Inlet.Kept.used {o : Outgoing} (hk : Inlet.Kept P) (ho : P o.inlet) (uses : List Use) :
    P (o.used uses).inlet := by
  induction uses generalizing o with
  | nil => exact ho
  | cons use uses ih => exact ih (hk.step ho use)

/-! ## Buffers -/

namespace Inlet

variable {i i' : Inlet} {clock clock' : Clock} {deadline : Deadline} {limit : Nat}
  {wanted : Wanted}

/-- The inlet is that of a connection, and its buffer holds no more than it can. -/
structure Buffered (i : Inlet) : Prop where
  capacity : i.capacity = defaultCapacity
  bound : i.buffer.length ≤ defaultCapacity

theorem buffered_buffered (source : Source) : (buffered source).Buffered :=
  ⟨rfl, Nat.zero_le _⟩

theorem Buffered.read {result : ReadResult} (hi : i.Buffered)
    (h : i.read wanted clock limit = (result, clock', i')) : i'.Buffered := by
  obtain ⟨shown, loaded, hl, rfl, rfl⟩ := exists_load_of_read h
  obtain ⟨hcapacity, hbound⟩ : loaded.capacity = i.capacity ∧
      loaded.buffer.length ≤ max i.buffer.length (wanted.room i.capacity limit) := by
    unfold load at hl
    split_ifs at hl
    · have hle := i.source.length_read_le clock (wanted.room i.capacity limit)
      cases hl
      exact ⟨rfl, Nat.le_trans hle (Nat.le_max_right ..)⟩
    · cases hl
      exact ⟨rfl, Nat.le_max_left ..⟩
  refine ⟨hcapacity.trans hi.capacity, ?_⟩
  rw [consume, List.length_drop, bytes_map_first, ← buffer_load hl]
  rw [hi.capacity] at hbound
  have hi := hi.bound
  -- What a read for bytes puts beyond the capacity of the buffer it takes out again.
  cases wanted with
  | bytes =>
    simp only [Wanted.room, Wanted.first, List.length_take] at hbound ⊢
    omega
  | line =>
    have : 1 ≤ defaultCapacity := by decide
    simp only [Wanted.room] at hbound
    omega

theorem kept_buffered : Kept Buffered where
  read hi h := hi.read h
  skip _ hi := ⟨hi.capacity, hi.bound⟩

/-- What is left of the stream, with what the buffer holds in front of it. -/
def rest (i : Inlet) : Source :=
  { i.source with pieces := .chunk i.buffer :: i.source.pieces }

theorem bytes_rest (i : Inlet) : (buffered i.rest).bytes = i.bytes :=
  rfl

/-- A new inlet takes into its buffer at once what was in the buffer before. -/
theorem load_rest (hi : i.Buffered) {room : Nat} (hr : i.buffer.length ≤ room) (clock : Clock) :
    (buffered i.rest).load clock room = i.load clock room := by
  obtain ⟨capacity, buffer, source⟩ := i
  obtain rfl : capacity = defaultCapacity := hi.capacity
  by_cases he : buffer.isEmpty
  · obtain rfl := List.isEmpty_iff.1 he
    simp [load, buffered, rest, Source.read, Piece.read]
  · have hr : buffer.length ≤ room := hr
    simp [load, buffered, rest, Source.read, Piece.read, he, hr, ReadResult.bytes]

theorem read_rest (hi : i.Buffered) (clock : Clock) (limit : Nat) (wanted : Wanted) :
    (buffered i.rest).read wanted clock limit = i.read wanted clock limit := by
  have hroom : i.buffer.length ≤ wanted.room defaultCapacity limit := by
    cases wanted <;> exact Nat.le_trans hi.bound (Nat.le_max_left ..)
  have hcapacity : (buffered i.rest).capacity = i.capacity := hi.capacity.symm
  rw [← hi.capacity] at hroom
  rw [read, read, hcapacity, load_rest hi hroom]

/-- Bytes are read from a new inlet as they are from the old one. -/
theorem gather_rest (hi : i.Buffered) (hl : limit ≠ 0) (clock : Clock) (deadline : Deadline) :
    gather wanted (buffered i.rest) clock deadline limit =
      gather wanted i clock deadline limit := by
  rw [gather_step _ _ _ _ hl, gather_step _ _ _ _ hl, read_rest hi]

end Inlet

end Courier
