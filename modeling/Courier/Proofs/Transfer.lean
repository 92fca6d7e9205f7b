import Courier.Proofs.Stream.Inlet
import Courier.Proofs.Stream.Outlet
import Courier.Transfer

/-!
# What a transfer moves

Whatever a transfer comes to, it has put out a beginning of the bytes that it was to move
(`puts_run`), and taken no more than those (`draws_run`). When it ends well it has moved all of
them, and the outlet keeps none back (`moves_run`). From a source that has everything at hand to a
sink that takes everything, it ends well (`exists_run`).
-/

namespace Courier

namespace Channel

theorem wait_ready {c c' : Channel} {wake : Option Time} {deadline : Deadline}
    (h : c.wait wake deadline = (.ready, c')) :
    ∃ later, c.clock.wait wake deadline = (.ready, later) ∧
      c' = { c with clock := later, inlet := c.inlet.skip later.now } := by
  unfold wait at h
  split at h
  · rename_i later hw
    cases h
    exact ⟨later, hw, rfl⟩
  · rename_i hne _
    cases h
    exact (hne rfl).elim

theorem outlet_wait {c c' : Channel} {wake : Option Time} {deadline : Deadline} {ended : Wait}
    (h : c.wait wake deadline = (ended, c')) : c'.outlet = c.outlet := by
  unfold wait at h
  split at h <;> cases h <;> rfl

theorem bytes_wait {c c' : Channel} {wake : Option Time} {deadline : Deadline} {ended : Wait}
    (h : c.wait wake deadline = (ended, c')) : c'.inlet.bytes = c.inlet.bytes := by
  unfold wait at h
  split at h <;> cases h
  · exact Inlet.bytes_skip ..
  · rfl

/-- A flush leaves what was written, and keeps nothing back if it ends well. -/
theorem flush_eq {c c' : Channel} {deadline : Deadline} {outcome : Outcome String Unit}
    (h : c.flush deadline = (outcome, c')) :
    c'.inlet = c.inlet ∧ c'.outlet.written = c.outlet.written ∧
      ∀ done, outcome = .ok done → c'.outlet.buffer = [] := by
  unfold flush at h
  rcases hs : Outlet.settle c.clock deadline c.outlet.flush with ⟨settled, clock, outlet⟩
  rw [hs] at h
  cases h
  obtain ⟨rfl, hd⟩ := Outlet.settle_eq hs
  obtain ⟨hw, hb⟩ := Outlet.written_flush (o := c.outlet) rfl
  exact ⟨rfl, hw, fun _ he => hb (hd.1 he)⟩

/-- A write puts out a beginning of its bytes, and all of them if it ends well. -/
theorem push_eq {c c' : Channel} {deadline : Deadline} {bytes : Bytes}
    {outcome : Outcome String Unit} (h : c.push deadline bytes = (outcome, c')) :
    c'.inlet = c.inlet ∧ c.outlet.Puts bytes c'.outlet ∧
      ∀ done, outcome = .ok done → c'.outlet.written = c.outlet.written ++ bytes := by
  unfold push at h
  rcases hp : c.outlet.push bytes with ⟨pushed, outlet⟩
  rw [hp] at h
  rcases hs : Outlet.settle c.clock deadline (pushed, outlet) with ⟨settled, clock, o⟩
  rw [hs] at h
  cases h
  obtain ⟨rfl, hd⟩ := Outlet.settle_eq hs
  refine ⟨rfl, Outlet.puts_push hp, fun _ he => ?_⟩
  obtain rfl : pushed = .done := hd.1 he
  exact Outlet.written_push hp

/-- A write that does not end well puts out some of its bytes, and not all of them. -/
theorem stops_push {c c' : Channel} {deadline : Deadline} {bytes : Bytes}
    {outcome : Outcome String Unit} (h : c.push deadline bytes = (outcome, c'))
    (ho : outcome ≠ .ok ()) : c'.inlet = c.inlet ∧ c.outlet.Stops bytes c'.outlet := by
  unfold push at h
  rcases hp : c.outlet.push bytes with ⟨pushed, outlet⟩
  rw [hp] at h
  rcases hs : Outlet.settle c.clock deadline (pushed, outlet) with ⟨settled, clock, o⟩
  rw [hs] at h
  cases h
  obtain ⟨rfl, hd⟩ := Outlet.settle_eq hs
  exact ⟨rfl, Outlet.stops_push (fun he => ho (hd.2 he)) hp⟩

theorem exists_push {c : Channel} (deadline : Deadline) (bytes : Bytes) (ho : c.outlet.IsOpen) :
    ∃ c', c.push deadline bytes = (.ok (), c') ∧ c'.outlet.IsOpen := by
  obtain ⟨o, hp, ho'⟩ := ho.exists_push bytes
  exact ⟨{ c with outlet := o }, by rw [push, hp]; rfl, ho'⟩

theorem exists_flush {c : Channel} (deadline : Deadline) (ho : c.outlet.IsOpen) :
    ∃ c', c.flush deadline = (.ok (), c') ∧ c'.outlet.IsOpen := by
  obtain ⟨o, hf, ho'⟩ := ho.exists_flush
  exact ⟨{ c with outlet := o }, by rw [flush, hf]; rfl, ho'⟩

end Channel

namespace Transfer

/-! ## With the way out stuck -/

theorem outlet_sip {c c' : Channel} {room : Nat} {result : ReadResult}
    (h : sip c room = (result, c')) : c'.outlet = c.outlet := by
  unfold sip at h
  split at h <;> cases h <;> rfl

/-- Once the way out is stuck nothing is put out, and the transfer does not end well. -/
theorem lastLook_eq {c c' : Channel} {deadline : Deadline} {room : Nat}
    {outcome : Outcome String Nat} (h : lastLook c deadline room = (outcome, c')) :
    c'.outlet = c.outlet ∧ ∀ total, outcome ≠ .ok total := by
  unfold lastLook at h
  rcases hw : c.wait none deadline with ⟨ended, later⟩
  rw [hw] at h
  have ho := Channel.outlet_wait hw
  have hne : ∀ total, (if ended = .expired then .expired else .stalled : Outcome String Nat) ≠
      .ok total := by
    intro total
    split <;> nofun
  dsimp only at h
  split at h
  · cases h
    exact ⟨ho, hne⟩
  · split at h
    · rename_i hs
      cases h
      exact ⟨(outlet_sip hs).trans ho, nofun⟩
    · rename_i hs
      cases h
      exact ⟨(outlet_sip hs).trans ho, hne⟩
    · rename_i hs
      split at h
      · rename_i ht
        cases h
        exact ⟨(outlet_sip ht).trans ((outlet_sip hs).trans ho), nofun⟩
      · rename_i ht
        cases h
        exact ⟨(outlet_sip ht).trans ((outlet_sip hs).trans ho), hne⟩

theorem absorb_eq {c c' : Channel} {deadline : Deadline} {room : Nat} {stake : Option Nat}
    {outcome : Outcome String Nat} (h : absorb c deadline room stake = (outcome, c')) :
    c'.outlet = c.outlet ∧ ∀ total, outcome ≠ .ok total := by
  fun_induction absorb c deadline room stake with
  | case1 c room stake reason c₁ hs =>
    cases h
    exact ⟨outlet_sip hs, nofun⟩
  | case2 c room stake bytes c₁ hs =>
    have ho := outlet_sip hs
    obtain ⟨hl, hne⟩ := lastLook_eq h
    exact ⟨hl.trans ho, hne⟩
  | case3 c room stake wake c₁ hs c₂ hw =>
    have ho := outlet_sip hs
    cases h
    exact ⟨(Channel.outlet_wait hw).trans ho, nofun⟩
  | case4 c room stake wake c₁ hs c₂ hw =>
    have ho := outlet_sip hs
    cases h
    exact ⟨(Channel.outlet_wait hw).trans ho, nofun⟩
  | case5 c room stake wake c₁ hs c₂ hw reason c₃ ht =>
    have ho := outlet_sip hs
    have ho := (Channel.outlet_wait hw).trans ho
    cases h
    exact ⟨(outlet_sip ht).trans ho, nofun⟩
  | case6 c room stake wake c₁ hs c₂ hw bytes c₃ ht ih =>
    have ho := outlet_sip hs
    have ho := (Channel.outlet_wait hw).trans ho
    obtain ⟨ha, hne⟩ := ih h
    exact ⟨ha.trans ((outlet_sip ht).trans ho), hne⟩
  | case7 c room stake wake c₁ hs c₂ hw wake' c₃ ht ih =>
    have ho := outlet_sip hs
    have ho := (Channel.outlet_wait hw).trans ho
    obtain ⟨ha, hne⟩ := ih h
    exact ⟨ha.trans ((outlet_sip ht).trans ho), hne⟩

/-! ## With the way out open -/

/-- Letting go of what the way out keeps does not change what was written. -/
theorem written_release {unflushed : Bool} {o o' : Outlet} {answer : Except String Bool}
    (h : release unflushed o = (answer, o')) : o'.written = o.written := by
  unfold release at h
  split at h
  · split at h <;> rename_i hf <;> cases h <;> exact (Outlet.written_flush hf).1
  · cases h
    rfl

/-- As many of the bytes of the way in as there are up to the limit have been put out, and the way
out keeps none of them back. -/
structure Moves (c : Channel) (limit count : Nat) (c' : Channel) : Prop where
  bytes : c.inlet.bytes.take limit ++ c'.inlet.bytes = c.inlet.bytes
  written : c'.outlet.written = c.outlet.written ++ c.inlet.bytes.take limit
  buffer : c'.outlet.buffer = []
  count : count = (c.inlet.bytes.take limit).length

theorem moves_finish {c c' : Channel} {deadline : Deadline} {moved total limit : Nat}
    (hn : c.inlet.bytes.take limit = []) (h : finish c deadline moved = (.ok total, c')) :
    ∃ count, total = moved + count ∧ Moves c limit count c' := by
  unfold finish at h
  rcases hf : c.flush deadline with ⟨outcome, c₁⟩
  rw [hf] at h
  cases outcome <;> cases h
  obtain ⟨hi, hw, hb⟩ := Channel.flush_eq hf
  exact ⟨0, rfl, ⟨by rw [hn, hi, List.nil_append], by rw [hw, hn, List.append_nil], hb _ rfl,
    by rw [hn]; rfl⟩⟩

theorem puts_finish {c c' : Channel} {deadline : Deadline} {moved : Nat}
    {outcome : Outcome String Nat} (h : finish c deadline moved = (outcome, c')) (bytes : Bytes) :
    c.outlet.Puts bytes c'.outlet := by
  unfold finish at h
  rcases hf : c.flush deadline with ⟨flushed, c₁⟩
  rw [hf] at h
  cases h
  exact .of_eq (Channel.flush_eq hf).2.1 bytes

theorem inlet_finish {c c' : Channel} {deadline : Deadline} {moved : Nat}
    {outcome : Outcome String Nat} (h : finish c deadline moved = (outcome, c')) :
    c'.inlet = c.inlet := by
  unfold finish at h
  rcases hf : c.flush deadline with ⟨flushed, c₁⟩
  rw [hf] at h
  cases h
  exact (Channel.flush_eq hf).1

theorem take_append_of_le {seen rest : Bytes} {limit : Nat} (h : seen.length ≤ limit) :
    (seen ++ rest).take limit = seen ++ rest.take (limit - seen.length) := by
  rw [List.take_append, List.take_of_length_le h]

theorem Moves.of_eq {c c₁ c' : Channel} {limit count : Nat} (h : Moves c₁ limit count c')
    (hb : c₁.inlet.bytes = c.inlet.bytes) (hw : c₁.outlet.written = c.outlet.written) :
    Moves c limit count c' := by
  obtain ⟨hbytes, hwritten, hbuffer, hcount⟩ := h
  rw [hb] at hbytes hwritten hcount
  exact ⟨hbytes, hwritten.trans (congrArg (· ++ _) hw), hbuffer, hcount⟩

theorem Moves.append {c c' : Channel} {clock : Clock} {inlet : Inlet} {outlet : Outlet}
    {seen : Bytes} {limit count : Nat} (hl : seen.length ≤ limit)
    (hb : seen ++ inlet.bytes = c.inlet.bytes) (hw : outlet.written = c.outlet.written ++ seen)
    (h : Moves { clock, inlet, outlet } (limit - seen.length) count c') :
    Moves c limit (seen.length + count) c' := by
  obtain ⟨hbytes, hwritten, hbuffer, hcount⟩ := h
  have ht : c.inlet.bytes.take limit = seen ++ inlet.bytes.take (limit - seen.length) := by
    rw [← hb, take_append_of_le hl]
  refine ⟨?_, ?_, hbuffer, ?_⟩
  · rw [ht, List.append_assoc, hbytes, hb]
  · rw [hwritten, hw, ht, List.append_assoc]
  · rw [hcount, ht, List.length_append]

/-- No more is read at once than there is left to move. -/
theorem length_le_of_read {inlet inlet' : Inlet} {clock clock' : Clock} {remaining : Nat}
    {bytes : Bytes}
    (h : inlet.read .bytes clock (min bufferSize remaining) = (.data bytes, clock', inlet')) :
    bytes.length ≤ remaining := by
  have hl : bytes.length ≤ min bufferSize remaining := Inlet.length_read_le h
  exact Nat.le_trans hl (Nat.min_le_right ..)

/-- A transfer that ends well has moved everything that it was to move. -/
theorem moves_pump {c c' : Channel} {deadline : Deadline} {remaining moved total : Nat}
    {unflushed : Bool} {stake : Option Nat}
    (h : pump c deadline remaining moved unflushed stake = (.ok total, c')) :
    ∃ count, total = moved + count ∧ Moves c remaining count c' := by
  fun_induction pump c deadline remaining moved unflushed stake with
  | case1 c moved unflushed stake => exact moves_finish List.take_zero h
  | case6 c remaining moved unflushed stake hn wake clock inlet hr unflushed' outlet hrelease c₁ hw
      ih =>
    obtain ⟨count, ht, hm⟩ := ih h
    obtain ⟨later, -, rfl⟩ := Channel.wait_ready hw
    exact ⟨count, ht, hm.of_eq ((inlet.bytes_skip _).trans (Inlet.gives_read hr).bytes)
      (written_release hrelease)⟩
  | case7 c remaining moved unflushed stake hn bytes clock inlet hr he =>
    obtain rfl := List.isEmpty_iff.1 he
    have hnil : c.inlet.bytes = [] := (Inlet.end_of_read (min_bufferSize_ne_zero hn) hr).1
    have hb : inlet.bytes = c.inlet.bytes := (Inlet.gives_read hr).bytes
    have ht : inlet.bytes.take remaining = [] := by rw [hb, hnil, List.take_nil]
    obtain ⟨count, ht, hm⟩ := moves_finish ht h
    exact ⟨count, ht, hm.of_eq hb rfl⟩
  | case9 c remaining moved unflushed stake hn bytes clock inlet hr he outlet hp =>
    exact absurd rfl ((absorb_eq h).2 total)
  | case10 c remaining moved unflushed stake hn bytes clock inlet hr he outlet hp ih =>
    obtain ⟨count, rfl, hm⟩ := ih h
    have hl := length_le_of_read hr
    exact ⟨bytes.length + count, Nat.add_assoc ..,
      hm.append hl (Inlet.gives_read hr).bytes (Outlet.written_push hp)⟩
  | _ => cases h

/-- Whatever a transfer comes to, it has put out a beginning of what it was to move. -/
theorem puts_pump {c c' : Channel} {deadline : Deadline} {remaining moved : Nat} {unflushed : Bool}
    {stake : Option Nat} {outcome : Outcome String Nat}
    (h : pump c deadline remaining moved unflushed stake = (outcome, c')) :
    c.outlet.Puts (c.inlet.bytes.take remaining) c'.outlet := by
  fun_induction pump c deadline remaining moved unflushed stake with
  | case1 c moved unflushed stake => exact puts_finish h _
  | case2 c remaining moved unflushed stake hn reason clock inlet hr =>
    cases h
    exact .of_eq rfl _
  | case3 c remaining moved unflushed stake hn wake clock inlet hr reason outlet hrelease =>
    cases h
    exact .of_eq (written_release hrelease) _
  | case4 c remaining moved unflushed stake hn wake clock inlet hr unflushed' outlet hrelease c₁ hw
  | case5 c remaining moved unflushed stake hn wake clock inlet hr unflushed' outlet hrelease c₁
      hw =>
    cases h
    have ho := Channel.outlet_wait hw
    exact .of_eq (ho ▸ written_release hrelease) _
  | case6 c remaining moved unflushed stake hn wake clock inlet hr unflushed' outlet hrelease c₁ hw
      ih =>
    obtain ⟨put, hp, hput⟩ := ih h
    obtain ⟨later, -, rfl⟩ := Channel.wait_ready hw
    have hb : inlet.bytes = c.inlet.bytes := (Inlet.gives_read hr).bytes
    simp only [Channel.withClock, Inlet.bytes_skip, hb, written_release hrelease] at hp hput
    exact ⟨put, hp, hput⟩
  | case7 c remaining moved unflushed stake hn bytes clock inlet hr he => exact puts_finish h _
  | case8 c remaining moved unflushed stake hn bytes clock inlet hr he reason outlet hp =>
    cases h
    have hl := length_le_of_read hr
    apply (Outlet.puts_push hp).mono
    rw [← (Inlet.gives_read hr).bytes]
    exact take_append_of_le hl ▸ List.prefix_append ..
  | case9 c remaining moved unflushed stake hn bytes clock inlet hr he outlet hp =>
    have hl := length_le_of_read hr
    rw [(absorb_eq h).1]
    apply (Outlet.puts_push hp).mono
    rw [← (Inlet.gives_read hr).bytes]
    exact take_append_of_le hl ▸ List.prefix_append ..
  | case10 c remaining moved unflushed stake hn bytes clock inlet hr he outlet hp ih =>
    have hl := length_le_of_read hr
    have hb : bytes ++ inlet.bytes = c.inlet.bytes := (Inlet.gives_read hr).bytes
    rw [← hb, take_append_of_le hl]
    exact .append (Outlet.written_push hp) (ih h)

theorem finish_of_isOpen {c : Channel} (ho : c.outlet.IsOpen) (deadline : Deadline) (moved : Nat) :
    ∃ o, finish c deadline moved = (.ok moved, { c with outlet := o }) ∧ o.IsOpen ∧
      o.written = c.outlet.written := by
  obtain ⟨o, hf, ho'⟩ := ho.exists_flush
  exact ⟨o, by rw [finish, Channel.flush, hf]; rfl, ho', (Outlet.written_flush hf).1⟩

/-- A transfer from what is at hand to a sink that takes everything ends well. -/
theorem exists_pump {c : Channel} {deadline : Deadline} {remaining moved : Nat} {unflushed : Bool}
    {stake : Option Nat} (hi : c.inlet.AtHand) (ho : c.outlet.IsOpen) :
    ∃ total c', pump c deadline remaining moved unflushed stake = (.ok total, c') ∧
      c'.outlet.IsOpen := by
  fun_induction pump c deadline remaining moved unflushed stake with
  | case1 c moved unflushed stake =>
    obtain ⟨o, hfinish, ho', -⟩ := finish_of_isOpen ho deadline moved
    exact ⟨moved, _, hfinish, ho'⟩
  | case2 c remaining moved unflushed stake hn reason clock inlet hr
  | case3 c remaining moved unflushed stake hn wake clock inlet hr
  | case4 c remaining moved unflushed stake hn wake clock inlet hr
  | case5 c remaining moved unflushed stake hn wake clock inlet hr
  | case6 c remaining moved unflushed stake hn wake clock inlet hr =>
    obtain ⟨seen, hs⟩ := hi.exists_data (min_bufferSize_ne_zero hn) hr
    cases hs
  | case7 c remaining moved unflushed stake hn bytes clock inlet hr he =>
    obtain ⟨o, hfinish, ho', -⟩ := finish_of_isOpen (c := { c with clock, inlet }) ho deadline moved
    exact ⟨moved, _, hfinish, ho'⟩
  | case8 c remaining moved unflushed stake hn bytes clock inlet hr he reason outlet hp =>
    cases (ho.of_push hp).1
  | case9 c remaining moved unflushed stake hn bytes clock inlet hr he outlet hp =>
    cases (ho.of_push hp).1
  | case10 c remaining moved unflushed stake hn bytes clock inlet hr he outlet hp ih =>
    exact ih (hi.read hr) (ho.of_push hp).2

/-! ## What is taken -/

theorem append_bytes_sip {c c' : Channel} {room : Nat} {result : ReadResult}
    (h : sip c room = (result, c')) :
    result.bytes ++ c'.inlet.bytes = c.inlet.bytes ∧ result.bytes.length ≤ room := by
  unfold sip at h
  split at h
  · cases h
    exact ⟨rfl, Nat.zero_le _⟩
  · rcases hr : c.inlet.read .bytes c.clock room with ⟨read, clock, inlet⟩
    rw [hr] at h
    cases h
    exact ⟨Inlet.append_bytes_read hr, Inlet.length_read_le hr⟩

theorem draws_sip {c c' : Channel} {room : Nat} {result : ReadResult}
    (h : sip c room = (result, c')) : c.inlet.Draws room c'.inlet :=
  ⟨_, (append_bytes_sip h).2, (append_bytes_sip h).1⟩

theorem draws_lastLook {c c' : Channel} {deadline : Deadline} {room : Nat}
    {outcome : Outcome String Nat} (h : lastLook c deadline room = (outcome, c')) :
    c.inlet.Draws room c'.inlet := by
  unfold lastLook at h
  rcases hw : c.wait none deadline with ⟨ended, later⟩
  rw [hw] at h
  have hb := Channel.bytes_wait hw
  dsimp only at h
  split at h
  · cases h
    exact .of_eq hb _
  · split at h
    · rename_i hs
      have hd := draws_sip hs
      cases h
      exact .congr hb hd
    · rename_i hs
      have hd := draws_sip hs
      cases h
      exact .congr hb hd
    · rename_i bytes _ hs
      obtain ⟨hs, hl⟩ := append_bytes_sip hs
      split at h
      · rename_i ht
        have hd := draws_sip ht
        cases h
        exact .append hl (hs.trans hb) hd
      · rename_i ht
        have hd := draws_sip ht
        cases h
        exact .append hl (hs.trans hb) hd

theorem draws_absorb {c c' : Channel} {deadline : Deadline} {room : Nat} {stake : Option Nat}
    {outcome : Outcome String Nat} (h : absorb c deadline room stake = (outcome, c')) :
    c.inlet.Draws room c'.inlet := by
  fun_induction absorb c deadline room stake with
  | case1 c room stake reason c₁ hs =>
    cases h
    exact draws_sip hs
  | case2 c room stake bytes c₁ hs =>
    obtain ⟨hb, hl⟩ := append_bytes_sip hs
    have hd := draws_lastLook h
    exact .append hl hb hd
  | case3 c room stake wake c₁ hs c₂ hw =>
    cases h
    exact .of_eq ((Channel.bytes_wait hw).trans (append_bytes_sip hs).1) _
  | case4 c room stake wake c₁ hs c₂ hw =>
    cases h
    exact .of_eq ((Channel.bytes_wait hw).trans (append_bytes_sip hs).1) _
  | case5 c room stake wake c₁ hs c₂ hw reason c₃ ht =>
    have hb := (Channel.bytes_wait hw).trans (append_bytes_sip hs).1
    have hd := draws_sip ht
    cases h
    exact .congr hb hd
  | case6 c room stake wake c₁ hs c₂ hw bytes c₃ ht ih =>
    have hb := (Channel.bytes_wait hw).trans (append_bytes_sip hs).1
    obtain ⟨ht, hl⟩ := append_bytes_sip ht
    exact .append hl (ht.trans hb) (ih h)
  | case7 c room stake wake c₁ hs c₂ hw wake' c₃ ht ih =>
    have hb := (Channel.bytes_wait hw).trans (append_bytes_sip hs).1
    exact .congr ((append_bytes_sip ht).1.trans hb) (ih h)

/-- Whatever a transfer comes to, it has taken no more than it was to move. -/
theorem draws_pump {c c' : Channel} {deadline : Deadline} {remaining moved : Nat}
    {unflushed : Bool} {stake : Option Nat} {outcome : Outcome String Nat}
    (h : pump c deadline remaining moved unflushed stake = (outcome, c')) :
    c.inlet.Draws remaining c'.inlet := by
  fun_induction pump c deadline remaining moved unflushed stake with
  | case1 c moved unflushed stake => exact .of_eq (inlet_finish h ▸ rfl) _
  | case2 c remaining moved unflushed stake hn reason clock inlet hr
  | case3 c remaining moved unflushed stake hn wake clock inlet hr reason outlet hrelease =>
    cases h
    exact .of_eq (Inlet.append_bytes_read hr) _
  | case4 c remaining moved unflushed stake hn wake clock inlet hr unflushed' outlet hrelease c₁ hw
  | case5 c remaining moved unflushed stake hn wake clock inlet hr unflushed' outlet hrelease c₁
      hw =>
    cases h
    exact .of_eq ((Channel.bytes_wait hw).trans (Inlet.append_bytes_read hr)) _
  | case6 c remaining moved unflushed stake hn wake clock inlet hr unflushed' outlet hrelease c₁ hw
      ih =>
    have hb := (Channel.bytes_wait hw).trans (Inlet.append_bytes_read hr)
    exact .congr hb (ih h)
  | case7 c remaining moved unflushed stake hn bytes clock inlet hr he =>
    obtain rfl := List.isEmpty_iff.1 he
    rw [inlet_finish h]
    exact .of_eq (Inlet.append_bytes_read hr) _
  | case8 c remaining moved unflushed stake hn bytes clock inlet hr he reason outlet hp =>
    cases h
    have hl := length_le_of_read hr
    exact ⟨bytes, hl, Inlet.append_bytes_read hr⟩
  | case9 c remaining moved unflushed stake hn bytes clock inlet hr he outlet hp =>
    have hl : bytes.length ≤ min bufferSize remaining := Inlet.length_read_le hr
    have hd := Inlet.Draws.append hl (Inlet.append_bytes_read hr) (draws_absorb h)
    exact hd.mono (Nat.min_le_right ..)
  | case10 c remaining moved unflushed stake hn bytes clock inlet hr he outlet hp ih =>
    have hl := length_le_of_read hr
    exact .append hl (Inlet.append_bytes_read hr) (ih h)

/-! ## Whole transfers -/

theorem moves_run {c c' : Channel} {deadline : Deadline} {length total : Nat}
    (h : run c deadline length = (.ok total, c')) : Moves c length total c' := by
  obtain ⟨count, rfl, hm⟩ := moves_pump h
  rw [Nat.zero_add]
  exact hm.of_eq rfl rfl

theorem puts_run {c c' : Channel} {deadline : Deadline} {length : Nat}
    {outcome : Outcome String Nat} (h : run c deadline length = (outcome, c')) :
    c.outlet.Puts (c.inlet.bytes.take length) c'.outlet := by
  have hp := puts_pump h
  exact hp

theorem draws_run {c c' : Channel} {deadline : Deadline} {length : Nat}
    {outcome : Outcome String Nat} (h : run c deadline length = (outcome, c')) :
    c.inlet.Draws length c'.inlet := by
  have hd := draws_pump h
  exact hd

theorem exists_run {c : Channel} (deadline : Deadline) (length : Nat) (hi : c.inlet.AtHand)
    (ho : c.outlet.IsOpen) :
    ∃ total c', run c deadline length = (.ok total, c') ∧ c'.outlet.IsOpen :=
  exists_pump hi ho

end Transfer

end Courier
