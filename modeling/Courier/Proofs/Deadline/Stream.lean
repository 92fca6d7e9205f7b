import Courier.Proofs.Transfer

/-!
# Streams before a deadline

An operation that is given a deadline is over when that moment comes, or at once if the moment has
passed when it begins. It does not wait forever, and it does not say that its time was over while it
was not (`Outcome.Meets`). It does not matter in how many pieces the bytes come and how long the
pauses between them are: no wait inside an operation reaches beyond the one deadline
(`Clock.keeps_wait`), and what the operation does between two waits takes no time.

`meets_gather` and `meets_settle` are about the ends of a stream, `meets_run` about a transfer from
one to the other.
-/

namespace Courier

namespace Deadline

theorem passed_some_iff {moment now : Time} : passed (some moment) now = true ↔ moment ≤ now :=
  decide_eq_true_iff

theorem earliest_comm (a b : Deadline) : a.earliest b = b.earliest a := by
  cases a <;> cases b <;> first | rfl | exact congrArg some (Nat.min_comm ..)

end Deadline

namespace Clock

/-- Somebody is there until the moment at least. -/
def Outlasts (clock : Clock) (moment : Time) : Prop :=
  ∀ last ∈ clock.horizon, moment ≤ last

theorem Outlasts.mono {clock : Clock} {moment early : Time} (h : clock.Outlasts moment)
    (he : early ≤ moment) : clock.Outlasts early :=
  fun last hl => Nat.le_trans he (h last hl)

/-- No time passes. -/
structure Still (clock later : Clock) : Prop where
  now : later.now = clock.now
  horizon : later.horizon = clock.horizon

theorem Still.trans {clock later last : Clock} (h : Still clock later) (h' : Still later last) :
    Still clock last :=
  ⟨h'.now.trans h.now, h'.horizon.trans h.horizon⟩

/-- No time passes beyond the moment. -/
structure Keeps (moment : Time) (clock later : Clock) : Prop where
  now : later.now ≤ max clock.now moment
  horizon : later.horizon = clock.horizon

theorem Still.keeps {clock later : Clock} (h : Still clock later) (moment : Time) :
    Keeps moment clock later :=
  ⟨h.now ▸ Nat.le_max_left .., h.horizon⟩

namespace Keeps

variable {moment : Time} {clock later last : Clock}

theorem trans (h : Keeps moment clock later) (h' : Keeps moment later last) :
    Keeps moment clock last :=
  ⟨Nat.le_trans h'.now (Nat.max_le.2 ⟨h.now, Nat.le_max_right ..⟩),
    h'.horizon.trans h.horizon⟩

theorem mono {early : Time} (h : Keeps early clock later) (he : early ≤ moment) :
    Keeps moment clock later :=
  ⟨Nat.le_trans h.now (Nat.max_le.2 ⟨Nat.le_max_left .., Nat.le_trans he (Nat.le_max_right ..)⟩),
    h.horizon⟩

theorem outlasts (h : Keeps moment clock later) (ho : clock.Outlasts moment) :
    later.Outlasts moment := by
  unfold Outlasts
  rwa [h.horizon]

end Keeps

theorem still_look (clock : Clock) : Still clock clock.look :=
  ⟨rfl, rfl⟩

theorem still_giveBack (clock : Clock) (stake : Option Nat) :
    Still clock (clock.giveBack stake) := by
  cases stake <;> exact ⟨rfl, rfl⟩

theorem still_begin (clock : Clock) : Still clock clock.begin :=
  ⟨clock.now_begin, clock.horizon_begin⟩

/-- What a wait ends with does not depend on the looks that are left. -/
theorem fst_wait_of_still {clock waiting : Clock} (hs : clock.Still waiting) (wake : Option Time)
    (deadline : Deadline) : (waiting.wait wake deadline).1 = (clock.wait wake deadline).1 := by
  simp only [wait, verdict, hs.now, hs.horizon]
  split_ifs
  · rfl
  · rfl
  · cases Deadline.earliest wake (deadline.earliest clock.horizon) <;> rfl

theorem wait_of_still {clock waiting later : Clock} {wake : Option Time} {deadline : Deadline}
    (hs : clock.Still waiting) (hw : waiting.wait wake deadline = (.ready, later)) :
    clock.wait wake deadline = (.ready, later) := by
  unfold wait at hw ⊢
  rw [hs.now, hs.horizon] at hw
  split_ifs at hw ⊢
  · cases hw
  · cases hw
  · cases he : Deadline.earliest wake (deadline.earliest clock.horizon) with
    | none =>
      rw [he] at hw
      cases hw
    | some moment =>
      rw [he] at hw
      simpa only [nextTurn, look, verdict, hs.horizon] using hw

/-- A wait is over at its deadline, and not without what was waited for before it. -/
theorem keeps_wait {clock later : Clock} {wake : Option Time} {moment : Time} {ended : Wait}
    (ho : clock.Outlasts moment) (h : clock.wait wake (some moment) = (ended, later)) :
    Keeps moment clock later ∧ ended ≠ .stalled ∧ (ended = .expired → moment ≤ later.now) := by
  have hearliest : (Deadline.earliest (some moment) clock.horizon) = some moment := by
    cases hh : clock.horizon with
    | none => rfl
    | some last => exact congrArg some (Nat.min_eq_left (ho last hh))
  unfold wait at h
  rw [hearliest] at h
  split_ifs at h with hp hl
  · cases h
    exact ⟨(still_look clock).keeps moment, by rintro ⟨⟩, fun _ => of_decide_eq_true hp⟩
  · -- The deadline has not passed, so somebody is still there.
    cases hh : clock.horizon with
    | none =>
      rw [hh] at hl
      cases hl
    | some last =>
      rw [hh] at hl
      exact absurd (decide_eq_true (Nat.le_trans (ho last hh) (of_decide_eq_true hl))) hp
  · cases wake with
    | none =>
      cases h
      have hv : moment ≤ max clock.now moment := Nat.le_max_right ..
      simp only [verdict, Deadline.passed, look, nextTurn, decide_eq_true hv]
      exact ⟨⟨Nat.le_refl _, rfl⟩, by rintro ⟨⟩, fun _ => hv⟩
    | some wake =>
      cases h
      simp only [verdict, Deadline.passed, look, nextTurn, decide_eq_true_eq]
      refine ⟨⟨Nat.max_le.2 ⟨Nat.le_max_left .., ?_⟩, rfl⟩, ?_⟩
      · exact Nat.le_trans (Nat.min_le_right ..) (Nat.le_max_right ..)
      · split_ifs with hw hd
        · exact ⟨by rintro ⟨⟩, by rintro ⟨⟩⟩
        · exact ⟨by rintro ⟨⟩, fun _ => hd⟩
        · -- The wait is as long as the shorter of the two.
          have hle : min wake moment ≤ max clock.now (min wake moment) := Nat.le_max_right ..
          rcases Nat.le_total wake moment with hm | hm
          · exact absurd (Nat.le_trans (Nat.min_eq_left hm).ge hle) hw
          · exact absurd (Nat.le_trans (Nat.min_eq_right hm).ge hle) hd

end Clock

/-- An operation is over by the moment, or as soon as it has begun, and does not end for the want of
time before the moment. -/
structure Outcome.Meets {ε α : Type} (outcome : Outcome ε α) (moment : Time) (clock later : Clock) :
    Prop extends Clock.Keeps moment clock later where
  ends : outcome ≠ .stalled
  expired : outcome = .expired → moment ≤ later.now

namespace Outcome.Meets

variable {ε ε' α β : Type} {outcome : Outcome ε α} {moment : Time} {clock later last : Clock}

theorem ok (value : α) (h : Clock.Keeps moment clock later) :
    (Outcome.ok value : Outcome ε α).Meets moment clock later :=
  ⟨h, by rintro ⟨⟩, by rintro ⟨⟩⟩

theorem error (error : ε) (h : Clock.Keeps moment clock later) :
    (Outcome.error error : Outcome ε α).Meets moment clock later :=
  ⟨h, by rintro ⟨⟩, by rintro ⟨⟩⟩

/-- Nothing came by the moment. -/
theorem of_le (h : Clock.Keeps moment clock later) (hl : moment ≤ later.now) :
    (Outcome.expired : Outcome ε α).Meets moment clock later :=
  ⟨h, by rintro ⟨⟩, fun _ => hl⟩

/-- What was done before takes from the same time. -/
theorem after (h : Clock.Keeps moment clock later) (h' : outcome.Meets moment later last) :
    outcome.Meets moment clock last :=
  ⟨h.trans h'.toKeeps, h'.ends, h'.expired⟩

theorem map (h : outcome.Meets moment clock later) (f : α → β) :
    (outcome.map f).Meets moment clock later where
  toKeeps := h.toKeeps
  ends he := by
    cases outcome <;> cases he
    exact h.ends rfl
  expired he := by
    cases outcome <;> cases he
    exact h.expired rfl

theorem mapError (h : outcome.Meets moment clock later) (f : ε → ε') :
    (outcome.mapError f).Meets moment clock later where
  toKeeps := h.toKeeps
  ends he := by
    cases outcome <;> cases he
    exact h.ends rfl
  expired he := by
    cases outcome <;> cases he
    exact h.expired rfl

end Outcome.Meets

namespace Inlet

variable {i i' : Inlet} {clock clock' : Clock} {moment : Time} {limit : Nat} {wanted : Wanted}

/-! ## The way in -/

theorem still_load {room : Nat} {result : ReadResult}
    (h : i.load clock room = (result, clock', i')) : clock.Still clock' := by
  unfold load at h
  split at h
  · rcases hr : i.source.read clock room with ⟨shown, clock₁, source⟩
    obtain ⟨-, hn, hh, -⟩ := Source.read_keeps hr
    rw [hr] at h
    cases h
    exact ⟨hn, hh⟩
  · cases h
    exact ⟨rfl, rfl⟩

theorem still_read {result : ReadResult} (h : i.read wanted clock limit = (result, clock', i')) :
    clock.Still clock' := by
  obtain ⟨shown, loaded, hl, -, -⟩ := exists_load_of_read h
  exact still_load hl

theorem meets_gather {outcome : Outcome String Bytes} (ho : clock.Outlasts moment)
    (h : gather wanted i clock (some moment) limit = (outcome, clock', i')) :
    outcome.Meets moment clock clock' := by
  fun_induction gather wanted i clock (some moment) limit generalizing outcome clock' i' with
  | case1 i clock =>
    cases h
    exact .ok _ (Clock.Still.keeps ⟨rfl, rfl⟩ _)
  | case2 i clock limit hl reason clock₁ i₁ hr =>
    cases h
    exact .error _ ((still_read hr).keeps moment)
  | case3 i clock limit hl wake clock₁ i₁ hr later hw ih =>
    have hk := (still_read hr).keeps moment
    obtain ⟨hkw, -, -⟩ := Clock.keeps_wait (hk.outlasts ho) hw
    exact .after (hk.trans hkw) (ih ((hk.trans hkw).outlasts ho) h)
  | case4 i clock limit hl wake clock₁ i₁ hr later hw =>
    have hk := (still_read hr).keeps moment
    obtain ⟨hkw, -, he⟩ := Clock.keeps_wait (hk.outlasts ho) hw
    cases h
    exact .of_le (hk.trans hkw) (he rfl)
  | case5 i clock limit hl wake clock₁ i₁ hr later hw =>
    obtain ⟨-, hs, -⟩ := Clock.keeps_wait (((still_read hr).keeps moment).outlasts ho) hw
    exact absurd rfl hs
  | case6 i clock limit hl seen clock₁ i₁ hr he =>
    cases h
    exact .ok _ ((still_read hr).keeps moment)
  | case7 i clock limit hl seen clock₁ i₁ hr he outcome clock₂ i₂ hn ih =>
    have hk := (still_read hr).keeps moment
    cases h
    exact .after hk ((ih (hk.outlasts ho) hn).map _)

end Inlet

/-! ## The way out -/

theorem Outlet.meets_settle {clock clock' : Clock} {moment : Time} {step : Pushed × Outlet}
    {outcome : Outcome String Unit} {o : Outlet} (ho : clock.Outlasts moment)
    (h : settle clock (some moment) step = (outcome, clock', o)) :
    outcome.Meets moment clock clock' := by
  unfold settle at h
  split at h
  · cases h
    exact .ok _ (Clock.Still.keeps ⟨rfl, rfl⟩ _)
  · cases h
    exact .error _ (Clock.Still.keeps ⟨rfl, rfl⟩ _)
  · rcases hw : clock.wait none (some moment) with ⟨ended, later⟩
    obtain ⟨hk, hs, he⟩ := Clock.keeps_wait ho hw
    rw [hw] at h
    cases ended with
    | expired =>
      cases h
      exact .of_le hk (he rfl)
    | stalled => exact absurd rfl hs
    | ready =>
      obtain ⟨_, hn, -⟩ := Clock.wake_le_of_ready hw
      cases hn

namespace Channel

variable {c c' : Channel} {moment : Time}

theorem meets_push {bytes : Bytes} {outcome : Outcome String Unit} (ho : c.clock.Outlasts moment)
    (h : c.push (some moment) bytes = (outcome, c')) : outcome.Meets moment c.clock c'.clock := by
  unfold push at h
  rcases hs : Outlet.settle c.clock (some moment) (c.outlet.push bytes) with ⟨settled, clock, o⟩
  rw [hs] at h
  cases h
  exact Outlet.meets_settle ho hs

theorem meets_flush {outcome : Outcome String Unit} (ho : c.clock.Outlasts moment)
    (h : c.flush (some moment) = (outcome, c')) : outcome.Meets moment c.clock c'.clock := by
  unfold flush at h
  rcases hs : Outlet.settle c.clock (some moment) c.outlet.flush with ⟨settled, clock, o⟩
  rw [hs] at h
  cases h
  exact Outlet.meets_settle ho hs

theorem keeps_wait {wake : Option Time} {ended : Wait} (ho : c.clock.Outlasts moment)
    (h : c.wait wake (some moment) = (ended, c')) :
    Clock.Keeps moment c.clock c'.clock ∧ ended ≠ .stalled ∧
      (ended = .expired → moment ≤ c'.clock.now) := by
  unfold wait at h
  split at h
  · rename_i hw
    cases h
    exact Clock.keeps_wait ho hw
  · rename_i hw
    cases h
    exact Clock.keeps_wait ho hw

/-- A wait after something that took no time. -/
theorem keeps_wait_giveBack {before : Clock} {stake : Option Nat} {wake : Option Time}
    {ended : Wait} (ho : before.Outlasts moment) (hs : before.Still c.clock)
    (h : (c.withClock (·.giveBack stake)).wait wake (some moment) = (ended, c')) :
    Clock.Keeps moment before c'.clock ∧ ended ≠ .stalled ∧
      (ended = .expired → moment ≤ c'.clock.now) := by
  have hk := (hs.trans (c.clock.still_giveBack stake)).keeps moment
  obtain ⟨hkw, hrest⟩ := keeps_wait (hk.outlasts ho) h
  exact ⟨hk.trans hkw, hrest⟩

end Channel

namespace Transfer

variable {c c' : Channel} {moment : Time} {room : Nat}

/-! ## Transfers -/

theorem still_sip {result : ReadResult} (h : sip c room = (result, c')) :
    c.clock.Still c'.clock := by
  unfold sip at h
  split at h
  · cases h
    exact ⟨rfl, rfl⟩
  · rcases hr : c.inlet.read .bytes c.clock room with ⟨read, clock, inlet⟩
    rw [hr] at h
    cases h
    exact Inlet.still_read hr

theorem still_sip_withClock {f : Clock → Clock} {result : ReadResult}
    (hf : c.clock.Still (f c.clock)) (h : sip (c.withClock f) room = (result, c')) :
    c.clock.Still c'.clock := by
  have hs := still_sip h
  exact hf.trans hs

/-- Once the way out is stuck the transfer lasts until its deadline, and no longer. -/
theorem meets_lastLook {outcome : Outcome String Nat} (ho : c.clock.Outlasts moment)
    (h : lastLook c (some moment) room = (outcome, c')) :
    outcome.Meets moment c.clock c'.clock := by
  unfold lastLook at h
  rcases hw : c.wait none (some moment) with ⟨ended, later⟩
  obtain ⟨hk, hs, he⟩ := Channel.keeps_wait ho hw
  obtain rfl : ended = .expired := by
    cases ended with
    | expired => rfl
    | stalled => exact absurd rfl hs
    | ready =>
      obtain ⟨_, hr, -⟩ := Channel.wait_ready hw
      obtain ⟨_, hn, -⟩ := Clock.wake_le_of_ready hr
      cases hn
  -- What is looked at after the wait takes no time, so the moment has come at the end as well.
  have hlast : ∀ last : Channel, later.clock.Still last.clock →
      (Outcome.expired : Outcome String Nat).Meets moment c.clock last.clock :=
    fun last hl => .of_le (hk.trans (hl.keeps moment)) (hl.now ▸ he rfl)
  rw [hw] at h
  simp only [if_true] at h
  split_ifs at h with hn
  · cases h
    exact hlast _ ⟨rfl, rfl⟩
  · split at h
    · rename_i hs
      cases h
      have hq : later.clock.Still c'.clock := still_sip_withClock ⟨rfl, rfl⟩ hs
      exact .error _ (hk.trans (hq.keeps moment))
    · rename_i hs
      cases h
      have hq : later.clock.Still _ := still_sip_withClock ⟨rfl, rfl⟩ hs
      exact hlast _ ⟨hq.now, hq.horizon⟩
    · rename_i bytes second hs
      have hq : later.clock.Still second.clock := still_sip_withClock ⟨rfl, rfl⟩ hs
      split at h
      · rename_i ht
        cases h
        exact .error _ (hk.trans ((hq.trans (still_sip ht)).keeps moment))
      · rename_i ht
        cases h
        have hq := hq.trans (still_sip ht)
        exact hlast _ ⟨hq.now, hq.horizon⟩

theorem meets_absorb {stake : Option Nat} {outcome : Outcome String Nat}
    (ho : c.clock.Outlasts moment) (h : absorb c (some moment) room stake = (outcome, c')) :
    outcome.Meets moment c.clock c'.clock := by
  fun_induction absorb c (some moment) room stake with
  | case1 c room stake reason c₁ hs =>
    cases h
    exact .error _ ((still_sip hs).keeps moment)
  | case2 c room stake bytes c₁ hs =>
    have hk : Clock.Keeps moment c.clock (c₁.clock.giveBack stake) :=
      ((still_sip hs).trans (Clock.still_giveBack ..)).keeps moment
    exact .after hk (meets_lastLook (hk.outlasts ho) h)
  | case3 c room stake wake c₁ hs c₂ hw =>
    obtain ⟨hk, -, he⟩ := Channel.keeps_wait_giveBack ho (still_sip hs) hw
    cases h
    exact .of_le hk (he rfl)
  | case4 c room stake wake c₁ hs c₂ hw =>
    exact absurd rfl (Channel.keeps_wait_giveBack ho (still_sip hs) hw).2.1
  | case5 c room stake wake c₁ hs c₂ hw reason c₃ ht =>
    obtain ⟨hk, -, -⟩ := Channel.keeps_wait_giveBack ho (still_sip hs) hw
    have hq := still_sip_withClock (Clock.still_look _) ht
    cases h
    exact .error _ (hk.trans (hq.keeps moment))
  | case6 c room stake wake c₁ hs c₂ hw bytes c₃ ht ih =>
    obtain ⟨hk, -, -⟩ := Channel.keeps_wait_giveBack ho (still_sip hs) hw
    have hk := hk.trans ((still_sip_withClock (Clock.still_look _) ht).keeps moment)
    exact .after hk (ih (hk.outlasts ho) h)
  | case7 c room stake wake c₁ hs c₂ hw wake' c₃ ht ih =>
    obtain ⟨hk, -, -⟩ := Channel.keeps_wait_giveBack ho (still_sip hs) hw
    have hk := hk.trans ((still_sip_withClock (Clock.still_look _) ht).keeps moment)
    exact .after hk (ih (hk.outlasts ho) h)

theorem meets_finish {moved : Nat} {outcome : Outcome String Nat} (ho : c.clock.Outlasts moment)
    (h : finish c (some moment) moved = (outcome, c')) :
    outcome.Meets moment c.clock c'.clock := by
  unfold finish at h
  rcases hf : c.flush (some moment) with ⟨flushed, c₁⟩
  rw [hf] at h
  cases h
  exact (Channel.meets_flush ho hf).map _

theorem meets_pump {remaining moved : Nat} {unflushed : Bool} {stake : Option Nat}
    {outcome : Outcome String Nat} (ho : c.clock.Outlasts moment)
    (h : pump c (some moment) remaining moved unflushed stake = (outcome, c')) :
    outcome.Meets moment c.clock c'.clock := by
  fun_induction pump c (some moment) remaining moved unflushed stake with
  | case1 c moved unflushed stake =>
    exact meets_finish ho h
  | case2 c remaining moved unflushed stake hn reason clock inlet hr =>
    cases h
    exact .error _ ((Inlet.still_read hr).keeps moment)
  | case3 c remaining moved unflushed stake hn wake clock inlet hr reason outlet hrelease =>
    cases h
    exact .error _ ((Inlet.still_read hr).keeps moment)
  | case4 c remaining moved unflushed stake hn wake clock inlet hr kept outlet hrelease c₁ hw =>
    obtain ⟨hk, -, he⟩ :=
      Channel.keeps_wait_giveBack (c := ⟨clock, inlet, outlet⟩) ho (Inlet.still_read hr) hw
    cases h
    exact .of_le hk (he rfl)
  | case5 c remaining moved unflushed stake hn wake clock inlet hr kept outlet hrelease c₁ hw =>
    obtain ⟨-, hstalled, -⟩ :=
      Channel.keeps_wait_giveBack (c := ⟨clock, inlet, outlet⟩) ho (Inlet.still_read hr) hw
    exact absurd rfl hstalled
  | case6 c remaining moved unflushed stake hn wake clock inlet hr kept outlet hrelease c₁ hw ih =>
    obtain ⟨hk, -, -⟩ :=
      Channel.keeps_wait_giveBack (c := ⟨clock, inlet, outlet⟩) ho (Inlet.still_read hr) hw
    have hk : Clock.Keeps moment c.clock (c₁.withClock (·.look)).clock :=
      hk.trans ((Clock.still_look _).keeps moment)
    exact .after hk (ih (hk.outlasts ho) h)
  | case7 c remaining moved unflushed stake hn bytes clock inlet hr he =>
    have hk := (Inlet.still_read hr).keeps moment
    exact .after hk (meets_finish (hk.outlasts ho) h)
  | case8 c remaining moved unflushed stake hn bytes clock inlet hr he reason outlet hp =>
    cases h
    exact .error _ ((Inlet.still_read hr).keeps moment)
  | case9 c remaining moved unflushed stake hn bytes clock inlet hr he outlet hp =>
    have hk := (Inlet.still_read hr).keeps moment
    exact .after hk (meets_absorb (hk.outlasts ho) h)
  | case10 c remaining moved unflushed stake hn bytes clock inlet hr he outlet hp ih =>
    have hk := (Inlet.still_read hr).keeps moment
    exact .after hk (ih (hk.outlasts ho) h)

/-- A transfer is over at its deadline, whatever either end of it does. -/
theorem meets_run {length : Nat} {outcome : Outcome String Nat} (ho : c.clock.Outlasts moment)
    (h : run c (some moment) length = (outcome, c')) : outcome.Meets moment c.clock c'.clock := by
  have hk : Clock.Keeps moment c.clock c.clock.begin.look :=
    ((Clock.still_begin _).trans (Clock.still_look _)).keeps moment
  exact .after hk (meets_pump (hk.outlasts ho) h)

end Transfer

end Courier
