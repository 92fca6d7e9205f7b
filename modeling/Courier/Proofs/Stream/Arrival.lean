import Courier.Proofs.Deadline.Stream
import Courier.Proofs.Stream.Behind
import Mathlib.Data.Nat.Find

/-!
# When bytes come

`Inlet.due` is the moment at which a number of bytes are there, and `Inlet.ArrivesBy` says that they
come in time: before the deadline, or at the deadline if no more pauses end at that very moment than
a turn has looks for. Neither reads nor waits change that (`Inlet.awaits_read`,
`Inlet.awaits_read_skip`). Not every operation has all the looks of a turn for its reads; of one
that has them `Inlet.Arrives` speaks.

An operation that waits for a number of bytes takes those of them that come in time
(`Inlet.reach`), and ends as the stream does or for the want of time (`Inlet.Fetches`). The rules in
`Inlet.Fetches` follow the loop of such an operation; `Inlet.readUpTo` is one
(`Inlet.fetches_readUpTo`).
-/

namespace Courier

/-- How an operation ends that waited in vain. -/
def Wait.outcome {ε α : Type} : Wait → Outcome ε α
  | expired => .expired
  | ready | stalled => .stalled

namespace Clock

variable {clock later : Clock} {deadline : Deadline} {wake : Time}

theorem verdict_eq_ready_iff :
    clock.verdict (some wake) deadline = .ready ↔ wake ≤ clock.now := by
  simp only [verdict, Deadline.passed, decide_eq_true_eq]
  split_ifs <;> simp_all

/-- A wait ends with what it waits for unless time is over by then, or was over before. -/
theorem ready_iff :
    (clock.wait (some wake) deadline).1 = .ready ↔
      ∀ moment ∈ deadline.earliest clock.horizon, clock.now < moment ∧ wake ≤ moment := by
  have hp := Deadline.passed_earliest deadline clock.horizon clock.now
  unfold wait
  cases hl : deadline.earliest clock.horizon with
  | none =>
    rw [hl, Deadline.passed, eq_comm, Bool.or_eq_false_iff] at hp
    rw [hp.1, hp.2]
    simp [Deadline.earliest, verdict_eq_ready_iff]
  | some moment =>
    rw [hl, Deadline.passed] at hp
    simp only [Option.mem_some_iff, forall_eq']
    split_ifs with hd hh
    · simp_all
    · simp_all
    · have hnow : clock.now < moment := by simp_all
      simp only [Deadline.earliest, verdict_eq_ready_iff]
      grind

theorem looks_of_ready {wake : Option Time} (h : clock.wait wake deadline = (.ready, later)) :
    later.looks = turn - 1 := by
  unfold wait at h
  split_ifs at h
  · cases h
  · cases h
  · split at h
    · cases h
    · obtain ⟨-, rfl⟩ := Prod.mk.inj h
      rfl

/-- A wait that does not end with what it waits for ends as if there were nothing to wait for. -/
theorem fst_wait_none (hw : (clock.wait (some wake) deadline).1 ≠ .ready) :
    (clock.wait none deadline).1 = (clock.wait (some wake) deadline).1 := by
  unfold wait at hw ⊢
  split_ifs at hw ⊢
  · rfl
  · rfl
  · cases hl : deadline.earliest clock.horizon with
    | none =>
      rw [hl] at hw
      simp only [Deadline.earliest, ne_eq, verdict_eq_ready_iff] at hw
      exact absurd (Nat.le_max_right ..) hw
    | some moment =>
      rw [hl] at hw
      simp only [Deadline.earliest, ne_eq, verdict_eq_ready_iff] at hw ⊢
      have hlate : ¬wake ≤ max clock.now (min wake moment) := hw
      have hmin : min wake moment = moment := by grind
      rw [hmin] at hlate
      simp only [verdict, Deadline.passed, hmin, decide_eq_true_eq, if_neg hlate]
      rfl

/-- How an operation would end for the want of time does not change while it waits. -/
theorem fst_wait_none_of_ready (hw : clock.wait (some wake) deadline = (.ready, later)) :
    (later.wait none deadline).1 = (clock.wait none deadline).1 := by
  obtain ⟨hnow, hh⟩ := Clock.now_of_ready hw
  have hr := Clock.ready_iff.1 (congrArg Prod.fst hw)
  unfold wait
  rw [hh]
  cases deadline <;> cases hz : clock.horizon <;>
    simp only [hz, hnow, Deadline.earliest, Deadline.passed, verdict, nextTurn, Option.mem_some_iff,
      forall_eq', decide_eq_true_eq, Bool.false_eq_true, if_false] at hr ⊢
  · grind
  · grind
  · grind

/-- An operation whose time is over has reached its deadline. -/
theorem passed_of_expired {wake : Option Time}
    (hw : clock.wait wake deadline = (.expired, later)) : deadline.passed later.now = true := by
  unfold wait at hw
  split_ifs at hw with hp
  · cases hw
    exact hp
  · cases hw
  · split at hw
    · cases hw
    · obtain ⟨hv, rfl⟩ := Prod.mk.inj hw
      unfold verdict at hv
      split_ifs at hv with _ hd
      exact hd

end Clock

namespace Piece

variable {turn : Nat}

/-- The parts up to the one with the `n`-th byte; all of them if they have fewer. -/
def upTo (n : Nat) : List Piece → List Piece
  | [] => []
  | piece :: rest => if n = 0 then [] else piece :: upTo (n - piece.content.length) rest

/-- The number of pauses that end at the moment or later. -/
def stops (moment now : Time) : List Piece → Nat
  | [] => 0
  | chunk _ :: rest => stops moment now rest
  | pause length :: rest =>
    (if moment ≤ now + length then 1 else 0) + stops moment (now + length) rest
  | notBefore wake :: rest =>
    (if moment ≤ max now wake then 1 else 0) + stops moment (max now wake) rest

/-- The moment at which `n` bytes are there, or all that there are. -/
def due (n : Nat) (now : Time) (pieces : List Piece) : Time :=
  settled now (upTo n pieces)

/-- What `due` speaks of comes before the time is over, or when it is over but with no more pauses
at that moment than there are looks for, if a turn that begins with a wait has `turn` of them. What
is there already comes in time. -/
def ArrivesBy (turn n : Nat) (clock : Clock) (limit : Deadline) (pieces : List Piece) : Prop :=
  ∀ moment ∈ limit, due n clock.now pieces ≤ max clock.now moment ∧
    stops moment clock.now (upTo n pieces) ≤ if clock.now < moment then turn else clock.looks

theorem upTo_zero (pieces : List Piece) : upTo 0 pieces = [] := by
  cases pieces <;> rfl

theorem upTo_cons {n : Nat} (hn : n ≠ 0) (piece : Piece) (rest : List Piece) :
    upTo n (piece :: rest) = piece :: upTo (n - piece.content.length) rest := by
  rw [upTo, if_neg hn]

/-- Nothing ends at a moment that comes after all of the parts. -/
theorem stops_eq_zero {moment now : Time} {pieces : List Piece} (h : settled now pieces < moment) :
    stops moment now pieces = 0 := by
  induction pieces generalizing now with
  | nil => rfl
  | cons piece rest ih =>
    cases piece with
    | chunk bytes => exact ih h
    | pause length =>
      have hlt := Nat.lt_of_le_of_lt (le_settled (now + length) rest) h
      rw [stops, if_neg (Nat.not_le_of_lt hlt), ih h]
    | notBefore wake =>
      have hlt := Nat.lt_of_le_of_lt (le_settled (max now wake) rest) h
      rw [stops, if_neg (Nat.not_le_of_lt hlt), ih h]

theorem upTo_isPrefix {m n : Nat} (h : m ≤ n) (pieces : List Piece) :
    upTo m pieces <+: upTo n pieces := by
  induction pieces generalizing m n with
  | nil => exact List.prefix_rfl
  | cons piece rest ih =>
    rcases Nat.eq_zero_or_pos m with rfl | hm
    · rw [upTo_zero]
      exact List.nil_prefix
    · rw [upTo_cons (Nat.ne_of_gt hm), upTo_cons (Nat.ne_of_gt (Nat.lt_of_lt_of_le hm h))]
      exact List.prefix_cons_inj piece |>.2 (ih (Nat.sub_le_sub_right h _))

/-- More parts are there no earlier, and have no fewer pauses among them. -/
theorem settled_stops_mono {early late : List Piece} (h : early <+: late) (moment now : Time) :
    settled now early ≤ settled now late ∧ stops moment now early ≤ stops moment now late := by
  induction early generalizing late now with
  | nil => exact ⟨le_settled .., Nat.zero_le _⟩
  | cons piece early ih =>
    obtain ⟨more, rfl⟩ := h
    have hrest := fun now => ih (List.prefix_append early more) now
    cases piece with
    | chunk bytes => exact hrest now
    | pause length => exact ⟨(hrest _).1, Nat.add_le_add_left (hrest _).2 _⟩
    | notBefore wake => exact ⟨(hrest _).1, Nat.add_le_add_left (hrest _).2 _⟩

/-- What comes in time has its beginning come in time. -/
theorem ArrivesBy.mono {m n : Nat} {clock : Clock} {limit : Deadline} {pieces : List Piece}
    (h : ArrivesBy turn n clock limit pieces) (hm : m ≤ n) :
    ArrivesBy turn m clock limit pieces := by
  intro moment hmoment
  obtain ⟨hdue, hstops⟩ := h moment hmoment
  obtain ⟨hd, hs⟩ := settled_stops_mono (upTo_isPrefix hm pieces) moment clock.now
  exact ⟨Nat.le_trans hd hdue, Nat.le_trans hs hstops⟩

theorem arrivesBy_of_nil {n : Nat} {clock : Clock} {pieces : List Piece} (limit : Deadline)
    (h : upTo n pieces = []) : ArrivesBy turn n clock limit pieces := by
  intro moment _
  rw [due, h]
  exact ⟨Nat.le_max_left .., Nat.zero_le _⟩

/-- One row of parts and its clock become another, and what is waited for comes when it would
have. -/
structure Awaits (turn : Nat) (limit : Deadline) (n : Nat) (clock : Clock) (pieces : List Piece)
    (n' : Nat) (clock' : Clock) (left : List Piece) : Prop where
  due : due n' clock'.now left = due n clock.now pieces
  arrivesBy : ArrivesBy turn n' clock' limit left ↔ ArrivesBy turn n clock limit pieces

namespace Awaits

variable {limit : Deadline} {n n' n'' : Nat} {clock clock' clock'' : Clock}
  {pieces left last : List Piece}

theorem refl (turn : Nat) (limit : Deadline) (n : Nat) (clock : Clock) (pieces : List Piece) :
    Awaits turn limit n clock pieces n clock pieces :=
  ⟨rfl, .rfl⟩

theorem symm (h : Awaits turn limit n clock pieces n' clock' left) :
    Awaits turn limit n' clock' left n clock pieces :=
  ⟨h.due.symm, h.arrivesBy.symm⟩

theorem trans (h : Awaits turn limit n clock pieces n' clock' left)
    (h' : Awaits turn limit n' clock' left n'' clock'' last) :
    Awaits turn limit n clock pieces n'' clock'' last :=
  ⟨h'.due.trans h.due, h'.arrivesBy.trans h.arrivesBy⟩

/-- No byte is waited for. -/
theorem zero (hn : clock'.now = clock.now) : Awaits turn limit 0 clock pieces 0 clock' left :=
  ⟨by rw [Piece.due, Piece.due, upTo_zero, upTo_zero, settled, settled, hn],
    iff_of_true (arrivesBy_of_nil limit (upTo_zero left)) (arrivesBy_of_nil limit (upTo_zero _))⟩

/-- The same pauses end at the same moments. -/
theorem of_stops (hd : Piece.due n' clock.now left = Piece.due n clock.now pieces)
    (hs : ∀ moment,
      stops moment clock.now (upTo n' left) = stops moment clock.now (upTo n pieces)) :
    Awaits turn limit n clock pieces n' clock left :=
  ⟨hd, by simp only [ArrivesBy, hd, hs]⟩

/-- Bytes that are there are waited for no longer. -/
theorem chunk (n : Nat) (bytes : Bytes) (rest : List Piece) :
    Awaits turn limit n clock (.chunk bytes :: rest) (n - bytes.length) clock rest := by
  rcases Nat.eq_zero_or_pos n with rfl | hn
  · rw [Nat.zero_sub]
    exact zero rfl
  · have hcons := upTo_cons (Nat.ne_of_gt hn) (.chunk bytes) rest
    exact of_stops (by rw [Piece.due, Piece.due, hcons]; rfl) fun moment => by rw [hcons]; rfl

/-- A pause that has begun is one until the moment at which it ends. -/
theorem pause (n length : Nat) (rest : List Piece) :
    Awaits turn limit n clock (.pause length :: rest) n clock
      (.notBefore (clock.now + length) :: rest) := by
  rcases Nat.eq_zero_or_pos n with rfl | hn
  · exact zero rfl
  · have hmax := Nat.max_eq_right (Nat.le_add_right clock.now length)
    have hne := Nat.ne_of_gt hn
    exact of_stops (by simp only [Piece.due, upTo_cons hne, settled, hmax, content])
      fun moment => by simp only [upTo_cons hne, stops, hmax, content]

/-- A pause that is passed over costs the look that was set aside for it. -/
theorem pass {wake : Time} (n : Nat) (hs : clock.sees wake = true) (rest : List Piece) :
    Awaits turn limit n clock (.notBefore wake :: rest) n clock.look rest := by
  rcases Nat.eq_zero_or_pos n with rfl | hn
  · exact zero rfl
  · obtain ⟨hw, hl⟩ : wake ≤ clock.now ∧ 0 < clock.looks := by simpa [Clock.sees] using hs
    have hdue : Piece.due n clock.now (.notBefore wake :: rest) = Piece.due n clock.now rest := by
      rw [Piece.due, Piece.due, upTo_cons (Nat.ne_of_gt hn), settled, Nat.max_eq_left hw]
      rfl
    refine ⟨hdue.symm, forall₂_congr fun moment _ => ?_⟩
    rw [hdue, upTo_cons (Nat.ne_of_gt hn), stops, Nat.max_eq_left hw]
    refine and_congr_right fun _ => ?_
    by_cases hm : clock.now < moment
    · have hlook : clock.look.now < moment := hm
      rw [if_neg (Nat.not_le_of_lt hm), if_pos hm, if_pos hlook, Nat.zero_add]
      rfl
    · have hlook : ¬clock.look.now < moment := hm
      rw [if_pos (Nat.le_of_not_lt hm), if_neg hm, if_neg hlook]
      simp only [Clock.look, content, List.length_nil, Nat.sub_zero]
      omega

end Awaits

/-! ## Reading from parts -/

/-- The moment of a pause has not come, or there is no look left to find that out. -/
theorem sees_of_read {max : Nat} {ending : Ending} {clock clock' : Clock} {pieces left : List Piece}
    {wake : Time} (h : read max ending clock pieces = (.pending (some wake), clock', left)) :
    clock'.sees wake = false := by
  fun_induction read max ending clock pieces with
  | case4 clock held rest he ih => exact ih h
  | case7 clock length rest hs ih => exact ih h
  | case8 clock length rest hs =>
    cases h
    exact Bool.eq_false_iff.2 hs
  | case9 clock moment rest hs ih => exact ih h
  | case10 clock moment rest hs =>
    cases h
    exact Bool.eq_false_iff.2 hs
  | _ => cases h

/-- A read takes bytes off those that are waited for, and does not change when they come. -/
theorem awaits_read {max : Nat} {ending : Ending} {clock clock' : Clock} {pieces left : List Piece}
    {result : ReadResult} (n : Nat) (limit : Deadline)
    (h : read max ending clock pieces = (result, clock', left)) :
    Awaits turn limit n clock pieces (n - result.bytes.length) clock' left := by
  fun_induction read max ending clock pieces with
  | case1 | case2 | case3 =>
    cases h
    exact .refl ..
  | case4 clock held rest he ih =>
    obtain rfl := List.isEmpty_iff.1 he
    exact (Awaits.chunk n [] rest).trans (ih h)
  | case5 clock held rest he hm =>
    cases h
    exact .chunk ..
  | case6 clock held rest he hm =>
    cases h
    have hn : n - held.length = n - (held.take max).length - (held.drop max).length := by
      rw [List.length_take, List.length_drop]
      omega
    refine (Awaits.chunk n held rest).trans (.symm ?_)
    rw [hn]
    exact .chunk ..
  | case7 clock length rest hs ih =>
    exact (Awaits.pause n length rest).trans ((Awaits.pass n hs rest).trans (ih h))
  | case8 clock length rest hs =>
    cases h
    exact .pause ..
  | case9 clock moment rest hs ih =>
    exact (Awaits.pass n hs rest).trans (ih h)
  | case10 clock moment rest hs =>
    cases h
    exact .refl ..

/-! ## Waiting -/

/-- A pause that ends in time is waited for as long as it lasts, and what is behind it comes then as
it would have. -/
theorem awaits_of_ready {n : Nat} {clock later next : Clock} {deadline : Deadline} {wake : Time}
    (rest : List Piece) (hw : clock.wait (some wake) deadline = (.ready, later))
    (hs : later.Still next) (hl : next.looks + 1 = turn) (hn : n ≠ 0) :
    Awaits turn (deadline.earliest clock.horizon) n clock (notBefore wake :: rest) n next rest := by
  obtain ⟨hnow, -⟩ := Clock.now_of_ready hw
  rw [← hs.now] at hnow
  have hr := Clock.ready_iff.1 (congrArg Prod.fst hw)
  have hd : due n next.now rest = due n clock.now (notBefore wake :: rest) := by
    rw [due, due, upTo_cons hn, settled, hnow]
    rfl
  refine ⟨hd, forall₂_congr fun moment hm => ?_⟩
  obtain ⟨hlt, hle⟩ := hr moment hm
  rw [hd, upTo_cons hn, stops, hnow, if_pos hlt]
  simp only [content, List.length_nil, Nat.sub_zero]
  have hmax : max (max clock.now wake) moment = max clock.now moment := by grind
  rw [hmax]
  refine and_congr_right fun _ => ?_
  split_ifs <;> grind

/-- A pause that is not waited for to its end is too long, or one too many. -/
theorem not_arrivesBy_of_late {n : Nat} {clock : Clock} {deadline : Deadline} {wake : Time}
    (rest : List Piece) (hs : clock.sees wake = false)
    (hw : (clock.wait (some wake) deadline).1 ≠ .ready) (hn : n ≠ 0) :
    ¬ArrivesBy turn n clock (deadline.earliest clock.horizon) (notBefore wake :: rest) := by
  intro ha
  refine hw (Clock.ready_iff.2 fun moment hm => ?_)
  obtain ⟨hd, hstops⟩ := ha moment hm
  rw [due, upTo_cons hn] at hd
  have hle := Nat.le_trans (wake_le_settled ..) hd
  rw [upTo_cons hn, stops] at hstops
  simp only [Clock.sees, Bool.and_eq_false_iff, decide_eq_false_iff_not] at hs
  split_ifs at hstops <;> grind

/-- A read that gives no byte and does not stop before a pause has come to the end. -/
theorem eq_nil_of_read {max : Nat} {ending : Ending} {clock clock' : Clock}
    {pieces left : List Piece} {result : ReadResult} (hm : 0 < max)
    (h : read max ending clock pieces = (result, clock', left)) (hb : result.bytes = [])
    (hp : ∀ wake, result ≠ .pending (some wake)) : left = [] := by
  fun_induction read max ending clock pieces with
  | case1 | case2 | case3 =>
    cases h
    rfl
  | case4 clock held rest he ih => exact ih h
  | case5 clock held rest he =>
    cases h
    exact absurd (List.isEmpty_iff.2 hb) he
  | case6 clock held rest he =>
    cases h
    rw [ReadResult.bytes, List.take_eq_nil_iff, ← List.isEmpty_iff] at hb
    exact (hb.elim (Nat.ne_of_gt hm) he).elim
  | case7 clock length rest hs ih => exact ih h
  | case9 clock moment rest hs ih => exact ih h
  | case8 | case10 =>
    cases h
    exact absurd rfl (hp _)

end Piece

namespace Inlet

variable {i i' : Inlet} {clock clock' later : Clock} {deadline : Deadline} {turn limit n : Nat}

/-- The moment at which `n` bytes are there, or all that there are. -/
def due (i : Inlet) (n : Nat) (now : Time) : Time :=
  Piece.due (n - i.buffer.length) now i.source.pieces

/-- The first `n` bytes, or the end of the stream, come before time is over, if a turn that begins
with a wait has `turn` looks. -/
def ArrivesBy (turn : Nat) (i : Inlet) (n : Nat) (clock : Clock) (deadline : Deadline) : Prop :=
  Piece.ArrivesBy turn (n - i.buffer.length) clock (deadline.earliest clock.horizon) i.source.pieces

instance : Decidable (i.ArrivesBy turn n clock deadline) :=
  inferInstanceAs (Decidable (∀ moment ∈ deadline.earliest clock.horizon,
    i.due n clock.now ≤ max clock.now moment ∧
      Piece.stops moment clock.now (Piece.upTo (n - i.buffer.length) i.source.pieces) ≤
        if clock.now < moment then turn else clock.looks))

/-- The first `n` bytes, or the end of the stream, come before time is over. -/
def Arrives (i : Inlet) (n : Nat) (clock : Clock) (deadline : Deadline) : Prop :=
  i.ArrivesBy Clock.turn n clock deadline

instance : Decidable (i.Arrives n clock deadline) :=
  inferInstanceAs (Decidable (i.ArrivesBy Clock.turn n clock deadline))

theorem ArrivesBy.mono {count : Nat} (h : i.ArrivesBy turn n clock deadline) (hc : count ≤ n) :
    i.ArrivesBy turn count clock deadline :=
  Piece.ArrivesBy.mono h (Nat.sub_le_sub_right hc _)

/-- Before time is over it does not matter how many pauses there are. -/
theorem arrivesBy_of_due_lt
    (h : ∀ moment ∈ deadline.earliest clock.horizon, i.due n clock.now < moment) :
    i.ArrivesBy turn n clock deadline := by
  intro moment hm
  refine ⟨Nat.le_trans (Nat.le_of_lt (h moment hm)) (Nat.le_max_right ..), ?_⟩
  rw [Piece.stops_eq_zero (h moment hm)]
  exact Nat.zero_le _

/-- One inlet and its clock become another, and what is waited for comes when it would have. -/
structure Awaits (turn : Nat) (i : Inlet) (n : Nat) (clock : Clock) (deadline : Deadline)
    (i' : Inlet) (n' : Nat) (clock' : Clock) : Prop where
  due : i'.due n' clock'.now = i.due n clock.now
  arrivesBy : i'.ArrivesBy turn n' clock' deadline ↔ i.ArrivesBy turn n clock deadline

theorem Awaits.trans {i'' : Inlet} {clock'' : Clock} {n' n'' : Nat}
    (h : i.Awaits turn n clock deadline i' n' clock')
    (h' : i'.Awaits turn n' clock' deadline i'' n'' clock'') :
    i.Awaits turn n clock deadline i'' n'' clock'' :=
  ⟨h'.due.trans h.due, h'.arrivesBy.trans h.arrivesBy⟩

theorem Awaits.of_pieces {n' : Nat} (hh : clock'.horizon = clock.horizon)
    (h : Piece.Awaits turn (deadline.earliest clock.horizon) (n - i.buffer.length) clock
      i.source.pieces (n' - i'.buffer.length) clock' i'.source.pieces) :
    i.Awaits turn n clock deadline i' n' clock' :=
  ⟨h.due, by rw [ArrivesBy, ArrivesBy, hh]; exact h.arrivesBy⟩

/-- What is loaded comes when it would have. -/
theorem awaits_load {room : Nat} {result : ReadResult} (n : Nat) (deadline : Deadline)
    (h : i.load clock room = (result, clock', i')) :
    i.Awaits turn n clock deadline i' n clock' := by
  unfold load at h
  split_ifs at h with he
  · rcases hr : i.source.read clock room with ⟨shown, clock₁, source⟩
    have hkeeps := Source.read_keeps hr
    rw [hr] at h
    cases h
    refine .of_pieces hkeeps.2.2.1 ?_
    rw [List.isEmpty_iff.1 he, List.length_nil, Nat.sub_zero]
    exact Piece.awaits_read n _ (Source.pieces_of_read hr)
  · cases h
    exact ⟨rfl, .rfl⟩

/-- What is taken out of the buffer is no longer waited for. -/
theorem awaits_consume {count : Nat} (hc : count ≤ i.buffer.length) (n : Nat) (clock : Clock)
    (deadline : Deadline) :
    i.Awaits turn n clock deadline (i.consume count) (n - count) clock := by
  have hn : n - count - (i.consume count).buffer.length = n - i.buffer.length := by
    rw [consume, List.length_drop]
    omega
  refine .of_pieces rfl ?_
  rw [hn]
  exact .refl ..

theorem awaits_read {result : ReadResult} (n : Nat) (deadline : Deadline)
    (h : i.read .bytes clock limit = (result, clock', i')) :
    i.Awaits turn n clock deadline i' (n - result.bytes.length) clock' := by
  obtain ⟨shown, loaded, hl, rfl, rfl⟩ := exists_load_of_read h
  exact (awaits_load n deadline hl).trans
    (awaits_consume (isPrefix_of_load hl).length_le n clock' deadline)

/-! ## Reads that give nothing -/

/-- Where a read stops there is a pause, and nothing is held. -/
theorem pause_of_read {wake : Time} (hl : limit ≠ 0)
    (h : i.read .bytes clock limit = (.pending (some wake), clock', i')) :
    i'.buffer = [] ∧ clock'.sees wake = false ∧
      ∃ rest, i'.source.pieces = .notBefore wake :: rest := by
  obtain ⟨hb, source, rfl, hr⟩ := source_of_read hl h rfl
  refine ⟨hb, Piece.sees_of_read (Source.pieces_of_read hr), ?_⟩
  obtain ⟨seen, -, he⟩ | ⟨wake, rest, he, hp⟩ | ⟨he, -⟩ := read_cases hl h
  · cases he
  · cases he
    exact ⟨rest, hp⟩
  · exact absurd he.symm (Ending.answer_ne_pending _ _)

theorem arrivesBy_of_nil {clock : Clock}
    (h : Piece.upTo (n - i.buffer.length) i.source.pieces = []) :
    i.ArrivesBy turn n clock deadline :=
  Piece.arrivesBy_of_nil _ h

/-- No byte is there at once. -/
theorem arrivesBy_zero (i : Inlet) (clock : Clock) : i.ArrivesBy turn 0 clock deadline :=
  arrivesBy_of_nil (by rw [Nat.zero_sub, Piece.upTo_zero])

/-- At the end there is nothing left to wait for. -/
theorem arrivesBy_of_end {result : ReadResult} (turn n : Nat) (deadline : Deadline)
    (hl : limit ≠ 0) (h : i.read .bytes clock limit = (result, clock', i')) (hb : result.bytes = [])
    (hp : ∀ wake, result ≠ .pending (some wake)) :
    i.ArrivesBy turn n clock deadline ∧ i.due n clock.now = clock'.now := by
  have hawaits : i.Awaits turn n clock deadline i' _ clock' := awaits_read n deadline h
  obtain ⟨hbuffer, source, rfl, hr⟩ := source_of_read hl h hb
  have hroom := Wanted.room_pos .bytes hl i.capacity
  have hnil := Piece.eq_nil_of_read hroom (Source.pieces_of_read hr) hb hp
  refine ⟨hawaits.arrivesBy.1 (arrivesBy_of_nil ?_), hawaits.due.symm.trans ?_⟩
  · rw [hnil, Piece.upTo]
  · simp only [due, hnil]
    rfl

/-- A wait that ends well leaves what comes behind the pause. -/
theorem awaits_read_skip {next : Clock} {wake : Option Time} (hl : limit ≠ 0) (hn : n ≠ 0)
    (hr : i.read .bytes clock limit = (.pending wake, clock', i'))
    (hw : clock'.wait wake deadline = (.ready, later)) (hs : later.Still next)
    (hlooks : next.looks + 1 = turn) :
    i.Awaits turn n clock deadline (i'.skip later.now) n next := by
  obtain ⟨moment, rfl, hle⟩ := Clock.wake_le_of_ready hw
  obtain ⟨hb, -, rest, hp⟩ := pause_of_read hl hr
  have hawaits : i.Awaits turn n clock deadline i' n clock' := awaits_read n deadline hr
  have hn' : n - i'.buffer.length ≠ 0 := by rwa [hb]
  have hskip : (i'.skip later.now).source.pieces = rest := by
    rw [skip, Source.skip, hp, Piece.skip, if_pos hle]
  refine hawaits.trans (.of_pieces (hs.horizon.trans (Clock.now_of_ready hw).2) ?_)
  rw [hskip, hp]
  exact Piece.awaits_of_ready rest hw hs hlooks hn'

/-- A wait that ends otherwise was in vain. -/
theorem not_arrivesBy_of_read {wake : Time} (hl : limit ≠ 0) (hn : n ≠ 0)
    (hr : i.read .bytes clock limit = (.pending (some wake), clock', i'))
    (hw : (clock'.wait (some wake) deadline).1 ≠ .ready) : ¬i.ArrivesBy turn n clock deadline := by
  obtain ⟨hb, hs, rest, hp⟩ := pause_of_read hl hr
  have hawaits : i.Awaits turn n clock deadline i' n clock' := awaits_read n deadline hr
  rw [← hawaits.arrivesBy, ArrivesBy, hp, hb]
  exact Piece.not_arrivesBy_of_late rest hs hw hn

end Inlet

/-! ## How bytes come -/

/-- How the first bytes of a stream come, as many as are waited for. -/
inductive Arrival where
  /-- They come in time. -/
  | whole
  /-- The stream ends before that, in time. -/
  | short
  /-- The stream fails before that, in time. -/
  | failed (reason : String)
  /-- Neither happens in time. -/
  | late
deriving Repr, DecidableEq

namespace Inlet

variable {i i' : Inlet} {clock clock' later : Clock} {deadline : Deadline} {turn limit n : Nat}

/-- How the first `n` bytes come, if a turn that begins with a wait has `turn` looks. -/
def arrivalBy (turn : Nat) (i : Inlet) (n : Nat) (clock : Clock) (deadline : Deadline) : Arrival :=
  if i.ArrivesBy turn n clock deadline then
    if n ≤ i.bytes.length then .whole
    else
      match i.source.ending with
      | .finish => .short
      | .failure reason => .failed reason
      | .silence => .late
  else .late

/-- How the first `n` bytes come. -/
def arrival (i : Inlet) (n : Nat) (clock : Clock) (deadline : Deadline) : Arrival :=
  i.arrivalBy Clock.turn n clock deadline

theorem Awaits.arrivalBy {n' : Nat} {given : Bytes}
    (h : i.Awaits turn n clock deadline i' n' clock') (hn : n' = n - given.length)
    (hb : given ++ i'.bytes = i.bytes) (he : i'.source.ending = i.source.ending) :
    i'.arrivalBy turn n' clock' deadline = i.arrivalBy turn n clock deadline := by
  have hl : n' ≤ i'.bytes.length ↔ n ≤ i.bytes.length := by
    rw [← hb, List.length_append]
    omega
  simp only [Inlet.arrivalBy, h.arrivesBy, hl, he]

/-- Bytes come in time before `n` of them do if there are fewer. -/
theorem arrivalBy_cases (turn : Nat) (i : Inlet) (n : Nat) (clock : Clock) (deadline : Deadline) :
    match i.arrivalBy turn n clock deadline with
    | .whole => n ≤ i.bytes.length
    | .short => i.bytes.length < n ∧ i.source.ending = .finish
    | .failed reason => i.bytes.length < n ∧ i.source.ending = .failure reason
    | .late => True := by
  unfold arrivalBy
  split_ifs with ha hn
  · exact hn
  · cases he : i.source.ending <;> simp only [and_true]
    · exact Nat.lt_of_not_le hn
    · exact Nat.lt_of_not_le hn
  · trivial

/-- At the end of the stream it is clear what there is. -/
theorem arrivalBy_of_end {result : ReadResult} (turn : Nat) (deadline : Deadline)
    (hl : limit ≠ 0) (hn : n ≠ 0) (h : i.read .bytes clock limit = (result, clock', i'))
    (hb : result.bytes = []) (hp : ∀ wake, result ≠ .pending (some wake)) :
    i.bytes = [] ∧ result = i.source.ending.answer ∧ clock'.now = i.due n clock.now ∧
      i.arrivalBy turn n clock deadline =
        match i.source.ending with
        | .finish => .short
        | .failure reason => .failed reason
        | .silence => .late := by
  obtain ⟨ha, hd⟩ := arrivesBy_of_end turn n deadline hl h hb hp
  obtain ⟨seen, hseen, he⟩ | ⟨wake, rest, he, -⟩ | ⟨he, hnil⟩ := read_cases hl h
  · rw [he] at hb
    exact absurd hb hseen
  · exact absurd he (hp wake)
  · refine ⟨hnil, he, hd.symm, ?_⟩
    rw [arrivalBy, if_pos ha, if_neg]
    rw [hnil, List.length_nil]
    omega

/-! ## What waiting for bytes comes to -/

/-- The number of bytes, of the first `n`, that come before time is over. -/
def reach (turn : Nat) (i : Inlet) (n : Nat) (clock : Clock) (deadline : Deadline) : Nat :=
  Nat.findGreatest (fun count => i.ArrivesBy turn count clock deadline) (min n i.bytes.length)

/-- How an operation ends that waits for the first `n` bytes. -/
def answer (turn : Nat) (i : Inlet) (n : Nat) (clock : Clock) (deadline : Deadline) :
    Outcome String Unit :=
  match i.arrivalBy turn n clock deadline with
  | .whole | .short => .ok ()
  | .failed reason => .error reason
  | .late => (clock.wait none deadline).1.outcome

/-- The operation has waited for the first `n` bytes, and taken those that came in time. -/
structure Fetches {α : Type} (turn : Nat) (i : Inlet) (n : Nat) (clock : Clock)
    (deadline : Deadline) (outcome : Outcome String α) (i' : Inlet) (later : Clock) : Prop where
  bytes : i'.bytes = i.bytes.drop (i.reach turn n clock deadline)
  answer : outcome.map (fun _ => ()) = i.answer turn n clock deadline
  now : i.arrivalBy turn n clock deadline ≠ .late → later.now = i.due n clock.now
  passed : outcome = .expired → deadline.passed later.now = true

theorem reach_le (turn : Nat) (i : Inlet) (n : Nat) (clock : Clock) (deadline : Deadline) :
    i.reach turn n clock deadline ≤ min n i.bytes.length :=
  Nat.findGreatest_le _

theorem reach_of_nil (hb : i.bytes = []) : i.reach turn n clock deadline = 0 := by
  have hle := i.reach_le turn n clock deadline
  rw [hb, List.length_nil, Nat.min_zero] at hle
  exact Nat.le_zero.1 hle

theorem reach_zero (i : Inlet) (clock : Clock) : i.reach turn 0 clock deadline = 0 := by
  have hle := i.reach_le turn 0 clock deadline
  rw [Nat.zero_min] at hle
  exact Nat.le_zero.1 hle

/-- What is reached comes in time. -/
theorem arrivesBy_reach : i.ArrivesBy turn (i.reach turn n clock deadline) clock deadline :=
  Nat.findGreatest_spec (P := fun count => i.ArrivesBy turn count clock deadline)
    (Nat.zero_le _) (i.arrivesBy_zero clock)

/-- What is taken off the front is reached first. -/
theorem reach_append {seen : Bytes} (hb : seen ++ i'.bytes = i.bytes) (hl : seen.length ≤ n)
    (ha : ∀ count, i'.ArrivesBy turn (count - seen.length) clock' deadline ↔
      i.ArrivesBy turn count clock deadline) :
    i.reach turn n clock deadline =
      seen.length + i'.reach turn (n - seen.length) clock' deadline := by
  have hmin : min n i.bytes.length = seen.length + min (n - seen.length) i'.bytes.length := by
    rw [← hb, List.length_append]
    omega
  rw [reach, hmin]
  refine Nat.findGreatest_eq_iff.2 ⟨Nat.add_le_add_left (i'.reach_le ..) _, fun _ => ?_, ?_⟩
  · rw [← ha, Nat.add_sub_cancel_left]
    exact arrivesBy_reach
  · intro count hlt hle
    rw [← ha]
    exact Nat.findGreatest_is_greatest (n := min (n - seen.length) i'.bytes.length)
      (Nat.lt_sub_of_add_lt (Nat.add_comm .. ▸ hlt)) (Nat.sub_le_of_le_add (Nat.add_comm .. ▸ hle))

namespace Fetches

variable {α β : Type} {outcome : Outcome String α}

/-- The value makes no difference. -/
theorem map (h : i.Fetches turn n clock deadline outcome i' later) (f : α → β) :
    i.Fetches turn n clock deadline (outcome.map f) i' later := by
  obtain ⟨hb, ha, hn, hp⟩ := h
  refine ⟨hb, ?_, hn, fun he => ?_⟩
  · cases outcome <;> exact ha
  · cases outcome <;> cases he
    exact hp rfl

/-- Nothing is waited for. -/
theorem none (i : Inlet) (clock : Clock) (value : α) :
    i.Fetches turn 0 clock deadline (.ok value) i clock where
  bytes := by rw [reach_zero, List.drop_zero]
  answer := by
    rw [Inlet.answer, arrivalBy, if_pos (i.arrivesBy_zero clock), if_pos (Nat.zero_le _)]
    rfl
  now _ := by rw [due, Piece.due, Nat.zero_sub, Piece.upTo_zero, Piece.settled]
  passed := nofun

/-- The stream has ended. -/
theorem ended (hl : limit ≠ 0) (hn : n ≠ 0) (h : i.read .bytes clock limit = (.data [], clock', i'))
    (value : α) : i.Fetches turn n clock deadline (.ok value) i' clock' := by
  obtain ⟨hnil, he, hd, ha⟩ := arrivalBy_of_end turn deadline hl hn h rfl (by simp)
  have hb : i'.bytes = i.bytes := append_bytes_read h
  cases hs : i.source.ending <;> rw [hs] at he ha <;> cases he
  exact ⟨by rw [reach_of_nil hnil, hb]; rfl, by rw [Inlet.answer, ha]; rfl, fun _ => hd, nofun⟩

/-- The stream has failed. -/
theorem failed {reason : String} (hl : limit ≠ 0) (hn : n ≠ 0)
    (h : i.read .bytes clock limit = (.failed reason, clock', i')) :
    i.Fetches turn n clock deadline (.error reason : Outcome String α) i' clock' := by
  obtain ⟨hnil, he, hd, ha⟩ := arrivalBy_of_end turn deadline hl hn h rfl (by simp)
  have hb : i'.bytes = i.bytes := append_bytes_read h
  cases hs : i.source.ending <;> rw [hs] at he ha <;> cases he
  exact ⟨by rw [reach_of_nil hnil, hb]; rfl, by rw [Inlet.answer, ha]; rfl, fun _ => hd, nofun⟩

/-- There is a pause, and it is not waited for to its end. -/
theorem late {waiting : Clock} {wake : Option Time} {ended : Wait} (hl : limit ≠ 0) (hn : n ≠ 0)
    (hr : i.read .bytes clock limit = (.pending wake, clock', i')) (hs : clock'.Still waiting)
    (hw : waiting.wait wake deadline = (ended, later)) (he : ended ≠ .ready) :
    i.Fetches turn n clock deadline (ended.outcome : Outcome String α) i' later := by
  have hb : i'.bytes = i.bytes := append_bytes_read hr
  have hended : (clock.wait .none deadline).1 = ended ∧ i.reach turn n clock deadline = 0 ∧
      i.arrivalBy turn n clock deadline = .late := by
    cases wake with
    | none =>
      obtain ⟨hnil, hanswer, -, ha⟩ := arrivalBy_of_end turn deadline hl hn hr rfl (by simp)
      have hstill := Clock.fst_wait_of_still ((still_read hr).trans hs) .none deadline
      rw [hw] at hstill
      refine ⟨hstill.symm, reach_of_nil hnil, ?_⟩
      cases hs : i.source.ending <;> rw [hs] at hanswer ha <;> cases hanswer
      exact ha
    | some wake =>
      have hstill := Clock.fst_wait_of_still hs (.some wake) deadline
      rw [hw] at hstill
      have hvain : (clock'.wait (.some wake) deadline).1 ≠ .ready := hstill ▸ he
      have hlate : ∀ {count}, count ≠ 0 → ¬i.ArrivesBy turn count clock deadline := fun hc =>
        not_arrivesBy_of_read hl hc hr hvain
      refine ⟨?_, Nat.findGreatest_eq_zero_iff.2 fun count hc _ => hlate (Nat.ne_of_gt hc), ?_⟩
      · rw [← Clock.fst_wait_of_still (still_read hr), Clock.fst_wait_none hvain, ← hstill]
      · rw [arrivalBy, if_neg (hlate hn)]
  obtain ⟨hnone, hreach, harrival⟩ := hended
  refine ⟨by rw [hreach, hb]; rfl, ?_, fun hne => absurd harrival hne, fun hx => ?_⟩
  · rw [Inlet.answer, harrival, hnone]
    cases ended <;> rfl
  · cases ended <;> cases hx
    exact Clock.passed_of_expired hw

/-- What was given is waited for no longer, and the rest of it is. -/
theorem after {seen : Bytes} {i'' : Inlet} {last : Clock}
    (hb : seen ++ i'.bytes = i.bytes) (he : i'.source.ending = i.source.ending)
    (hl : seen.length ≤ n) (hd : i'.due (n - seen.length) clock'.now = i.due n clock.now)
    (ha : ∀ count, i'.ArrivesBy turn (count - seen.length) clock' deadline ↔
      i.ArrivesBy turn count clock deadline)
    (hw : (clock'.wait .none deadline).1 = (clock.wait .none deadline).1)
    (h : i'.Fetches turn (n - seen.length) clock' deadline outcome i'' last) :
    i.Fetches turn n clock deadline outcome i'' last := by
  obtain ⟨hbytes, hanswer, hnow, hpassed⟩ := h
  have harrival : i'.arrivalBy turn (n - seen.length) clock' deadline =
      i.arrivalBy turn n clock deadline := Awaits.arrivalBy ⟨hd, ha n⟩ rfl hb he
  refine ⟨?_, ?_, ?_, hpassed⟩
  · rw [hbytes, reach_append hb hl ha, ← hb, List.drop_append]
    simp
  · rw [hanswer, Inlet.answer, Inlet.answer, harrival, hw]
  · rw [← harrival, ← hd]
    exact hnow

/-- There are bytes. -/
theorem data {seen : Bytes} {i'' : Inlet} {last : Clock}
    (hr : i.read .bytes clock limit = (.data seen, clock', i')) (hl : seen.length ≤ n)
    (h : i'.Fetches turn (n - seen.length) clock' deadline outcome i'' last) :
    i.Fetches turn n clock deadline outcome i'' last :=
  have hgives := gives_read hr
  have hawaits : ∀ count, i.Awaits turn count clock deadline i' (count - seen.length) clock' :=
    fun count => awaits_read count deadline hr
  .after hgives.bytes hgives.ending hl (hawaits n).due (fun count => (hawaits count).arrivesBy)
    (Clock.fst_wait_of_still (still_read hr) ..) h

/-- There is a pause, and it ends in time. -/
theorem paused {waiting next last : Clock} {wake : Option Time} {i'' : Inlet} (hl : limit ≠ 0)
    (hn : n ≠ 0) (hr : i.read .bytes clock limit = (.pending wake, clock', i'))
    (hs : clock'.Still waiting) (hw : waiting.wait wake deadline = (.ready, later))
    (hnext : later.Still next) (hlooks : next.looks + 1 = turn)
    (h : (i'.skip later.now).Fetches turn n next deadline outcome i'' last) :
    i.Fetches turn n clock deadline outcome i'' last := by
  have hready := Clock.wait_of_still hs hw
  have hgives := gives_read_skip hl hr hready
  have hawaits : ∀ {count}, count ≠ 0 →
      i.Awaits turn count clock deadline (i'.skip later.now) count next := fun hc =>
    awaits_read_skip hl hc hr hready hnext hlooks
  refine .after hgives.bytes hgives.ending (Nat.zero_le _) (hawaits hn).due
    (fun count => ?_) ?_ h
  · rcases Nat.eq_zero_or_pos count with rfl | hc
    · exact iff_of_true (arrivesBy_zero _ _) (arrivesBy_zero _ _)
    · exact (hawaits (Nat.ne_of_gt hc)).arrivesBy
  · obtain ⟨moment, rfl, -⟩ := Clock.wake_le_of_ready hready
    rw [Clock.fst_wait_of_still hnext, Clock.fst_wait_none_of_ready hready,
      Clock.fst_wait_of_still (still_read hr)]

end Fetches

theorem fetches_readUpTo {outcome : Outcome String Bytes}
    (h : i.readUpTo clock deadline n = (outcome, clock', i')) :
    i.Fetches Clock.turn n clock deadline outcome i' clock' := by
  unfold readUpTo at h
  fun_induction gather .bytes i clock deadline n generalizing outcome clock' i' with
  | case1 i clock =>
    cases h
    exact .none ..
  | case2 i clock n hl reason clock₁ i₁ hr =>
    cases h
    exact .failed hl hl hr
  | case3 i clock n hl wake clock₁ i₁ hr later hw ih =>
    have hlooks : later.looks + 1 = Clock.turn := by rw [Clock.looks_of_ready hw]; rfl
    exact .paused hl hl hr ⟨rfl, rfl⟩ hw ⟨rfl, rfl⟩ hlooks (ih h)
  | case4 i clock n hl wake clock₁ i₁ hr later hw
  | case5 i clock n hl wake clock₁ i₁ hr later hw =>
    cases h
    exact .late hl hl hr ⟨rfl, rfl⟩ hw (by rintro ⟨⟩)
  | case6 i clock n hl seen clock₁ i₁ hr he =>
    cases h
    obtain rfl : seen = [] := by simpa [Wanted.isWhole] using he
    exact .ended hl hl hr _
  | case7 i clock n hl seen clock₁ i₁ hr he outcome clock₂ i₂ hn ih =>
    cases h
    exact .map (.data hr (length_read_le hr) (ih hn)) _

end Inlet

end Courier
