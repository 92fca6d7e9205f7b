import Courier.Proofs.Clock
import Courier.Stream.Source

/-!
# What a source gives and when

A read gives bytes, or says until when there are none, or comes to the end of the source
(`Source.read_cases`). Everything that a source holds is there at the moment `Source.settled` if
somebody keeps reading: reads and waits leave that moment as it is (`settled_read`,
`settled_skip`), and nobody has to wait beyond it (`wake_le_settled`).
-/

namespace Courier

/-- What a read gives at the end of the source. -/
def Ending.answer : Ending → ReadResult
  | finish => .data []
  | silence => .pending none
  | failure reason => .failed reason

theorem Ending.answer_ne_pending (ending : Ending) (wake : Time) :
    ending.answer ≠ .pending (some wake) := by
  cases ending <;> simp [answer]

namespace Piece

/-- The moment at which all of the parts are there. -/
def settled (now : Time) : List Piece → Time
  | [] => now
  | chunk _ :: rest => settled now rest
  | pause length :: rest => settled (now + length) rest
  | notBefore moment :: rest => settled (max now moment) rest

theorem le_settled (now : Time) (pieces : List Piece) : now ≤ settled now pieces := by
  fun_induction settled now pieces with
  | case1 => exact Nat.le_refl _
  | case2 now bytes rest ih => exact ih
  | case3 now length rest ih => exact Nat.le_trans (Nat.le_add_right ..) ih
  | case4 now moment rest ih => exact Nat.le_trans (Nat.le_max_left ..) ih

theorem read_cases {max : Nat} (hm : 0 < max) (ending : Ending) (clock : Clock)
    (pieces : List Piece) :
    (∃ given ≠ [], (read max ending clock pieces).1 = .data given) ∨
      (∃ wake rest, (read max ending clock pieces).1 = .pending (some wake) ∧
        (read max ending clock pieces).2.2 = notBefore wake :: rest) ∨
      (read max ending clock pieces).1 = ending.answer ∧ contents pieces = [] := by
  fun_induction read max ending clock pieces with
  | case1 clock he => exact .inr (.inr ⟨by rw [he]; rfl, rfl⟩)
  | case2 clock he => exact .inr (.inr ⟨by rw [he]; rfl, rfl⟩)
  | case3 clock reason he => exact .inr (.inr ⟨by rw [he]; rfl, rfl⟩)
  | case4 clock held rest he ih =>
    rw [contents_cons, content, List.isEmpty_iff.1 he, List.nil_append]
    exact ih
  | case5 clock held rest he => exact .inl ⟨held, by simpa using he, rfl⟩
  | case6 clock held rest he =>
    refine .inl ⟨held.take max, ?_, rfl⟩
    rw [ne_eq, List.take_eq_nil_iff]
    simp only [List.isEmpty_iff] at he
    exact not_or.2 ⟨by omega, he⟩
  | case7 clock length rest _ ih =>
    rw [contents_cons, content, List.nil_append]
    exact ih
  | case8 clock length rest => exact .inr (.inl ⟨_, rest, rfl, rfl⟩)
  | case9 clock moment rest _ ih =>
    rw [contents_cons, content, List.nil_append]
    exact ih
  | case10 clock moment rest => exact .inr (.inl ⟨moment, rest, rfl, rfl⟩)

theorem now_read (max : Nat) (ending : Ending) (clock : Clock) (pieces : List Piece) :
    (read max ending clock pieces).2.1.now = clock.now ∧
      (read max ending clock pieces).2.1.horizon = clock.horizon := by
  fun_induction read max ending clock pieces with
  | case4 _ _ _ _ ih => exact ih
  | case7 _ _ _ _ ih => exact ih
  | case9 _ _ _ _ ih => exact ih
  | _ => exact ⟨rfl, rfl⟩

theorem le_now_of_sees {clock : Clock} {moment : Time} (h : clock.sees moment = true) :
    moment ≤ clock.now := by
  simp only [Clock.sees, Bool.and_eq_true, decide_eq_true_eq] at h
  exact h.1

theorem settled_read (max : Nat) (ending : Ending) (clock : Clock) (pieces : List Piece) :
    settled clock.now (read max ending clock pieces).2.2 = settled clock.now pieces := by
  fun_induction read max ending clock pieces with
  | case4 clock held rest he ih => exact ih
  | case7 clock length rest hs ih =>
    have hl : clock.now + length = clock.now :=
      Nat.le_antisymm (le_now_of_sees hs) (Nat.le_add_right ..)
    rw [settled, hl]
    exact ih
  | case8 clock length rest =>
    rw [settled, settled, Nat.max_eq_right (Nat.le_add_right ..)]
  | case9 clock moment rest hs ih =>
    rw [settled, Nat.max_eq_left (le_now_of_sees hs)]
    exact ih
  | _ => rfl

theorem forall_chunk_read {max : Nat} {ending : Ending} {clock : Clock} {pieces : List Piece}
    (h : ∀ piece ∈ pieces, ∃ bytes, piece = chunk bytes) :
    ∀ piece ∈ (read max ending clock pieces).2.2, ∃ bytes, piece = chunk bytes := by
  fun_induction read max ending clock pieces with
  | case4 clock held rest he ih => exact ih (List.forall_mem_cons.1 h).2
  | case5 clock held rest he hm => exact (List.forall_mem_cons.1 h).2
  | case6 clock held rest he hm =>
    exact List.forall_mem_cons.2 ⟨⟨_, rfl⟩, (List.forall_mem_cons.1 h).2⟩
  | case7 clock length rest hs ih => exact ih (List.forall_mem_cons.1 h).2
  | case8 clock length rest =>
    obtain ⟨bytes, hb⟩ := (List.forall_mem_cons.1 h).1
    cases hb
  | case9 clock moment rest hs ih => exact ih (List.forall_mem_cons.1 h).2
  | case10 clock moment rest => exact h
  | _ => exact h

theorem wake_le_settled (now wake : Time) (rest : List Piece) :
    wake ≤ settled now (notBefore wake :: rest) :=
  Nat.le_trans (Nat.le_max_right now wake) (le_settled ..)

theorem settled_skip (now wake : Time) (rest : List Piece) :
    settled (max now wake) (skip (max now wake) (notBefore wake :: rest)) =
      settled now (notBefore wake :: rest) := by
  rw [skip, if_pos (Nat.le_max_right ..), settled]

end Piece

namespace Source

/-- The moment at which all bytes of the source are there. -/
def settled (s : Source) (now : Time) : Time :=
  Piece.settled now s.pieces

theorem bytes_ofBytes (bytes : Bytes) : (ofBytes bytes).bytes = bytes := by
  simp [Source.bytes, ofBytes, Piece.contents, Piece.content]

theorem le_settled (s : Source) (now : Time) : now ≤ s.settled now :=
  Piece.le_settled ..

/-- A read gives bytes, or there is a pause at the head of the source, or it is at its end. -/
theorem read_cases {s s' : Source} {clock clock' : Clock} {max : Nat} {result : ReadResult}
    (hm : 0 < max) (h : s.read clock max = (result, clock', s')) :
    (∃ given ≠ [], result = .data given) ∨
      (∃ wake rest, result = .pending (some wake) ∧ s'.pieces = .notBefore wake :: rest) ∨
      result = s.ending.answer ∧ s.bytes = [] := by
  cases h
  exact Piece.read_cases hm s.ending clock s.pieces

/-- What a read does not change. -/
theorem read_keeps {s s' : Source} {clock clock' : Clock} {max : Nat} {result : ReadResult}
    (h : s.read clock max = (result, clock', s')) :
    s'.ending = s.ending ∧ clock'.now = clock.now ∧ clock'.horizon = clock.horizon ∧
      s'.settled clock'.now = s.settled clock.now := by
  cases h
  obtain ⟨hn, hh⟩ := Piece.now_read max s.ending clock s.pieces
  refine ⟨rfl, hn, hh, ?_⟩
  show Piece.settled (Piece.read max s.ending clock s.pieces).2.1.now _ = _
  rw [hn]
  exact Piece.settled_read max s.ending clock s.pieces

end Source

end Courier
