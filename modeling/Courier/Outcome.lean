import Courier.Clock

/-!
# Outcomes

An operation that may have to wait ends in one of four ways. Two of them come from outside: the
deadline around it passes, or it waits for something that never comes. `Outcome.within` turns the
first into an error of the operation that set the deadline.
-/

namespace Courier

/-- How an operation ended. -/
inductive Outcome (ε α : Type) where
  | ok (value : α)
  | error (error : ε)
  /-- The deadline around the operation passed. -/
  | expired
  /-- The operation waits forever. -/
  | stalled
deriving Repr, DecidableEq

namespace Outcome

variable {ε ε' α β : Type}

/-- Changes the value. -/
def map (f : α → β) : Outcome ε α → Outcome ε β
  | ok a => ok (f a)
  | error e => error e
  | expired => expired
  | stalled => stalled

/-- Changes the error. -/
def mapError (f : ε → ε') : Outcome ε α → Outcome ε' α
  | ok a => ok a
  | error e => error (f e)
  | expired => expired
  | stalled => stalled

/-- An outcome that did not have to wait. -/
def ofExcept : Except ε α → Outcome ε α
  | .ok a => ok a
  | .error e => error e

/-- Gives the passing of the deadline the name of an error. -/
def within (e : ε) : Outcome ε α → Outcome ε α
  | expired => error e
  | o => o

end Outcome

end Courier
