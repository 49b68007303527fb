/-!
# Giving up

A few operations cannot be carried out at all. They end the work at hand, and what had been done
before stays done.
-/

namespace SignalDesk

/-- Why an operation is given up. -/
inductive Abort where
  /-- A decimal result has no place left to give up, or a divisor is zero. -/
  | decimalOverflow
  /-- A span does not fit in 64 bits of milliseconds. -/
  | spanOutOfRange
  /-- A queue of the wanted capacity cannot be made. -/
  | queueCapacity
  /-- A text is cut inside a character. -/
  | splitCharacter
  deriving DecidableEq

def orAbort {α : Type} (abort : Abort) : Option α → Except Abort α
  | some a => .ok a
  | none => .error abort

end SignalDesk
