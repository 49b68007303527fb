import SignalDesk.Abort
import SignalDesk.Telemetry

/-!
# Actions

An action changes a state, leaves notices and may be given up half way. What it changed and noted
before it was given up remains.
-/

namespace SignalDesk

/-- What an action leaves behind. -/
structure Attempt (σ α : Type) where
  outcome : Except Abort α
  state : σ
  notices : List Notice

/-- An action on a state `σ` that yields an `α`. -/
def Act (σ α : Type) : Type := σ → Attempt σ α

namespace Act

variable {σ τ α β : Type}

protected def pure (a : α) : Act σ α := fun s => ⟨.ok a, s, []⟩

protected def bind (act : Act σ α) (next : α → Act σ β) : Act σ β := fun s =>
  match act s with
  | ⟨.ok a, s, notices⟩ =>
    let rest := next a s
    ⟨rest.outcome, rest.state, notices ++ rest.notices⟩
  | ⟨.error abort, s, notices⟩ => ⟨.error abort, s, notices⟩

instance : Monad (Act σ) where
  pure := Act.pure
  bind := Act.bind

def get : Act σ σ := fun s => ⟨.ok s, s, []⟩

def set (s : σ) : Act σ Unit := fun _ => ⟨.ok (), s, []⟩

def modify (f : σ → σ) : Act σ Unit := fun s => ⟨.ok (), f s, []⟩

def notify (notices : List Notice) : Act σ Unit := fun s => ⟨.ok (), s, notices⟩

/-- Continues with a result or gives up. -/
def lift (result : Except Abort α) : Act σ α := fun s => ⟨result, s, []⟩

/-- Acts on a part of the state. -/
def focus (part : σ → τ) (replace : σ → τ → σ) (act : Act τ α) : Act σ α := fun s =>
  let attempt := act (part s)
  ⟨attempt.outcome, replace s attempt.state, attempt.notices⟩

end Act

end SignalDesk
