import SignalDesk.Risk.Portfolio

/-!
# Plans

An instrument works on its own state and asks the shared account at most once. A plan is such a piece
of work, either done or waiting for the answer to one request, so that other instruments can be
served while it waits.
-/

namespace SignalDesk

/-- What an instrument can ask of the account. -/
inductive Request where
  /-- Commit capital to a new position. -/
  | reserve (size : Decimal)
  /-- Release capital and book a profit or a loss. -/
  | settle (size pnl : Decimal)

abbrev Request.Reply : Request → Type
  | reserve _ => Except Refusal Unit
  | settle _ _ => Option HaltReason

namespace Account

def answer : (request : Request) → Act Account request.Reply
  | .reserve size => reserve size
  | .settle size pnl => settle size pnl

end Account

/-- Work on a state `σ` that asks the account at most once. -/
inductive Plan (σ α : Type) where
  | done (attempt : Attempt σ α)
  /-- Waits with the given state for the reply to a request. -/
  | ask (request : Request) (state : σ) (notices : List Notice) (resume : request.Reply → Act σ α)

namespace Plan

variable {σ τ α β : Type}

/-- Follows a plan by work that does not ask. -/
def andThen (plan : Plan σ α) (next : α → Act σ β) : Plan σ β :=
  match plan with
  | done attempt => done (Act.bind (fun _ => attempt) next attempt.state)
  | ask request state notices resume =>
    ask request state notices fun reply => Act.bind (resume reply) next

/-- Puts work that does not ask in front of a plan. -/
def after (act : Act σ α) (next : α → σ → Plan σ β) (state : σ) : Plan σ β :=
  match act state with
  | ⟨.error abort, state, notices⟩ => done ⟨.error abort, state, notices⟩
  | ⟨.ok a, state, notices⟩ =>
    match next a state with
    | done attempt => done { attempt with notices := notices ++ attempt.notices }
    | ask request state later resume => ask request state (notices ++ later) resume

/-- Plans for a part of a state. -/
def focus (part : σ → τ) (replace : σ → τ → σ) (plan : τ → Plan τ α) (state : σ) : Plan σ α :=
  match plan (part state) with
  | done attempt => done ⟨attempt.outcome, replace state attempt.state, attempt.notices⟩
  | ask request inner notices resume =>
    ask request (replace state inner) notices fun reply => Act.focus part replace (resume reply)

/-- Has the account answer the request of a plan, if there is one, and does the rest of the work. -/
def consult (account : Account) : Plan σ α → Attempt σ α × Account
  | done attempt => (attempt, account)
  | ask request state notices resume =>
    match Account.answer request account with
    | ⟨.error abort, account, later⟩ => (⟨.error abort, state, notices ++ later⟩, account)
    | ⟨.ok reply, account, later⟩ =>
      let attempt := resume reply state
      ({ attempt with notices := notices ++ later ++ attempt.notices }, account)

/-- Carries a plan out against the account without interruption. -/
def run (plan : Plan σ α) : Act (σ × Account) α := fun (_, account) =>
  let (attempt, account) := plan.consult account
  ⟨attempt.outcome, (attempt.state, account), attempt.notices⟩

end Plan

end SignalDesk
