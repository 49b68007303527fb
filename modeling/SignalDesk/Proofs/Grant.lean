import SignalDesk.Proofs.Desk

/-!
# Plans whose requests are granted

All that a plan learns from the account is whether it gets the capital it asks for. What a settlement
replies shows in the notices only, so a plan that is not refused ends as if the account had granted
everything.
-/

namespace SignalDesk

/-- Two attempts end alike, whatever they note on the way. -/
def Attempt.Alike {σ α : Type} (first second : Attempt σ α) : Prop :=
  first.outcome = second.outcome ∧ first.state = second.state

/-- Why the account can turn down a reservation. -/
def Refusal.IsOfAccount (refusal : Refusal) : Prop :=
  (∃ reason, refusal = .tradingHalted reason) ∨
    ∃ required available, refusal = .insufficientCapital required available

namespace Plan

open Act

variable {σ τ α β : Type} {s s' : σ} {account account' : Account} {a : α}

/-- Why the account turns down the capital that a plan asks for, if it does. -/
def refusal? (account : Account) : Plan σ α → Option Refusal
  | ask (.reserve size) _ _ _ =>
    match (Account.reserve size account).outcome with
    | .ok (.error refusal) => some refusal
    | _ => none
  | _ => none

/-- The reply of an account that grants all capital and never halts. -/
def grant : (request : Request) → request.Reply
  | .reserve _ => .ok ()
  | .settle _ _ => none

def granted : Plan σ α → Attempt σ α
  | done attempt => attempt
  | ask request state _ resume => resume (grant request) state

/-- The rest of the plan does not depend on the reply to a settlement, notices apart. -/
def Unmoved : Plan σ α → Prop
  | ask (.settle _ _) state _ resume => ∀ halt, (resume halt state).Alike (resume none state)
  | _ => True

/-- A plan that is not refused ends as if its request had been granted. -/
theorem Unmoved.run_granted {plan : Plan σ α} (hunmoved : plan.Unmoved)
    (h : plan.run.Yields (s, account) a (s', account')) (hgrant : plan.refusal? account = none) :
    plan.granted.outcome = .ok a ∧ plan.granted.state = s' := by
  cases plan with
  | done attempt =>
    obtain ⟨hout, hstate, -⟩ := run_done_yields_iff.1 h
    exact ⟨hout, hstate⟩
  | ask request state notices resume =>
    obtain ⟨reply, hanswer, hout, hstate⟩ := run_ask_yields_iff.1 h
    cases request with
    | reserve size =>
      cases reply with
      | error refusal =>
        have hreserve : (Account.reserve size account).outcome = .ok (.error refusal) := hanswer.1
        simp [refusal?, hreserve] at hgrant
      | ok granted => exact ⟨hout, hstate⟩
    | settle size pnl =>
      obtain ⟨houtcome, hafter⟩ := hunmoved reply
      constructor
      · rw [← hout]
        exact houtcome.symm
      · rw [← hstate]
        exact hafter.symm

private theorem bind_alike {first second : Act σ α} {next : α → Act σ β}
    (h : (first s).Alike (second s)) : (Act.bind first next s).Alike (Act.bind second next s) := by
  obtain ⟨hout, hstate⟩ := h
  simp only [Act.bind]
  rcases hfirst : first s with ⟨outcome, state, notices⟩
  rcases hsecond : second s with ⟨outcome', state', notices'⟩
  rw [hfirst, hsecond] at hout hstate
  simp only at hout hstate
  subst hout hstate
  cases outcome with
  | error abort => exact ⟨rfl, rfl⟩
  | ok b => exact ⟨rfl, rfl⟩

theorem Unmoved.andThen {plan : Plan σ α} (h : plan.Unmoved) (next : α → Act σ β) :
    (plan.andThen next).Unmoved := by
  cases plan with
  | done attempt => trivial
  | ask request state notices resume =>
    cases request with
    | reserve size => trivial
    | settle size pnl =>
      intro halt
      exact bind_alike (h halt)

private theorem unmoved_focus {part : σ → τ} {replace : σ → τ → σ} {plan : τ → Plan τ α}
    (hpart : ∀ s t, part (replace s t) = t) (h : (plan (part s)).Unmoved) :
    (focus part replace plan s).Unmoved := by
  unfold focus
  cases hplan : plan (part s) with
  | done attempt => trivial
  | ask request inner notices resume =>
    rw [hplan] at h
    cases request with
    | reserve size => trivial
    | settle size pnl =>
      intro halt
      obtain ⟨hout, hstate⟩ := h halt
      simp only [Attempt.Alike, Act.focus, hpart]
      exact ⟨hout, congrArg _ hstate⟩

private theorem unmoved_after {act : Act σ α} {next : α → σ → Plan σ β}
    (h : ∀ a s, (next a s).Unmoved) (s : σ) : (after act next s).Unmoved := by
  unfold after
  rcases act s with ⟨outcome, state, notices⟩
  cases outcome with
  | error abort => trivial
  | ok a =>
    have hnext := h a state
    change Unmoved (match next a state with
      | done attempt => _
      | ask request waiting later resume => _)
    cases hplan : next a state with
    | done attempt => trivial
    | ask request waiting later resume =>
      rw [hplan] at hnext
      cases request with
      | reserve size => trivial
      | settle size pnl => exact hnext

end Plan

private theorem Portfolio.reserve_refusal {size : Decimal} {p p' : Portfolio} {refusal : Refusal}
    (h : (reserve size).Yields p (.error refusal) p') : refusal.IsOfAccount := by
  rcases reserve_refused h with ⟨reason, -, rfl⟩ | ⟨available, -, -, rfl⟩
  · exact .inl ⟨reason, rfl⟩
  · exact .inr ⟨size, available, rfl⟩

private theorem Account.reserve_refusal {size : Decimal} {account : Account} {refusal : Refusal}
    (h : (reserve size account).outcome = .ok (.error refusal)) : refusal.IsOfAccount := by
  have hyields := Act.yields_of_outcome h
  cases account with
  | poisoned =>
    obtain ⟨hrefusal, -⟩ := within_poisoned_yields hyields
    exact .inl ⟨.lockPoisoned, Except.error.inj hrefusal⟩
  | live p =>
    obtain ⟨q, hlive, -⟩ := within_live_yields hyields
    exact Portfolio.reserve_refusal hlive

/-- A plan is refused for a halt or for lack of capital. -/
theorem Plan.refusal?_isOfAccount {σ α : Type} {plan : Plan σ α} {account : Account}
    {refusal : Refusal} (h : plan.refusal? account = some refusal) : refusal.IsOfAccount := by
  unfold refusal? at h
  split at h
  · split at h
    · rename_i hreserve
      rw [← Option.some.inj h]
      exact Account.reserve_refusal hreserve
    · cases h
  · cases h

namespace Trader

private theorem exitPlan_unmoved (quote : Option Quote) (ts : Timestamp) (trader : Trader) :
    (exitPlan quote ts trader).Unmoved := by
  unfold exitPlan
  split
  · trivial
  · simp only
    split
    · trivial
    · trivial
    · unfold closePlan
      split
      · trivial
      · intro halt
        exact ⟨rfl, rfl⟩

private theorem entryPlan_unmoved (composite : Composite) (quote : Option Quote) (trader : Trader) :
    (entryPlan composite quote trader).Unmoved := by
  unfold entryPlan
  split
  · trivial
  · split
    · trivial
    · trivial

end Trader

namespace Desk

private theorem trader_setTrader (desk : Desk) (trader : Trader) :
    (desk.setTrader trader).trader = trader := rfl

private theorem entryPlan_unmoved (ts : Timestamp) (composite : Option Composite) (desk : Desk) :
    (entryPlan ts composite desk).Unmoved := by
  cases composite with
  | none => trivial
  | some composite =>
    apply Plan.Unmoved.andThen
    apply Plan.unmoved_focus trader_setTrader
    exact Trader.entryPlan_unmoved composite _ _

theorem recordPlan_unmoved (composer : Composer) (record : Record) (desk : Desk) :
    (recordPlan composer record desk).Unmoved := by
  unfold recordPlan
  simp only
  split
  · exact Plan.unmoved_after (entryPlan_unmoved record.ts) _
  · apply Plan.Unmoved.andThen
    apply Plan.unmoved_focus trader_setTrader
    exact Trader.exitPlan_unmoved _ _ _

end Desk

end SignalDesk
