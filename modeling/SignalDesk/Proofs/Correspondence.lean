import SignalDesk.Risk.Plan
import SignalDesk.Proofs.Act

/-!
# Work that corresponds

Two pieces of work correspond if both yield related values or both are given up for the same reason,
and if they leave related states either way. Two plans correspond if they also ask the same of the
account. What corresponds can be put together, and plans that correspond change the account alike.
-/

namespace SignalDesk

variable {σ σ' τ τ' α α' β β' : Type}

/-- Related values, or one reason for giving up. -/
inductive Agree (values : α → α' → Prop) : Except Abort α → Except Abort α' → Prop
  | ok {a : α} {a' : α'} (h : values a a') : Agree values (.ok a) (.ok a')
  | gaveUp (abort : Abort) : Agree values (.error abort) (.error abort)

namespace Agree

theorem refl {values : α → α → Prop} (h : ∀ a, values a a) (outcome : Except Abort α) :
    Agree values outcome outcome := by
  cases outcome with
  | error abort => exact .gaveUp abort
  | ok a => exact .ok (h a)

theorem map_iff {f : α → β} {outcome : Except Abort α} {outcome' : Except Abort β} :
    Agree (fun a b => b = f a) outcome outcome' ↔ outcome' = outcome.map f := by
  constructor
  · intro h
    cases h with
    | ok h => exact congrArg Except.ok h
    | gaveUp abort => rfl
  · rintro rfl
    cases outcome with
    | error abort => exact .gaveUp abort
    | ok a => exact .ok rfl

end Agree

namespace Attempt

/-- The outcomes agree and the states are related. -/
structure Corresponds (states : σ → σ' → Prop) (values : α → α' → Prop) (attempt : Attempt σ α)
    (attempt' : Attempt σ' α') : Prop where
  outcome : Agree values attempt.outcome attempt'.outcome
  state : states attempt.state attempt'.state

variable {states : σ → σ' → Prop} {values : α → α' → Prop} {results : β → β' → Prop} {s : σ} {s' : σ'}

theorem Corresponds.bind {act : Act σ α} {act' : Act σ' α'} {next : α → Act σ β}
    {next' : α' → Act σ' β'} (h : (act s).Corresponds states values (act' s'))
    (hnext : ∀ a a' t t', values a a' → states t t' →
      (next a t).Corresponds states results (next' a' t')) :
    ((act >>= next) s).Corresponds states results ((act' >>= next') s') := by
  change (Act.bind act next s).Corresponds states results (Act.bind act' next' s')
  unfold Act.bind
  revert h
  rcases act s with ⟨outcome, t, notices⟩
  rcases act' s' with ⟨outcome', t', notices'⟩
  rintro ⟨hout, hstate⟩
  cases hout with
  | gaveUp abort => exact ⟨.gaveUp abort, hstate⟩
  | ok hvalue =>
    obtain ⟨hout, hstate⟩ := hnext _ _ t t' hvalue hstate
    exact ⟨hout, hstate⟩

theorem corresponds_pure {a : α} {a' : α'} (hvalue : values a a') (hstate : states s s') :
    ((Pure.pure a : Act σ α) s).Corresponds states values ((Pure.pure a' : Act σ' α') s') :=
  ⟨.ok hvalue, hstate⟩

theorem corresponds_get (hstate : states s s') :
    ((Act.get : Act σ σ) s).Corresponds states states ((Act.get : Act σ' σ') s') :=
  ⟨.ok hstate, hstate⟩

theorem corresponds_notify (notices notices' : List Notice) (hstate : states s s') :
    ((Act.notify notices : Act σ Unit) s).Corresponds states (fun _ _ => True)
      ((Act.notify notices' : Act σ' Unit) s') :=
  ⟨.ok trivial, hstate⟩

theorem corresponds_set {next : σ} {next' : σ'} (h : states next next') :
    (Act.set next s).Corresponds states (fun _ _ => True) (Act.set next' s') :=
  ⟨.ok trivial, h⟩

theorem corresponds_lift {result : Except Abort α} {result' : Except Abort α'}
    (h : Agree values result result') (hstate : states s s') :
    ((Act.lift result : Act σ α) s).Corresponds states values
      ((Act.lift result' : Act σ' α') s') :=
  ⟨h, hstate⟩

theorem Corresponds.focus (inner : τ → τ' → Prop) {part : σ → τ} {part' : σ' → τ'}
    {replace : σ → τ → σ} {replace' : σ' → τ' → σ'} {act : Act τ α} {act' : Act τ' α'}
    (h : (act (part s)).Corresponds inner values (act' (part' s')))
    (hreplace : ∀ t t', inner t t' → states (replace s t) (replace' s' t')) :
    (Act.focus part replace act s).Corresponds states values
      (Act.focus part' replace' act' s') :=
  ⟨h.outcome, hreplace _ _ h.state⟩

end Attempt

namespace Plan

/-- Both plans are done alike, or both ask the same and go on alike after every reply. -/
inductive Corresponds (states : σ → σ' → Prop) (values : α → α' → Prop) :
    Plan σ α → Plan σ' α' → Prop
  | done {attempt : Attempt σ α} {attempt' : Attempt σ' α'}
      (h : attempt.Corresponds states values attempt') :
      Corresponds states values (.done attempt) (.done attempt')
  | ask {request : Request} {s : σ} {s' : σ'} {notices notices' : List Notice}
      {resume : request.Reply → Act σ α} {resume' : request.Reply → Act σ' α'}
      (hstate : states s s')
      (hresume : ∀ reply, (resume reply s).Corresponds states values (resume' reply s')) :
      Corresponds states values (.ask request s notices resume) (.ask request s' notices' resume')

variable {states : σ → σ' → Prop} {values : α → α' → Prop} {results : β → β' → Prop} {s : σ} {s' : σ'}

theorem Corresponds.andThen {plan : Plan σ α} {plan' : Plan σ' α'} {next : α → Act σ β}
    {next' : α' → Act σ' β'} (h : plan.Corresponds states values plan')
    (hnext : ∀ a a' t t', values a a' → states t t' →
      (next a t).Corresponds states results (next' a' t')) :
    (plan.andThen next).Corresponds states results (plan'.andThen next') := by
  cases h with
  | @done attempt attempt' h =>
    have hact : ((fun _ => attempt : Act σ α) attempt.state).Corresponds states values
        ((fun _ => attempt' : Act σ' α') attempt'.state) := h
    exact .done (hact.bind hnext)
  | ask hstate hresume => exact .ask hstate fun reply => (hresume reply).bind hnext

theorem Corresponds.after {act : Act σ α} {act' : Act σ' α'} {next : α → σ → Plan σ β}
    {next' : α' → σ' → Plan σ' β'} (h : (act s).Corresponds states values (act' s'))
    (hnext : ∀ a a' t t', values a a' → states t t' →
      (next a t).Corresponds states results (next' a' t')) :
    (after act next s).Corresponds states results (after act' next' s') := by
  unfold Plan.after
  revert h
  rcases act s with ⟨outcome, t, notices⟩
  rcases act' s' with ⟨outcome', t', notices'⟩
  rintro ⟨hout, hstate⟩
  cases hout with
  | gaveUp abort => exact .done ⟨.gaveUp abort, hstate⟩
  | @ok a a' hvalue =>
    have hplan := hnext a a' t t' hvalue hstate
    simp only
    generalize next a t = plan at hplan
    generalize next' a' t' = plan' at hplan
    cases hplan with
    | done h => exact .done ⟨h.outcome, h.state⟩
    | ask hstate hresume => exact .ask hstate hresume

theorem Corresponds.focus {inner : τ → τ' → Prop} {part : σ → τ} {part' : σ' → τ'}
    {replace : σ → τ → σ} {replace' : σ' → τ' → σ'} {plan : τ → Plan τ α} {plan' : τ' → Plan τ' α'}
    (h : (plan (part s)).Corresponds inner values (plan' (part' s'))) (hstate : states s s')
    (hpart : ∀ s t, part (replace s t) = t) (hpart' : ∀ s t, part' (replace' s t) = t)
    (hreplace : ∀ s s' t t', states s s' → inner t t' → states (replace s t) (replace' s' t')) :
    (focus part replace plan s).Corresponds states values (focus part' replace' plan' s') := by
  unfold Plan.focus
  generalize plan (part s) = p at h
  generalize plan' (part' s') = p' at h
  cases h with
  | done h => exact .done ⟨h.outcome, hreplace _ _ _ _ hstate h.state⟩
  | ask hinner hresume =>
    have hasked := hreplace _ _ _ _ hstate hinner
    refine .ask hasked fun reply => Attempt.Corresponds.focus inner ?_ fun t t' =>
      hreplace _ _ t t' hasked
    rw [hpart, hpart']
    exact hresume reply

/-- Plans that correspond do the same to the account. -/
theorem Corresponds.consult {plan : Plan σ α} {plan' : Plan σ' α'}
    (h : plan.Corresponds states values plan') (account : Account) :
    (plan.consult account).1.Corresponds states values (plan'.consult account).1 ∧
      (plan'.consult account).2 = (plan.consult account).2 := by
  cases h with
  | done h => exact ⟨h, rfl⟩
  | @ask request s s' notices notices' resume resume' hstate hresume =>
    simp only [Plan.consult]
    rcases Account.answer request account with ⟨outcome, after, later⟩
    cases outcome with
    | error abort => exact ⟨⟨.gaveUp abort, hstate⟩, rfl⟩
    | ok reply => exact ⟨⟨(hresume reply).outcome, (hresume reply).state⟩, rfl⟩

theorem Corresponds.run {plan : Plan σ α} {plan' : Plan σ' α'}
    (h : plan.Corresponds states values plan') (s : σ) (s' : σ') (account : Account) :
    (plan.run (s, account)).Corresponds (fun t t' => states t.1 t'.1 ∧ t'.2 = t.2) values
      (plan'.run (s', account)) := by
  obtain ⟨hattempt, haccount⟩ := h.consult account
  exact ⟨hattempt.outcome, hattempt.state, haccount⟩

end Plan

end SignalDesk
