import SignalDesk.Proofs.Account

/-!
# Carrying out plans

A plan is carried out against the account by answering its one request, if it has one.
-/

namespace SignalDesk.Plan

open Act

variable {σ τ α β : Type} {s s' : σ} {account account' : Account}

theorem run_done_yields_iff {attempt : Attempt σ α} {a : α} :
    (done attempt).run.Yields (s, account) a (s', account') ↔
      attempt.outcome = .ok a ∧ attempt.state = s' ∧ account = account' := by
  change attempt.outcome = .ok a ∧ (attempt.state, account) = (s', account') ↔ _
  rw [Prod.mk.injEq]

theorem run_ask_yields_iff {request : Request} {state : σ} {notices : List Notice}
    {resume : request.Reply → Act σ α} {a : α} :
    (ask request state notices resume).run.Yields (s, account) a (s', account') ↔
      ∃ reply, (Account.answer request).Yields account reply account' ∧
        (resume reply).Yields state a s' := by
  simp only [Yields, run, consult]
  rcases Account.answer request account with ⟨outcome, after, later⟩
  cases outcome with
  | error abort => simp
  | ok reply =>
    simp only [Prod.mk.injEq, Except.ok.injEq]
    constructor
    · rintro ⟨hout, hs, ha⟩
      exact ⟨reply, ⟨rfl, ha⟩, hout, hs⟩
    · rintro ⟨_, ⟨rfl, ha⟩, hout, hs⟩
      exact ⟨hout, hs, ha⟩

theorem run_focus_yields {part : σ → τ} {replace : σ → τ → σ} {plan : τ → Plan τ α} {a : α}
    (hpart : ∀ s t, part (replace s t) = t) (htwice : ∀ s t u, replace (replace s t) u = replace s u)
    (h : (focus part replace plan s).run.Yields (s, account) a (s', account')) :
    ∃ t, (plan (part s)).run.Yields (part s, account) a (t, account') ∧ s' = replace s t := by
  unfold focus at h
  cases hplan : plan (part s) with
  | done attempt =>
    rw [hplan] at h
    obtain ⟨hout, hs, ha⟩ := run_done_yields_iff.1 h
    exact ⟨attempt.state, run_done_yields_iff.2 ⟨hout, rfl, ha⟩, hs.symm⟩
  | ask request inner notices resume =>
    rw [hplan] at h
    obtain ⟨reply, hanswer, hout, hs⟩ := run_ask_yields_iff.1 h
    simp only [Act.focus, hpart] at hout hs
    refine ⟨(resume reply inner).state, run_ask_yields_iff.2 ⟨reply, hanswer, hout, rfl⟩, ?_⟩
    rw [← hs, htwice]

theorem run_after_yields {act : Act σ α} {next : α → σ → Plan σ β} {b : β}
    (h : (after act next s).run.Yields (s, account) b (s', account')) :
    ∃ a s₁, act.Yields s a s₁ ∧ (next a s₁).run.Yields (s₁, account) b (s', account') := by
  unfold after at h
  split at h
  · obtain ⟨hout, -⟩ := run_done_yields_iff.1 h
    cases hout
  · rename_i a s₁ notices hact
    refine ⟨a, s₁, by rw [Yields, hact]; exact ⟨rfl, rfl⟩, ?_⟩
    split at h
    · rename_i attempt hnext
      obtain ⟨hout, hs, ha⟩ := run_done_yields_iff.1 h
      rw [hnext]
      exact run_done_yields_iff.2 ⟨hout, hs, ha⟩
    · rename_i request state later resume hnext
      obtain ⟨reply, hanswer, hresume⟩ := run_ask_yields_iff.1 h
      rw [hnext]
      exact run_ask_yields_iff.2 ⟨reply, hanswer, hresume⟩

theorem run_andThen_yields_iff {plan : Plan σ α} {next : α → Act σ β} {b : β} :
    (plan.andThen next).run.Yields (s, account) b (s', account') ↔
      ∃ a s₁, plan.run.Yields (s, account) a (s₁, account') ∧ (next a).Yields s₁ b s' := by
  cases plan with
  | done attempt =>
    have hbind : ((fun _ => attempt : Act σ α) >>= next).Yields attempt.state b s' ↔
        ∃ a s₁, (attempt.outcome = .ok a ∧ attempt.state = s₁) ∧ (next a).Yields s₁ b s' :=
      yields_bind_iff
    rw [andThen, run_done_yields_iff, ← and_assoc]
    refine (and_congr_left' hbind).trans ?_
    simp only [run_done_yields_iff]
    constructor
    · rintro ⟨⟨a, s₁, ⟨ha, hs⟩, hnext⟩, rfl⟩
      exact ⟨a, s₁, ⟨ha, hs, rfl⟩, hnext⟩
    · rintro ⟨a, s₁, ⟨ha, hs, rfl⟩, hnext⟩
      exact ⟨⟨a, s₁, ⟨ha, hs⟩, hnext⟩, rfl⟩
  | ask request state notices resume =>
    have hbind (reply : request.Reply) : (Act.bind (resume reply) next).Yields state b s' ↔
        ∃ a s₁, (resume reply).Yields state a s₁ ∧ (next a).Yields s₁ b s' :=
      yields_bind_iff
    simp only [andThen, run_ask_yields_iff, hbind]
    constructor
    · rintro ⟨reply, hreply, a, s₁, hresume, hnext⟩
      exact ⟨a, s₁, ⟨reply, hreply, hresume⟩, hnext⟩
    · rintro ⟨a, s₁, ⟨reply, hreply, hresume⟩, hnext⟩
      exact ⟨reply, hreply, a, s₁, hresume, hnext⟩

theorem run_andThen_pure (plan : Plan σ α) (f : α → β) (state : σ × Account) :
    (plan.andThen fun a => pure (f a)).run state =
      ⟨(plan.run state).outcome.map f, (plan.run state).state, (plan.run state).notices⟩ := by
  have hbind (act : Act σ α) (s : σ) : Act.bind act (fun a => pure (f a)) s =
      ⟨(act s).outcome.map f, (act s).state, (act s).notices⟩ := by
    simp only [Act.bind]
    rcases act s with ⟨outcome, s₁, notices⟩
    cases outcome with
    | error abort => rfl
    | ok a =>
      change (⟨.ok (f a), s₁, notices ++ []⟩ : Attempt σ β) = _
      rw [List.append_nil]
      rfl
  cases plan with
  | done attempt =>
    exact congrArg (fun rest : Attempt σ β =>
      (⟨rest.outcome, (rest.state, state.2), rest.notices⟩ : Attempt (σ × Account) β))
      (hbind (fun _ => attempt) attempt.state)
  | ask request waiting notices resume =>
    simp only [andThen, run, consult, hbind]
    rcases Account.answer request state.2 with ⟨outcome, after, later⟩
    cases outcome <;> rfl

theorem run_done_total {attempt : Attempt σ α} {a : α} (h : attempt.outcome = .ok a) :
    (done attempt).run.Total (s, account) :=
  (run_done_yields_iff.2 ⟨h, rfl, rfl⟩).total

theorem run_ask_total {request : Request} {state : σ} {notices : List Notice}
    {resume : request.Reply → Act σ α} (h : (Account.answer request).Total account)
    (hresume : ∀ reply, (resume reply).Total state) :
    (ask request state notices resume).run.Total (s, account) := by
  obtain ⟨reply, account', hanswer⟩ := h
  obtain ⟨a, s', hrest⟩ := hresume reply
  exact (run_ask_yields_iff.2 ⟨reply, hanswer, hrest⟩).total

theorem run_andThen_total {plan : Plan σ α} {next : α → Act σ β} (h : plan.run.Total (s, account))
    (hnext : ∀ a s, (next a).Total s) : (plan.andThen next).run.Total (s, account) := by
  obtain ⟨a, ⟨s₁, account'⟩, hplan⟩ := h
  obtain ⟨b, s', hrest⟩ := hnext a s₁
  exact (run_andThen_yields_iff.2 ⟨a, s₁, hplan, hrest⟩).total

theorem run_focus_total {part : σ → τ} {replace : σ → τ → σ} {plan : τ → Plan τ α}
    (hpart : ∀ s t, part (replace s t) = t)
    (h : (plan (part s)).run.Total (part s, account)) :
    (focus part replace plan s).run.Total (s, account) := by
  obtain ⟨a, ⟨t, account'⟩, hplan⟩ := h
  unfold focus
  cases hcase : plan (part s) with
  | done attempt =>
    rw [hcase] at hplan
    exact run_done_total (run_done_yields_iff.1 hplan).1
  | ask request inner notices resume =>
    rw [hcase] at hplan
    obtain ⟨reply, hanswer, hresume⟩ := run_ask_yields_iff.1 hplan
    have hfocus : (Act.focus part replace (resume reply)).Yields (replace s inner) a
        (replace (replace s inner) t) := yields_focus_iff.2 ⟨t, by rwa [hpart], rfl⟩
    exact (run_ask_yields_iff.2 ⟨reply, hanswer, hfocus⟩).total

theorem run_after_total {act : Act σ α} {next : α → σ → Plan σ β} {a : α} {s₁ : σ}
    (hact : act.Yields s a s₁) (h : (next a s₁).run.Total (s₁, account)) :
    (after act next s).run.Total (s, account) := by
  obtain ⟨b, ⟨s', account'⟩, hnext⟩ := h
  obtain ⟨hout, hstate⟩ := hact
  unfold after
  rcases hact : act s with ⟨outcome, state, notices⟩
  rw [hact] at hout hstate
  simp only at hout hstate
  subst hout hstate
  simp only
  cases hcase : next a state with
  | done attempt =>
    rw [hcase] at hnext
    exact run_done_total (run_done_yields_iff.1 hnext).1
  | ask request waiting later resume =>
    rw [hcase] at hnext
    exact (run_ask_yields_iff.2 (run_ask_yields_iff.1 hnext)).total

/-- Whatever the account replies, and even if the plan is given up, it leaves a state that satisfies
`holds`. -/
def Keeps (holds : σ → Prop) : Plan σ α → Prop
  | done attempt => holds attempt.state
  | ask request state _ resume =>
    holds state ∧ ∀ reply : request.Reply, holds (resume reply state).state

section keeps

variable {holds : σ → Prop} {plan : Plan σ α}

theorem Keeps.run (h : plan.Keeps holds) (s : σ) (account : Account) :
    holds (plan.run (s, account)).state.1 := by
  cases plan with
  | done attempt => exact h
  | ask request state notices resume =>
    simp only [Plan.run, consult]
    rcases Account.answer request account with ⟨outcome, after, later⟩
    cases outcome with
    | error abort => exact h.1
    | ok reply => exact h.2 reply

private theorem bind_state {act : Act σ α} {next : α → Act σ β} (hact : holds (act s).state)
    (hnext : ∀ a s, holds s → holds (next a s).state) : holds (Act.bind act next s).state := by
  unfold Act.bind
  revert hact
  rcases act s with ⟨outcome, state, notices⟩
  intro hact
  cases outcome with
  | error abort => exact hact
  | ok a => exact hnext a state hact

theorem Keeps.andThen (h : plan.Keeps holds) {next : α → Act σ β}
    (hnext : ∀ a s, holds s → holds (next a s).state) : (plan.andThen next).Keeps holds := by
  cases plan with
  | done attempt =>
    have hdone : holds ((fun _ => attempt : Act σ α) attempt.state).state := h
    exact bind_state hdone hnext
  | ask request state notices resume => exact ⟨h.1, fun reply => bind_state (h.2 reply) hnext⟩

theorem Keeps.mono {weaker : σ → Prop} (h : plan.Keeps holds) (hmono : ∀ s, holds s → weaker s) :
    plan.Keeps weaker := by
  cases plan with
  | done attempt => exact hmono _ h
  | ask request state notices resume => exact ⟨hmono _ h.1, fun reply => hmono _ (h.2 reply)⟩

/-- What holds after the work in front of a plan may be more than what the plan keeps. -/
theorem keeps_after {before : σ → Prop} {act : Act σ α} {next : α → σ → Plan σ β}
    (hmono : ∀ s, before s → holds s) (hact : before (act s).state)
    (hnext : ∀ a s', act.Yields s a s' → before s' → (next a s').Keeps holds) :
    (after act next s).Keeps holds := by
  unfold after
  rcases hattempt : act s with ⟨outcome, state, notices⟩
  rw [hattempt] at hact
  cases outcome with
  | error abort => exact hmono _ hact
  | ok a =>
    have hkeeps := hnext a state (by rw [Yields, hattempt]; exact ⟨rfl, rfl⟩) hact
    change Keeps holds (match next a state with
      | done attempt => _
      | ask request waiting later resume => _)
    cases hplan : next a state with
    | done attempt =>
      rw [hplan] at hkeeps
      exact hkeeps
    | ask request waiting later resume =>
      rw [hplan] at hkeeps
      exact hkeeps

theorem Keeps.focus {part : σ → τ} {replace : σ → τ → σ} {inner : τ → Prop} {plan : τ → Plan τ α}
    (hpart : ∀ s t, part (replace s t) = t)
    (hreplace : ∀ s t, holds s → inner t → holds (replace s t)) (hs : holds s)
    (h : (plan (part s)).Keeps inner) : (focus part replace plan s).Keeps holds := by
  unfold Plan.focus
  cases hplan : plan (part s) with
  | done attempt =>
    rw [hplan] at h
    exact hreplace _ _ hs h
  | ask request state notices resume =>
    rw [hplan] at h
    have hwaiting := hreplace _ _ hs h.1
    refine ⟨hwaiting, fun reply => ?_⟩
    simp only [Act.focus, hpart]
    exact hreplace _ _ hwaiting (h.2 reply)

theorem keeps_true (plan : Plan σ α) : plan.Keeps fun _ => True := by
  cases plan with
  | done attempt => trivial
  | ask request state notices resume => exact ⟨trivial, fun _ => trivial⟩

end keeps

/-- A plan moves the account at most once, given up or not, and never clears a halt. -/
theorem run_account (plan : Plan σ α) (s : σ) (account : Account) :
    (plan.run (s, account)).state.2 = account ∨ ∃ movement, movement ≠ .clearHalt ∧
      (plan.run (s, account)).state.2 = account.after movement := by
  cases plan with
  | done attempt => exact .inl rfl
  | ask request state notices resume =>
    obtain ⟨movement, hne, hstate⟩ := Account.answer_state request account
    refine .inr ⟨movement, hne, ?_⟩
    simp only [← hstate, run, consult]
    rcases Account.answer request account with ⟨outcome, after, later⟩
    cases outcome <;> rfl

end SignalDesk.Plan
