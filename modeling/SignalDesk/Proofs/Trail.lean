import SignalDesk.Proofs.Plan

/-!
# The trail that work leaves

An action that is not given up leaves its notices, one part after the other. So the trail of an action
or of a plan is told by its parts, like what it yields and the state that it leaves.
-/

namespace SignalDesk

namespace Act

variable {σ τ α β : Type} {s s' : σ} {trail : List Notice}

/-- The action is carried out on `s`, yields `a` and leaves `s'` and a trail. -/
def Leaves (act : Act σ α) (s : σ) (a : α) (s' : σ) (trail : List Notice) : Prop :=
  act s = ⟨.ok a, s', trail⟩

theorem Yields.leaves {act : Act σ α} {a : α} (h : act.Yields s a s') :
    act.Leaves s a s' (act s).notices := by
  obtain ⟨hout, rfl⟩ := h
  unfold Leaves
  revert hout
  rcases act s with ⟨outcome, state, notices⟩
  rintro rfl
  rfl

theorem Leaves.yields {act : Act σ α} {a : α} (h : act.Leaves s a s' trail) : act.Yields s a s' := by
  rw [Yields, h]
  exact ⟨rfl, rfl⟩

theorem leaves_pure_iff {a b : α} :
    (pure a : Act σ α).Leaves s b s' trail ↔ b = a ∧ s' = s ∧ trail = [] := by
  change (⟨.ok a, s, []⟩ : Attempt σ α) = ⟨.ok b, s', trail⟩ ↔ _
  simp only [Attempt.mk.injEq, Except.ok.injEq, eq_comm]

theorem leaves_notify_iff {notices : List Notice} {a : Unit} :
    (Act.notify notices : Act σ Unit).Leaves s a s' trail ↔ s' = s ∧ trail = notices := by
  change (⟨.ok (), s, notices⟩ : Attempt σ Unit) = ⟨.ok a, s', trail⟩ ↔ _
  simp only [Attempt.mk.injEq, true_and, eq_comm]

theorem leaves_lift_iff {result : Except Abort α} {a : α} :
    (Act.lift result : Act σ α).Leaves s a s' trail ↔ result = .ok a ∧ s' = s ∧ trail = [] := by
  change (⟨result, s, []⟩ : Attempt σ α) = ⟨.ok a, s', trail⟩ ↔ _
  simp only [Attempt.mk.injEq, eq_comm]

theorem leaves_focus_iff {part : σ → τ} {replace : σ → τ → σ} {act : Act τ α} {a : α} :
    (Act.focus part replace act).Leaves s a s' trail ↔
      ∃ t, act.Leaves (part s) a t trail ∧ s' = replace s t := by
  simp only [Leaves, Act.focus]
  rcases act (part s) with ⟨outcome, t, notices⟩
  simp only [Attempt.mk.injEq]
  constructor
  · rintro ⟨hout, rfl, htrail⟩
    exact ⟨t, ⟨hout, rfl, htrail⟩, rfl⟩
  · rintro ⟨_, ⟨hout, rfl, htrail⟩, rfl⟩
    exact ⟨hout, rfl, htrail⟩

theorem leaves_bind_iff {act : Act σ α} {next : α → Act σ β} {b : β} :
    (act >>= next).Leaves s b s' trail ↔ ∃ a s₁ first rest, act.Leaves s a s₁ first ∧
      (next a).Leaves s₁ b s' rest ∧ trail = first ++ rest := by
  change Act.bind act next s = _ ↔ _
  unfold Leaves Act.bind
  rcases act s with ⟨outcome, s₁, first⟩
  cases outcome with
  | error abort => simp
  | ok a =>
    simp only [Attempt.mk.injEq]
    constructor
    · rintro ⟨hout, hstate, rfl⟩
      exact ⟨a, s₁, first, _, ⟨rfl, rfl, rfl⟩, by rw [← hout, ← hstate], rfl⟩
    · rintro ⟨_, _, _, rest, ⟨ha, rfl, rfl⟩, hnext, rfl⟩
      cases ha
      rw [hnext]
      exact ⟨rfl, rfl, rfl⟩

theorem leaves_get_bind_iff {next : σ → Act σ β} {b : β} :
    ((Act.get : Act σ σ) >>= next).Leaves s b s' trail ↔ (next s).Leaves s b s' trail := by
  have hget {a s₁ first} : (Act.get : Act σ σ).Leaves s a s₁ first ↔ s = a ∧ s = s₁ ∧ [] = first := by
    change (⟨.ok s, s, []⟩ : Attempt σ σ) = ⟨.ok a, s₁, first⟩ ↔ _
    rw [Attempt.mk.injEq, Except.ok.injEq]
  simp [leaves_bind_iff, hget]

theorem leaves_modify_bind_iff {f : σ → σ} {next : Unit → Act σ β} {b : β} :
    (Act.modify f >>= next).Leaves s b s' trail ↔ (next ()).Leaves (f s) b s' trail := by
  have hmodify {a s₁ first} : (Act.modify f).Leaves s a s₁ first ↔ f s = s₁ ∧ [] = first := by
    change (⟨.ok (), f s, []⟩ : Attempt σ Unit) = ⟨.ok a, s₁, first⟩ ↔ _
    rw [Attempt.mk.injEq, Except.ok.injEq, eq_self_iff_true, true_and]
  simp [leaves_bind_iff, hmodify, Unique.exists_iff]

theorem leaves_set_bind_iff {t : σ} {next : Unit → Act σ β} {b : β} :
    (Act.set t >>= next).Leaves s b s' trail ↔ (next ()).Leaves t b s' trail :=
  leaves_modify_bind_iff (f := fun _ => t)

theorem leaves_notify_bind_iff {notices : List Notice} {next : Unit → Act σ β} {b : β} :
    ((Act.notify notices : Act σ Unit) >>= next).Leaves s b s' trail ↔
      ∃ rest, (next ()).Leaves s b s' rest ∧ trail = notices ++ rest := by
  simp [leaves_bind_iff, leaves_notify_iff, Unique.exists_iff]

theorem leaves_lift_bind_iff {result : Except Abort α} {next : α → Act σ β} {b : β} :
    ((Act.lift result : Act σ α) >>= next).Leaves s b s' trail ↔
      ∃ a, result = .ok a ∧ (next a).Leaves s b s' trail := by
  simp [leaves_bind_iff, leaves_lift_iff]

end Act

namespace Plan

open Act

variable {σ τ α β : Type} {s s' : σ} {account account' : Account} {trail : List Notice}

theorem run_done_leaves_iff {attempt : Attempt σ α} {a : α} :
    (done attempt).run.Leaves (s, account) a (s', account') trail ↔
      attempt = ⟨.ok a, s', trail⟩ ∧ account = account' := by
  rcases attempt with ⟨outcome, state, notices⟩
  change (⟨outcome, (state, account), notices⟩ : Attempt (σ × Account) α) = _ ↔ _
  simp only [Attempt.mk.injEq, Prod.mk.injEq]
  constructor
  · rintro ⟨hout, ⟨hstate, haccount⟩, htrail⟩
    exact ⟨⟨hout, hstate, htrail⟩, haccount⟩
  · rintro ⟨⟨hout, hstate, htrail⟩, haccount⟩
    exact ⟨hout, ⟨hstate, haccount⟩, htrail⟩

/-- The notices of the account stand between those of the request and those of the rest. -/
theorem run_ask_leaves_iff {request : Request} {state : σ} {notices : List Notice}
    {resume : request.Reply → Act σ α} {a : α} :
    (ask request state notices resume).run.Leaves (s, account) a (s', account') trail ↔
      ∃ reply later rest, (Account.answer request).Leaves account reply account' later ∧
        (resume reply).Leaves state a s' rest ∧ trail = notices ++ later ++ rest := by
  simp only [Leaves, run, consult]
  rcases Account.answer request account with ⟨outcome, after, later⟩
  cases outcome with
  | error abort => simp
  | ok reply =>
    simp only [Attempt.mk.injEq, Prod.mk.injEq, Except.ok.injEq]
    constructor
    · rintro ⟨hout, ⟨hstate, haccount⟩, rfl⟩
      exact ⟨reply, later, _, ⟨rfl, haccount, rfl⟩, by rw [← hout, ← hstate], rfl⟩
    · rintro ⟨_, _, rest, ⟨rfl, haccount, rfl⟩, hrest, rfl⟩
      rw [hrest]
      exact ⟨rfl, ⟨rfl, haccount⟩, rfl⟩

theorem run_focus_leaves {part : σ → τ} {replace : σ → τ → σ} {plan : τ → Plan τ α} {a : α}
    (hpart : ∀ s t, part (replace s t) = t)
    (h : (focus part replace plan s).run.Leaves (s, account) a (s', account') trail) :
    ∃ t, (plan (part s)).run.Leaves (part s, account) a (t, account') trail := by
  unfold focus at h
  cases hplan : plan (part s) with
  | done attempt =>
    rw [hplan, run_done_leaves_iff] at h
    obtain ⟨hattempt, rfl⟩ := h
    simp only [Attempt.mk.injEq] at hattempt
    obtain ⟨hout, -, htrail⟩ := hattempt
    exact ⟨attempt.state, run_done_leaves_iff.2 ⟨by rw [← hout, ← htrail], rfl⟩⟩
  | ask request inner notices resume =>
    rw [hplan, run_ask_leaves_iff] at h
    obtain ⟨reply, later, rest, hanswer, hresume, rfl⟩ := h
    obtain ⟨t, hinner, -⟩ := leaves_focus_iff.1 hresume
    rw [hpart] at hinner
    exact ⟨t, run_ask_leaves_iff.2 ⟨reply, later, rest, hanswer, hinner, rfl⟩⟩

theorem run_after_leaves {act : Act σ α} {next : α → σ → Plan σ β} {b : β}
    (h : (after act next s).run.Leaves (s, account) b (s', account') trail) :
    ∃ a s₁ first rest, act.Leaves s a s₁ first ∧
      (next a s₁).run.Leaves (s₁, account) b (s', account') rest ∧ trail = first ++ rest := by
  unfold after at h
  split at h
  · obtain ⟨hattempt, -⟩ := run_done_leaves_iff.1 h
    cases hattempt
  · rename_i a s₁ first hact
    split at h
    · rename_i attempt hnext
      obtain ⟨hattempt, rfl⟩ := run_done_leaves_iff.1 h
      simp only [Attempt.mk.injEq] at hattempt
      obtain ⟨hout, hstate, rfl⟩ := hattempt
      refine ⟨a, s₁, first, attempt.notices, hact, ?_, rfl⟩
      rw [hnext, run_done_leaves_iff]
      exact ⟨by rw [← hout, ← hstate], rfl⟩
    · rename_i request state later resume hnext
      obtain ⟨reply, middle, rest, hanswer, hresume, rfl⟩ := run_ask_leaves_iff.1 h
      refine ⟨a, s₁, first, later ++ middle ++ rest, hact, ?_, by simp only [List.append_assoc]⟩
      rw [hnext, run_ask_leaves_iff]
      exact ⟨reply, middle, rest, hanswer, hresume, rfl⟩

theorem run_andThen_leaves {plan : Plan σ α} {next : α → Act σ β} {b : β}
    (h : (plan.andThen next).run.Leaves (s, account) b (s', account') trail) :
    ∃ a s₁ first rest, plan.run.Leaves (s, account) a (s₁, account') first ∧
      (next a).Leaves s₁ b s' rest ∧ trail = first ++ rest := by
  cases plan with
  | done attempt =>
    obtain ⟨hbind, rfl⟩ := run_done_leaves_iff.1 h
    have hact : ((fun _ => attempt : Act σ α) >>= next).Leaves attempt.state b s' trail := hbind
    obtain ⟨a, s₁, first, rest, hfirst, hnext, rfl⟩ := leaves_bind_iff.1 hact
    exact ⟨a, s₁, first, rest, run_done_leaves_iff.2 ⟨hfirst, rfl⟩, hnext, rfl⟩
  | ask request state notices resume =>
    obtain ⟨reply, later, rest, hanswer, hresume, rfl⟩ := run_ask_leaves_iff.1 h
    have hbind : (resume reply >>= next).Leaves state b s' rest := hresume
    obtain ⟨a, s₁, middle, last, hfirst, hnext, rfl⟩ := leaves_bind_iff.1 hbind
    exact ⟨a, s₁, notices ++ later ++ middle, last,
      run_ask_leaves_iff.2 ⟨reply, later, middle, hanswer, hfirst, rfl⟩, hnext,
      by simp only [List.append_assoc]⟩

end Plan

end SignalDesk
