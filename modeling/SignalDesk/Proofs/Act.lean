import SignalDesk.Act

/-!
# What an action yields

An action that is not given up yields a value and leaves a state. The notices on the way are left
out, so that the lemmas below take an action apart into its parts.
-/

namespace SignalDesk

theorem bind_ok_iff {α β : Type} {result : Except Abort α} {next : α → Except Abort β} {b : β} :
    (result >>= next) = .ok b ↔ ∃ a, result = .ok a ∧ next a = .ok b := by
  cases result with
  | error abort => simp [bind, Except.bind]
  | ok a => simp [bind, Except.bind]

theorem pure_ok_iff {α : Type} {a b : α} : (pure a : Except Abort α) = .ok b ↔ a = b := by
  change Except.ok a = Except.ok b ↔ _
  rw [Except.ok.injEq]

theorem orAbort_ok_iff {α : Type} {abort : Abort} {a? : Option α} {a : α} :
    orAbort abort a? = .ok a ↔ a? = some a := by
  cases a? <;> simp [orAbort]

theorem exists_ok_of_any {α : Type} {result : Except Abort α} {check : α → Prop}
    [DecidablePred check] (h : result.toOption.any (fun a => check a) = true) :
    ∃ a, result = .ok a ∧ check a := by
  cases result with
  | error abort => cases h
  | ok a => exact ⟨a, rfl, of_decide_eq_true h⟩

theorem exists_some_of_any {α : Type} {result : Except Abort (Option α)} {check : α → Prop}
    [DecidablePred check]
    (h : (result.toOption.any fun answer => answer.any fun a => check a) = true) :
    ∃ a, result = .ok (some a) ∧ check a := by
  cases result with
  | error abort => cases h
  | ok answer =>
    cases answer with
    | none => cases h
    | some a => exact ⟨a, rfl, of_decide_eq_true h⟩

namespace Act

variable {σ α β : Type} {s s' : σ}

/-- The action is carried out on `s`, yields `a` and leaves `s'`. -/
def Yields (act : Act σ α) (s : σ) (a : α) (s' : σ) : Prop :=
  (act s).outcome = .ok a ∧ (act s).state = s'

theorem yields_of_outcome {act : Act σ α} {a : α} (h : (act s).outcome = .ok a) :
    act.Yields s a (act s).state :=
  ⟨h, rfl⟩

@[simp] theorem yields_pure_iff {a b : α} : (pure a : Act σ α).Yields s b s' ↔ b = a ∧ s' = s := by
  change (Except.ok a = Except.ok b ∧ s = s') ↔ _
  simp only [Except.ok.injEq, eq_comm]

@[simp] theorem yields_get_iff {a : σ} : (Act.get : Act σ σ).Yields s a s' ↔ a = s ∧ s' = s := by
  change (Except.ok s = Except.ok a ∧ s = s') ↔ _
  simp only [Except.ok.injEq, eq_comm]

@[simp] theorem yields_set_iff {t : σ} {a : Unit} : (Act.set t).Yields s a s' ↔ s' = t := by
  change (Except.ok () = Except.ok a ∧ t = s') ↔ _
  simp only [true_and, eq_comm]

@[simp] theorem yields_modify_iff {f : σ → σ} {a : Unit} :
    (Act.modify f).Yields s a s' ↔ s' = f s := by
  change (Except.ok () = Except.ok a ∧ f s = s') ↔ _
  simp only [true_and, eq_comm]

@[simp] theorem yields_notify_iff {notices : List Notice} {a : Unit} :
    (Act.notify notices : Act σ Unit).Yields s a s' ↔ s' = s := by
  change (Except.ok () = Except.ok a ∧ s = s') ↔ _
  simp only [true_and, eq_comm]

@[simp] theorem yields_lift_iff {result : Except Abort α} {a : α} :
    (Act.lift result : Act σ α).Yields s a s' ↔ result = .ok a ∧ s' = s := by
  change (result = Except.ok a ∧ s = s') ↔ _
  simp only [eq_comm]

theorem yields_focus_iff {τ : Type} {part : σ → τ} {replace : σ → τ → σ} {act : Act τ α} {a : α} :
    (Act.focus part replace act).Yields s a s' ↔ ∃ t, act.Yields (part s) a t ∧ s' = replace s t := by
  constructor
  · rintro ⟨hout, hstate⟩
    exact ⟨_, ⟨hout, rfl⟩, hstate.symm⟩
  · rintro ⟨t, ⟨hout, rfl⟩, rfl⟩
    exact ⟨hout, rfl⟩

theorem yields_bind_iff {act : Act σ α} {next : α → Act σ β} {b : β} :
    (act >>= next).Yields s b s' ↔ ∃ a s₁, act.Yields s a s₁ ∧ (next a).Yields s₁ b s' := by
  have hb : (act >>= next) s = Act.bind act next s := rfl
  unfold Yields
  rw [hb, Act.bind]
  rcases act s with ⟨outcome, s₁, notices⟩
  cases outcome with
  | error abort => simp
  | ok a =>
    constructor
    · intro h
      exact ⟨a, s₁, ⟨rfl, rfl⟩, h⟩
    · rintro ⟨_, _, ⟨ha, rfl⟩, h⟩
      cases ha
      exact h

/-- The action is not given up on `s`. -/
def Total (act : Act σ α) (s : σ) : Prop := ∃ a s', act.Yields s a s'

theorem total_iff {act : Act σ α} : act.Total s ↔ ∃ a, (act s).outcome = .ok a :=
  ⟨fun ⟨a, _, h⟩ => ⟨a, h.1⟩, fun ⟨a, h⟩ => ⟨a, _, h, rfl⟩⟩

theorem Yields.total {act : Act σ α} {a : α} (h : act.Yields s a s') : act.Total s := ⟨a, s', h⟩

@[simp] theorem total_pure (a : α) (s : σ) : (pure a : Act σ α).Total s := ⟨a, s, rfl, rfl⟩

theorem total_lift {result : Except Abort α} {a : α} (h : result = .ok a) (s : σ) :
    (Act.lift result : Act σ α).Total s :=
  ⟨a, s, yields_lift_iff.2 ⟨h, rfl⟩⟩

theorem total_focus {τ : Type} {part : σ → τ} {replace : σ → τ → σ} {act : Act τ α}
    (h : act.Total (part s)) : (Act.focus part replace act).Total s := by
  obtain ⟨a, t, ha⟩ := h
  exact ⟨a, _, yields_focus_iff.2 ⟨t, ha, rfl⟩⟩

theorem Yields.total_bind {act : Act σ α} {next : α → Act σ β} {a : α} (h : act.Yields s a s')
    (hnext : (next a).Total s') : (act >>= next).Total s := by
  obtain ⟨b, t, hb⟩ := hnext
  exact ⟨b, t, yields_bind_iff.2 ⟨a, s', h, hb⟩⟩

theorem total_get_bind {next : σ → Act σ β} (h : (next s).Total s) :
    ((Act.get : Act σ σ) >>= next).Total s :=
  (yields_get_iff.2 ⟨rfl, rfl⟩).total_bind h

theorem total_notify_bind {notices : List Notice} {next : Unit → Act σ β} (h : (next ()).Total s) :
    ((Act.notify notices : Act σ Unit) >>= next).Total s :=
  Yields.total_bind (a := ()) (yields_notify_iff.2 rfl) h

theorem total_lift_bind {result : Except Abort α} {next : α → Act σ β} {a : α} (h : result = .ok a)
    (hnext : (next a).Total s) : ((Act.lift result : Act σ α) >>= next).Total s :=
  (yields_lift_iff.2 ⟨h, rfl⟩).total_bind hnext

theorem total_set_bind {next : Unit → Act σ β} (h : (next ()).Total s') :
    (Act.set s' >>= next).Total s :=
  Yields.total_bind (a := ()) (yields_set_iff.2 rfl) h

end Act

end SignalDesk
