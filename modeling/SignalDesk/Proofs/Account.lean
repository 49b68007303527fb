import SignalDesk.Proofs.Portfolio.Movements
import SignalDesk.Risk.Plan

/-!
# The shared account

An operation on a live account is the operation of its portfolio. The account that an operation
leaves is the one that a movement of capital leads to, and the movement decides it whatever the
operation answers.
-/

namespace SignalDesk.Account

open Act

variable {α : Type}

theorem ofSettings_ok {settings : PortfolioSettings} {account : Account}
    (h : ofSettings settings = .ok account) :
    ∃ start, Portfolio.ofSettings settings = .ok start ∧ account = live start := by
  unfold ofSettings at h
  cases hstart : Portfolio.ofSettings settings with
  | error abort =>
    rw [hstart] at h
    cases h
  | ok start =>
    rw [hstart] at h
    exact ⟨start, rfl, (Except.ok.inj h).symm⟩

theorem within_live_yields {otherwise : α} {act : Act Portfolio α} {p : Portfolio} {a : α}
    {account : Account} (h : (within otherwise act).Yields (live p) a account) :
    ∃ q, act.Yields p a q ∧ account = live q := by
  obtain ⟨hout, hstate⟩ := h
  simp only [within] at hout hstate
  rcases hact : act p with ⟨outcome, q, notices⟩
  rw [hact] at hout hstate
  cases outcome with
  | error abort => cases hout
  | ok b => exact ⟨q, ⟨by rw [hact]; exact hout, by rw [hact]⟩, hstate.symm⟩

theorem within_live_total (otherwise : α) {act : Act Portfolio α} {p : Portfolio} (h : act.Total p) :
    (within otherwise act).Total (live p) := by
  obtain ⟨a, ha⟩ := total_iff.1 h
  refine total_iff.2 ⟨a, ?_⟩
  simp only [within]
  rcases hact : act p with ⟨outcome, q, notices⟩
  rw [hact] at ha
  simp only at ha
  subst ha
  rfl

theorem within_poisoned_yields {otherwise : α} {act : Act Portfolio α} {a : α} {account : Account}
    (h : (within otherwise act).Yields poisoned a account) : a = otherwise ∧ account = poisoned := by
  obtain ⟨hout, hstate⟩ := h
  exact ⟨(Except.ok.inj hout).symm, hstate.symm⟩

theorem reserve_refused {size : Decimal} {account account' : Account} {refusal : Refusal}
    (h : (reserve size).Yields account (.error refusal) account') : account' = account := by
  cases account with
  | poisoned => exact (within_poisoned_yields h).2
  | live p =>
    obtain ⟨q, hlive, rfl⟩ := within_live_yields h
    rcases Portfolio.reserve_yields hlive with ⟨-, rfl⟩ | ⟨hok, -⟩
    · rfl
    · cases hok

theorem clearHalt_live_yields {p : Portfolio} {account : Account}
    (h : clearHalt.Yields (live p) () account) :
    ∃ q, Portfolio.clearHalt.Yields p () q ∧ account = live q := by
  obtain ⟨q, hlive, rfl⟩ := within_live_yields h
  simp only [yields_bind_iff, yields_get_iff, yields_notify_iff] at hlive
  obtain ⟨_, r, hclear, _, _, ⟨-, rfl⟩, rfl⟩ := hlive
  exact ⟨_, hclear, rfl⟩

theorem clearHalt_live_total {p : Portfolio} (h : Portfolio.clearHalt.Total p) :
    clearHalt.Total (live p) := by
  obtain ⟨_, _, hclear⟩ := h
  exact within_live_total _
    (hclear.total_bind (total_get_bind (Yields.total (a := ()) (yields_notify_iff.2 rfl))))

/-- The account that a movement leads to. -/
def after (account : Account) (movement : Movement) : Account :=
  (within () movement.act account).state

theorem after_cases (account : Account) (movement : Movement) :
    account.after movement = poisoned ∨
      ∃ p q, account = live p ∧ account.after movement = live q ∧ movement.act.Yields p () q := by
  cases account with
  | poisoned => exact .inl rfl
  | live p =>
    simp only [after, within]
    rcases hact : movement.act p with ⟨outcome, q, notices⟩
    cases outcome with
    | error abort => exact .inl rfl
    | ok a => exact .inr ⟨p, q, rfl, rfl, by rw [hact], by rw [hact]⟩

private theorem within_bind_state {β : Type} (otherwise : α) (otherwise' : β)
    (act : Act Portfolio α) (next : α → Act Portfolio β)
    (hnext : ∀ a p, ∃ b, (next a).Yields p b p) (account : Account) :
    (within otherwise' (act >>= next) account).state = (within otherwise act account).state := by
  cases account with
  | poisoned => rfl
  | live p =>
    have hbind : (act >>= next) p = Act.bind act next p := rfl
    simp only [within]
    rw [hbind, Act.bind]
    rcases act p with ⟨outcome, q, notices⟩
    cases outcome with
    | error abort => rfl
    | ok a =>
      obtain ⟨b, hout, hstate⟩ := hnext a q
      simp only [hout, hstate]

private theorem reserve_state (size : Decimal) (account : Account) :
    (reserve size account).state = account.after (.reserve size) :=
  (within_bind_state _ _ _ _ (fun _ _ => ⟨(), rfl, rfl⟩) account).symm

private theorem settle_state (size pnl : Decimal) (account : Account) :
    (settle size pnl account).state = account.after (.settle size pnl) :=
  (within_bind_state _ _ _ _ (fun _ _ => ⟨(), rfl, rfl⟩) account).symm

theorem clearHalt_state (account : Account) :
    (clearHalt account).state = account.after .clearHalt :=
  within_bind_state _ _ _ _ (fun _ _ => ⟨(), rfl, rfl⟩) account

/-- Whichever request is answered, the account moves as the request says. -/
theorem answer_state (request : Request) (account : Account) :
    ∃ movement, movement ≠ .clearHalt ∧ (answer request account).state = account.after movement := by
  cases request with
  | reserve size => exact ⟨.reserve size, by simp, reserve_state size account⟩
  | settle size pnl => exact ⟨.settle size pnl, by simp, settle_state size pnl account⟩

end SignalDesk.Account
