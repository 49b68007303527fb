import SignalDesk.Proofs.Portfolio.Drawdown
import SignalDesk.Proofs.Floor.Basic

/-!
# Entries and exits during a halt

A halted account grants no capital, whichever of the causes of a halt it is, until a clear lifts the
drawdown halt. An exit does not depend on the account at all.
-/

namespace SignalDesk

namespace Account

open Act Portfolio

def Halted : Account → Prop
  | live p => p.startingBalance ≤ .zero ∨ p.haltedForDrawdown = true
  | poisoned => True

instance (account : Account) : Decidable account.Halted :=
  match account with
  | live p => inferInstanceAs (Decidable (p.startingBalance ≤ .zero ∨ p.haltedForDrawdown = true))
  | poisoned => inferInstanceAs (Decidable True)

/-- Entries are halted by something that a clear does not touch. -/
def HaltedForGood : Account → Prop
  | live p => p.startingBalance ≤ .zero
  | poisoned => True

/-- The loss from the peak can be computed, unless the account is lost. -/
def Measured : Account → Prop
  | live p => ∃ loss, p.drawdown = .ok loss
  | poisoned => True

/-- The drawdown halt has been lifted between two moments. -/
def Lifted (account account' : Account) : Prop :=
  ∃ p q, account = live p ∧ account' = live q ∧ p.haltedForDrawdown = true ∧
    q.haltedForDrawdown = false

theorem HaltedForGood.halted {account : Account} (h : account.HaltedForGood) : account.Halted := by
  cases account with
  | live p => exact .inl h
  | poisoned => trivial

private theorem after_haltedForGood (account : Account) (h : account.HaltedForGood)
    (movement : Movement) : (account.after movement).HaltedForGood := by
  rcases account.after_cases movement with hp | ⟨p, q, rfl, hq, hact⟩
  · rw [hp]
    trivial
  · rw [hq, HaltedForGood, (act_sameTerms hact).1]
    exact h

private theorem after_poisoned (account : Account) (h : account = .poisoned) (movement : Movement) :
    account.after movement = .poisoned := by
  rw [h]
  rfl

private theorem after_measured (account : Account) (h : account.Measured) (movement : Movement) :
    (account.after movement).Measured := by
  rcases account.after_cases movement with hp | ⟨p, q, rfl, hq, hact⟩
  · rw [hp]
    trivial
  · rw [hq]
    exact act_measured hact h

private theorem after_halted {account : Account} (h : account.Halted) {movement : Movement}
    (hkeep : movement = .clearHalt → ¬account.Lifted (account.after movement)) :
    (account.after movement).Halted := by
  rcases account.after_cases movement with hp | ⟨p, q, rfl, hq, hact⟩
  · rw [hp]
    trivial
  · rw [hq] at hkeep ⊢
    rcases h with hstart | hflag
    · left
      rw [(act_sameTerms hact).1]
      exact hstart
    · right
      cases movement with
      | reserve size =>
        obtain ⟨committed, openPositions, rfl⟩ := reserve_act_yields hact
        exact hflag
      | settle size pnl => exact (settle_halted_iff hact).2 (.inl hflag)
      | clearHalt =>
        by_contra hclear
        exact hkeep rfl ⟨p, q, rfl, rfl, hflag, by simpa using hclear⟩

private theorem reserve_of_halted {account : Account} (h : account.Halted)
    (hmeasured : account.Measured) (size : Decimal) : ∃ reason notices,
      reserve size account = ⟨.ok (.error (.tradingHalted reason)), account, notices⟩ := by
  cases account with
  | poisoned => exact ⟨_, _, rfl⟩
  | live p =>
    have hreason : ∃ reason, p.haltReason? = .ok (some reason) := by
      unfold haltReason?
      split
      · exact ⟨_, rfl⟩
      · rename_i hstart
        obtain ⟨loss, hloss⟩ := hmeasured
        rw [if_pos (h.resolve_left hstart), hloss]
        exact ⟨_, rfl⟩
    obtain ⟨reason, hreason⟩ := hreason
    have hrefused : ∃ notices, Portfolio.reserve size p =
        ⟨.ok (.error (.tradingHalted reason)), p, notices⟩ := by
      simp only [Portfolio.reserve, bind, Act.bind, Act.get, Act.lift, hreason, pure, Act.pure]
      exact ⟨_, rfl⟩
    obtain ⟨notices, hrefused⟩ := hrefused
    refine ⟨reason, notices, ?_⟩
    rw [reserve, within, hrefused]

end Account

namespace Floor

open Act

/-- No clear among some moves lifts the drawdown halt. -/
def Unlifted (floor : Floor) : List Move → Prop
  | [] => True
  | move :: moves =>
    (move = .clearHalt → ¬floor.account.Lifted (floor.step move).1.account) ∧
      (floor.step move).1.Unlifted moves

private theorem unlifted_of_not_mem {floor : Floor} {moves : List Move} (h : .clearHalt ∉ moves) :
    floor.Unlifted moves := by
  induction moves generalizing floor with
  | nil => trivial
  | cons move moves ih =>
    rw [List.mem_cons, not_or] at h
    exact ⟨fun hclear => absurd hclear.symm h.1, ih h.2⟩

private theorem step_halted {floor : Floor} (h : floor.account.Halted) {move : Move}
    (hkeep : move = .clearHalt → ¬floor.account.Lifted (floor.step move).1.account) :
    (floor.step move).1.account.Halted := by
  rcases floor.step_account move with hsame | ⟨movement, hclear, hafter⟩
  · rwa [hsame]
  · rw [hafter] at hkeep ⊢
    exact Account.after_halted h fun hm => hkeep (hclear hm)

/-- An entry that is answered during a halt opens nothing, also if it was called before. -/
theorem step_not_opened {floor : Floor} (hfresh : floor.PendingFresh) (h : floor.account.Halted)
    (hmeasured : floor.account.Measured) {move : Move} (i : Nat) (position : Position) :
    (floor.step move).2 ≠ some (.answered i (.ok (.ok (some (.opened position))))) := by
  intro hreport
  obtain ⟨seat, trader, account, -, hanswered, -⟩ := step_answered hfresh hreport
  cases hanswered with
  | idle hreply => exact hreply _ rfl
  | opened hfree hsize hreserve =>
    obtain ⟨reason, notices, hrefused⟩ :=
      Account.reserve_of_halted h hmeasured seat.trader.tradeSize
    rw [Yields, hrefused] at hreserve
    cases hreserve.1

/-- During a halt that is not lifted, or cannot be, no entry opens a position. -/
theorem run_halted {floor : Floor} (hfresh : floor.PendingFresh) (h : floor.account.Halted)
    (hmeasured : floor.account.Measured) {moves : List Move}
    (hkeep : floor.account.HaltedForGood ∨ floor.Unlifted moves) :
    (floor.run moves).1.account.Halted ∧
      ∀ i position, .answered i (.ok (.ok (some (.opened position)))) ∉ (floor.run moves).2 := by
  induction moves generalizing floor with
  | nil => exact ⟨h, fun _ _ => List.not_mem_nil⟩
  | cons move moves ih =>
    have hnext : (floor.step move).1.account.Halted ∧
        ((floor.step move).1.account.HaltedForGood ∨ (floor.step move).1.Unlifted moves) := by
      rcases hkeep with hgood | hkeep
      · have hgood' := step_preserves _ Account.after_haltedForGood hgood move
        exact ⟨hgood'.halted, .inl hgood'⟩
      · exact ⟨step_halted h hkeep.1, .inr hkeep.2⟩
    have hmeasured' := step_preserves _ Account.after_measured hmeasured move
    obtain ⟨hlast, hrest⟩ := ih (step_pendingFresh hfresh move) hnext.1 hmeasured' hnext.2
    refine ⟨hlast, fun i position hmem => ?_⟩
    rcases List.mem_append.1 hmem with hfirst | hmem
    · exact step_not_opened hfresh h hmeasured i position (Option.mem_toList.1 hfirst)
    · exact hrest i position hmem

end Floor

namespace Trader

open Act Plan

/-- What an exit answers and which position it leaves, as far as they concern the position. -/
def exitOf (settings : PositionSettings) (held : Option Position) (quote : Option Quote)
    (ts : Timestamp) : Except Abort (Option PositionEvent × Option Position) := do
  match held with
  | none => return (none, none)
  | some position =>
    let mark := quote.map fun quote => quote.bidFor position.side
    match ← settings.exitReason? position mark ts with
    | none => return (none, some position)
    | some reason =>
      let price := mark.getD position.entryPrice
      let pnl ← position.pnlAt price
      return (some (.closed (position.closedAt price ts reason pnl) reason), none)

theorem checkExit_yields {quote : Option Quote} {ts : Timestamp} {trader trader' : Trader}
    {account account' : Account} {event : Option PositionEvent}
    (h : (checkExit quote ts).Yields (trader, account) event (trader', account')) :
    exitOf trader.settings trader.held quote ts = .ok (event, trader'.held) := by
  change (exitPlan quote ts trader).run.Yields (trader, account) event (trader', account') at h
  unfold exitPlan at h
  cases hheld : trader.held with
  | none =>
    rw [hheld] at h
    obtain ⟨hevent, rfl, -⟩ := run_done_yields_iff.1 h
    rw [hheld, ← Except.ok.inj hevent]
    rfl
  | some position =>
    rw [hheld] at h
    simp only at h
    split at h
    · obtain ⟨hevent, -⟩ := run_done_yields_iff.1 h
      cases hevent
    · rename_i hreason
      obtain ⟨hevent, rfl, -⟩ := run_done_yields_iff.1 h
      simp only [exitOf, hreason, ← Except.ok.inj hevent, hheld]
      rfl
    · rename_i reason hreason
      unfold closePlan at h
      split at h
      · obtain ⟨hevent, -⟩ := run_done_yields_iff.1 h
        cases hevent
      · rename_i pnl hpnl
        obtain ⟨halt, -, hevent, rfl⟩ := run_ask_yields_iff.1 h
        simp only [exitOf, hreason, ← Except.ok.inj hevent, bind, Except.bind, hpnl]
        rfl

end Trader

namespace Floor

open Act Portfolio

/-- From the moment the account is halted, no entry opens a position and no reservation changes the
account until a clear lifts the drawdown halt. A starting balance that is not positive and a poisoned
account stay for good. What an exit answers and the position it leaves are the same whatever the
account is. -/
theorem halt_blocks_entries_only {settings : PortfolioSettings} {account : Account}
    (hstart : Account.ofSettings settings = .ok account) (traders : List Trader)
    (earlier later : List Move) :
    let now := ((opening traders account).run earlier).1
    let next := (now.run later).1
    (now.account.Halted → now.account.HaltedForGood ∨ now.Unlifted later →
      (∀ i position, .answered i (.ok (.ok (some (.opened position)))) ∉ (now.run later).2) ∧
      ∀ size, ∃ reason notices, Account.reserve size next.account =
        ⟨.ok (.error (.tradingHalted reason)), next.account, notices⟩) ∧
    (now.account.HaltedForGood → next.account.HaltedForGood) ∧
    (now.account = .poisoned → next.account = .poisoned) ∧
    ∀ (quote : Option Quote) (ts : Timestamp) (trader other : Trader) (account₁ account₂ : Account)
      (event₁ event₂ : Option PositionEvent),
      let first := Trader.checkExit quote ts (trader, account₁)
      let second := Trader.checkExit quote ts (other, account₂)
      trader.held = other.held → trader.settings = other.settings →
      first.outcome = .ok event₁ → second.outcome = .ok event₂ →
      event₁ = event₂ ∧ first.state.1.held = second.state.1.held := by
  intro now next
  have hfresh : now.PendingFresh := run_pendingFresh (opening_pendingFresh traders account) earlier
  have hmeasured : now.account.Measured := by
    refine run_preserves _ Account.after_measured ?_ earlier
    obtain ⟨start, hportfolio, rfl⟩ := Account.ofSettings_ok hstart
    exact (ofSettings_marksHold hportfolio).measured
  refine ⟨fun hhalted hkeep => ?_,
    fun hgood => run_preserves _ Account.after_haltedForGood hgood later,
    fun hpoisoned => run_preserves (· = .poisoned) Account.after_poisoned hpoisoned later, ?_⟩
  · obtain ⟨hlast, hclosed⟩ := run_halted hfresh hhalted hmeasured hkeep
    have hmeasured' := run_preserves _ Account.after_measured hmeasured later
    exact ⟨hclosed, Account.reserve_of_halted hlast hmeasured'⟩
  · intro quote ts trader other account₁ account₂ event₁ event₂ first second hheld hsettings h₁ h₂
    have hfirst := Trader.checkExit_yields (yields_of_outcome h₁)
    have hsecond := Trader.checkExit_yields (yields_of_outcome h₂)
    rw [hheld, hsettings, hsecond] at hfirst
    obtain ⟨hevent, hleft⟩ := Prod.mk.inj (Except.ok.inj hfirst)
    exact ⟨hevent.symm, hleft.symm⟩

/-- One trader's loss halts trading while another waits to enter. -/
theorem halt_blocks_entries_only_of_loss :
    let traders := ["KXA", "KXB"].map fun instrument => Trader.idle instrument {} (.ofInt64 100)
    let composite : Composite := ⟨"KXA", 0, 0.5, 0.5, 2, true, []⟩
    let before : Quote := ⟨"KXA", 0, 49, 48, 50, 0, 0⟩
    let after : Quote := ⟨"KXA", 60000, 10, 9, 11, 0, 0⟩
    let earlier : List Move := [.call 0 (.enter composite before), .answer 0,
      .call 1 (.enter composite before), .call 0 (.exit after 60000), .answer 0]
    let later : List Move := [.answer 1, .call 1 (.enter composite before), .answer 1]
    ∃ account, Account.ofSettings {} = .ok account ∧
      let now := ((opening traders account).run earlier).1
      now.account.Halted ∧
        ∀ i position, .answered i (.ok (.ok (some (.opened position)))) ∉ (now.run later).2 := by
  intro traders composite before after earlier later
  have hrun : ∃ account, Account.ofSettings {} = .ok account ∧
      ((opening traders account).run earlier).1.account.Halted :=
    exists_ok_of_any (by decide +kernel)
  obtain ⟨account, hstart, hhalted⟩ := hrun
  have hkeep : .clearHalt ∉ later := by simp [later]
  obtain ⟨hblocked, -⟩ := halt_blocks_entries_only hstart traders earlier later
  exact ⟨account, hstart, hhalted, (hblocked hhalted (.inr (unlifted_of_not_mem hkeep))).1⟩

end Floor

end SignalDesk
