import SignalDesk.Proofs.Plan
import SignalDesk.Risk.Trader

/-!
# The turn of a trader

In a turn that is not given up a trader does one of three things: nothing, an entry at the ask with
capital that the account grants, or an exit at the bid that the account settles.
-/

namespace SignalDesk.Trader

open Act Plan

/-- The event that a reply reports, if it does; a refusal reports none. -/
def eventOf? : Except Refusal (Option PositionEvent) → Option PositionEvent
  | .ok event => event
  | .error _ => none

/-- What can become of a trader and of the account in a turn at `ts`. -/
inductive Turn (trader : Trader) (account : Account) (quote : Option Quote) (ts : Timestamp) :
    Option PositionEvent → Trader → Account → Prop
  | idle : Turn trader account quote ts none trader account
  | opened {book : Quote} {side : Side} {position : Position} {account' : Account}
      (hfree : trader.held = none) (hbook : quote = some book)
      (hprice : 0 < book.askFor side ∧ book.askFor side < 100)
      (hopen : Position.openAt (positionId trader.instrument ts trader.entries) trader.instrument
        side (book.askFor side) ts trader.tradeSize = .ok position)
      (hreserve : (Account.reserve trader.tradeSize).Yields account (.ok ()) account') :
      Turn trader account quote ts (some (.opened position))
        { trader with held := some position, entries := trader.entries + 1 } account'
  | closed {held : Position} {reason : CloseReason} {price : Int64} {pnl : Decimal}
      {halt : Option HaltReason} {account' : Account} (hheld : trader.held = some held)
      (hprice : price = (quote.map fun book => book.bidFor held.side).getD held.entryPrice)
      (hpnl : held.pnlAt price = .ok pnl)
      (hsettle : (Account.settle held.size pnl).Yields account halt account') :
      Turn trader account quote ts (some (.closed (held.closedAt price ts reason pnl) reason))
        { trader with held := none } account'

variable {trader trader' : Trader} {account account' : Account} {quote : Option Quote}

theorem checkExit_iff {ts : Timestamp} {event : Option PositionEvent} {state' : Trader × Account} :
    (checkExit quote ts).Yields (trader, account) event state' ↔
      (exitPlan quote ts trader).run.Yields (trader, account) event state' :=
  Iff.rfl

theorem tryEnter_iff {composite : Composite} {reply : Except Refusal (Option PositionEvent)}
    {state' : Trader × Account} :
    (tryEnter composite quote).Yields (trader, account) reply state' ↔
      (entryPlan composite quote trader).run.Yields (trader, account) reply state' :=
  Iff.rfl

theorem entryOn_ok {side : Side} {entry : Entry} (h : trader.entryOn side quote = .ok entry) :
    trader.held = none ∧ ∃ book, quote = some book ∧ entry = ⟨side, book.askFor side⟩ ∧
      0 < book.askFor side ∧ book.askFor side < 100 := by
  unfold entryOn at h
  split at h
  · cases h
  · rename_i hfree
    split at h
    · cases h
    · rename_i book
      simp only at h
      split at h
      · cases h
      · rename_i hprice
        rw [Bool.or_eq_true, decide_eq_true_iff, decide_eq_true_iff, not_or, Int64.not_le,
          Int64.not_le] at hprice
        exact ⟨by simpa using hfree, book, rfl, (Except.ok.inj h).symm, hprice⟩

private theorem enter_yields {composite : Composite} {entry : Entry}
    {reply : Except Refusal (Option PositionEvent)}
    (h : (enter composite entry).Yields trader reply trader') :
    ∃ position, Position.openAt (positionId trader.instrument composite.ts trader.entries)
        trader.instrument entry.side entry.price composite.ts trader.tradeSize = .ok position ∧
      reply = .ok (some (.opened position)) ∧
      trader' = { trader with held := some position, entries := trader.entries + 1 } := by
  obtain ⟨hout, hstate⟩ := h
  simp only [enter] at hout hstate
  split at hout
  · cases hout
  · rename_i position hopen
    rw [hopen] at hstate
    exact ⟨position, hopen, (Except.ok.inj hout).symm, hstate.symm⟩

theorem entryPlan_turn {composite : Composite} {reply : Except Refusal (Option PositionEvent)}
    (h : (entryPlan composite quote trader).run.Yields (trader, account) reply (trader', account')) :
    Turn trader account quote composite.ts (eventOf? reply) trader' account' := by
  unfold entryPlan at h
  split at h
  · obtain ⟨hreply, rfl, rfl⟩ := run_done_yields_iff.1 h
    cases hreply
    exact .idle
  · split at h
    · obtain ⟨hreply, rfl, rfl⟩ := run_done_yields_iff.1 h
      cases hreply
      exact .idle
    · rename_i entry hentry
      obtain ⟨hfree, book, hbook, rfl, hprice⟩ := entryOn_ok hentry
      obtain ⟨granted, hreserve, hrest⟩ := run_ask_yields_iff.1 h
      cases granted with
      | error refusal =>
        obtain ⟨hreply, rfl⟩ := hrest
        cases hreply
        obtain rfl := Account.reserve_refused hreserve
        exact .idle
      | ok granted =>
        obtain ⟨position, hopen, rfl, rfl⟩ := enter_yields hrest
        exact .opened hfree hbook hprice hopen hreserve

theorem exitPlan_turn {ts : Timestamp} {event : Option PositionEvent}
    (h : (exitPlan quote ts trader).run.Yields (trader, account) event (trader', account')) :
    Turn trader account quote ts event trader' account' := by
  unfold exitPlan at h
  split at h
  · obtain ⟨hreply, rfl, rfl⟩ := run_done_yields_iff.1 h
    cases hreply
    exact .idle
  · rename_i held hheld
    simp only at h
    split at h
    · obtain ⟨hreply, -⟩ := run_done_yields_iff.1 h
      cases hreply
    · obtain ⟨hreply, rfl, rfl⟩ := run_done_yields_iff.1 h
      cases hreply
      exact .idle
    · unfold closePlan at h
      split at h
      · obtain ⟨hreply, -⟩ := run_done_yields_iff.1 h
        cases hreply
      · rename_i pnl hpnl
        obtain ⟨halt, hsettle, hrest⟩ := run_ask_yields_iff.1 h
        obtain ⟨hreply, rfl⟩ := hrest
        cases hreply
        exact .closed hheld rfl hpnl hsettle

/-- An exit, given up or not, leaves the trader as it was or without its position. -/
theorem exitPlan_keeps {holds : Trader → Prop} (h : holds trader)
    (hfree : holds { trader with held := none }) (quote : Option Quote) (ts : Timestamp) :
    (exitPlan quote ts trader).Keeps holds := by
  unfold exitPlan
  split
  · exact h
  · simp only
    split
    · exact h
    · exact h
    · unfold closePlan
      split
      · exact hfree
      · exact ⟨hfree, fun _ => hfree⟩

/-- An entry, given up or not, leaves the trader as it was or counts one more; it then holds the
position, if that could be computed. -/
theorem entryPlan_keeps {holds : Trader → Prop} {composite : Composite} (h : holds trader)
    (hcounted : holds { trader with entries := trader.entries + 1 })
    (hopened : ∀ (book : Quote) side position, 0 < book.askFor side ∧ book.askFor side < 100 →
      Position.openAt (positionId trader.instrument composite.ts trader.entries) trader.instrument
        side (book.askFor side) composite.ts trader.tradeSize = .ok position →
      holds { trader with held := some position, entries := trader.entries + 1 }) :
    (entryPlan composite quote trader).Keeps holds := by
  unfold entryPlan
  split
  · exact h
  · split
    · exact h
    · rename_i entry hentry
      obtain ⟨-, book, -, rfl, hprice⟩ := entryOn_ok hentry
      refine ⟨h, fun reply => ?_⟩
      cases reply with
      | error refusal => exact h
      | ok granted =>
        simp only [enter]
        split
        · exact hcounted
        · rename_i position hopen
          exact hopened book _ position hprice hopen

/-- An exit check that closes nothing does not ask the account. -/
theorem exitPlan_of_none {ts : Timestamp}
    (h : (exitPlan quote ts trader).run.Yields (trader, account) none (trader', account')) :
    exitPlan quote ts trader = .done ⟨.ok none, trader, []⟩ := by
  unfold exitPlan at h ⊢
  split at h
  · rfl
  · simp only at h ⊢
    split at h
    · obtain ⟨hreply, -⟩ := run_done_yields_iff.1 h
      cases hreply
    · rfl
    · unfold closePlan at h
      split at h
      · obtain ⟨hreply, -⟩ := run_done_yields_iff.1 h
        cases hreply
      · obtain ⟨halt, -, hreply, -⟩ := run_ask_yields_iff.1 h
        cases hreply

end SignalDesk.Trader
