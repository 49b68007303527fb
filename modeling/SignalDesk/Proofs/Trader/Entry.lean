import SignalDesk.Config.Validate
import SignalDesk.Proofs.Floor.Halt
import SignalDesk.Proofs.Position

/-!
# Attempts to enter

An attempt to enter ends in one of six ways. One opens a position, three leave everything as it was
and two are given up: in the reservation, or after it, when the contracts do not fit.
-/

namespace SignalDesk

open Act

private theorem Portfolio.haltReason?_eq_none_iff {p : Portfolio} :
    p.haltReason? = .ok none ↔ ¬(Account.live p).Halted := by
  unfold haltReason? Account.Halted
  split
  · rename_i hstart
    simp [hstart, pure_ok_iff]
  · rename_i hstart
    split
    · rename_i hhalted
      simp only [hhalted, or_true, not_true_eq_false, iff_false]
      cases p.drawdown <;> rintro ⟨⟩
    · rename_i hhalted
      simp [hstart, hhalted, pure_ok_iff]

namespace Account

/-- A live account with `size` to spare. -/
def Spares (account : Account) (size : Decimal) : Prop :=
  ∃ p available, account = live p ∧ p.available = .ok available ∧ size ≤ available

variable {size : Decimal} {account account' : Account}

private theorem reserve_granted_iff {reply : Except Refusal Unit}
    (h : (reserve size).Yields account reply account') :
    reply = .ok () ↔ ¬account.Halted ∧ account.Spares size := by
  cases account with
  | poisoned =>
    obtain ⟨rfl, -⟩ := within_poisoned_yields h
    simp [Halted]
  | live p =>
    obtain ⟨q, hlive, -⟩ := within_live_yields h
    cases reply with
    | ok granted =>
      obtain ⟨⟨_, hrefused⟩, -⟩ | ⟨-, hhalt, ⟨available, havailable, henough⟩, -⟩ :=
        Portfolio.reserve_yields hlive
      · cases hrefused
      · rw [Decimal.lt_iff_toRat, not_lt, ← Decimal.le_iff_toRat] at henough
        exact iff_of_true rfl
          ⟨Portfolio.haltReason?_eq_none_iff.1 hhalt, p, available, rfl, havailable, henough⟩
    | error refusal =>
      refine iff_of_false (by simp) fun ⟨hopen, p', available, hp, havailable, henough⟩ => ?_
      cases hp
      obtain ⟨reason, hreason, -⟩ | ⟨available', havailable', hshort, -⟩ :=
        Portfolio.reserve_refused hlive
      · rw [Portfolio.haltReason?_eq_none_iff.2 hopen] at hreason
        cases hreason
      · rw [havailable] at havailable'
        cases havailable'
        rw [Decimal.lt_iff_toRat, ← not_le, ← Decimal.le_iff_toRat] at hshort
        exact hshort henough

private theorem reserve_commits (h : (reserve size).Yields account (.ok ()) account') :
    ∃ p committed, account = live p ∧ p.committed.add size = .ok committed ∧
      account' = live { p with committed, openPositions := p.openPositions + 1 } := by
  cases account with
  | poisoned => cases (within_poisoned_yields h).1
  | live p =>
    obtain ⟨q, hlive, rfl⟩ := within_live_yields h
    obtain ⟨⟨_, hrefused⟩, -⟩ | ⟨-, -, -, -, committed, hadd, rfl⟩ := Portfolio.reserve_yields hlive
    · cases hrefused
    · exact ⟨p, committed, rfl, hadd, rfl⟩

private theorem reserve_given_up {abort : Abort} (h : (reserve size account).outcome = .error abort) :
    (reserve size account).state = poisoned := by
  cases account with
  | poisoned => rfl
  | live p =>
    simp only [reserve, within] at h ⊢
    split at h
    · cases h
    · rfl

end Account

private theorem Position.openAt_error_iff {id : Uuid} {instrument : String} {side : Side}
    {entryPrice : Int64} {ts : Timestamp} {size : Decimal} {abort : Abort} :
    openAt id instrument side entryPrice ts size = .error abort ↔
      contractsFor size entryPrice = .error abort := by
  unfold openAt
  cases contractsFor size entryPrice with
  | error other => simp [bind, Except.bind]
  | ok contracts => exact ⟨nofun, nofun⟩

namespace Trader

open Plan

/-- What can become of an attempt to enter, of the trader and of the account. -/
inductive Attempted (composite : Composite) (quote : Option Quote) (trader : Trader)
    (account : Account) :
    Except Abort (Except Refusal (Option PositionEvent)) → Trader → Account → Prop
  | uncalled (hside : calledSide? trader.settings composite = none) :
      Attempted composite quote trader account (.ok (.ok none)) trader account
  | unfit {side : Side} {refusal : Refusal}
      (hside : calledSide? trader.settings composite = some side)
      (hentry : trader.entryOn side quote = .error refusal) :
      Attempted composite quote trader account (.ok (.error refusal)) trader account
  | denied {side : Side} {refusal : Refusal}
      (hside : calledSide? trader.settings composite = some side)
      (hreserve : (Account.reserve trader.tradeSize).Yields account (.error refusal) account) :
      Attempted composite quote trader account (.ok (.error refusal)) trader account
  | poisoned {abort : Abort}
      (hreserve : (Account.reserve trader.tradeSize account).outcome = .error abort) :
      Attempted composite quote trader account (.error abort) trader .poisoned
  | stranded {side : Side} {entry : Entry} {abort : Abort} {account' : Account}
      (hside : calledSide? trader.settings composite = some side)
      (hentry : trader.entryOn side quote = .ok entry)
      (hreserve : (Account.reserve trader.tradeSize).Yields account (.ok ()) account')
      (hcontracts : Position.contractsFor trader.tradeSize entry.price = .error abort) :
      Attempted composite quote trader account (.error abort)
        { trader with entries := trader.entries + 1 } account'
  | opened {side : Side} {entry : Entry} {position : Position} {account' : Account}
      (hside : calledSide? trader.settings composite = some side)
      (hentry : trader.entryOn side quote = .ok entry)
      (hreserve : (Account.reserve trader.tradeSize).Yields account (.ok ()) account')
      (hopen : Position.openAt (positionId trader.instrument composite.ts trader.entries)
        trader.instrument entry.side entry.price composite.ts trader.tradeSize = .ok position) :
      Attempted composite quote trader account (.ok (.ok (some (.opened position))))
        { trader with held := some position, entries := trader.entries + 1 } account'

variable (composite : Composite) (quote : Option Quote) (trader : Trader) (account : Account)

private theorem tryEnter_attempted :
    Attempted composite quote trader account (tryEnter composite quote (trader, account)).outcome
      (tryEnter composite quote (trader, account)).state.1
      (tryEnter composite quote (trader, account)).state.2 := by
  change Attempted composite quote trader account
    ((entryPlan composite quote trader).run (trader, account)).outcome
    ((entryPlan composite quote trader).run (trader, account)).state.1
    ((entryPlan composite quote trader).run (trader, account)).state.2
  unfold entryPlan
  split
  · rename_i hside
    exact .uncalled hside
  · rename_i side hside
    split
    · rename_i refusal hentry
      exact .unfit hside hentry
    · rename_i entry hentry
      simp only [run, consult, Account.answer]
      rcases hreserve : Account.reserve trader.tradeSize account with ⟨outcome, account', notices⟩
      have hyields {reply : Except Refusal Unit} (h : outcome = .ok reply) :
          (Account.reserve trader.tradeSize).Yields account reply account' := by
        rw [Yields, hreserve, h]
        exact ⟨rfl, rfl⟩
      cases outcome with
      | error abort =>
        have houtcome : (Account.reserve trader.tradeSize account).outcome = .error abort := by
          rw [hreserve]
        have hstate : account' = .poisoned := by
          have := Account.reserve_given_up houtcome
          rwa [hreserve] at this
        subst hstate
        exact .poisoned houtcome
      | ok reply =>
        cases reply with
        | error refusal =>
          obtain rfl := Account.reserve_refused (hyields rfl)
          exact .denied hside (hyields rfl)
        | ok granted =>
          simp only [enter]
          split
          · rename_i abort hopen
            exact .stranded hside hentry (hyields rfl) (Position.openAt_error_iff.1 hopen)
          · rename_i position hopen
            exact .opened hside hentry (hyields rfl) hopen

variable {composite quote trader account} in
theorem attempted_of_yields {reply : Except Refusal (Option PositionEvent)} {trader' : Trader}
    {account' : Account}
    (h : (tryEnter composite quote).Yields (trader, account) reply (trader', account')) :
    Attempted composite quote trader account (.ok reply) trader' account' := by
  obtain ⟨houtcome, hstate⟩ := h
  have hattempted := tryEnter_attempted composite quote trader account
  rw [houtcome, hstate] at hattempted
  exact hattempted

/-- What an entry that does not happen leaves behind. The trader holds what it held, and a refusal or
a composite that calls for nothing changes nothing at all. An attempt that is given up either was
given up in the reservation, which poisons the account, or for a trade size beyond all moderate ones
whose contracts do not fit: the capital is then committed to a position that does not exist. -/
theorem no_trace_unless_given_up (composite : Composite) (quote : Option Quote) (trader : Trader)
    (account : Account) :
    let attempt := tryEnter composite quote (trader, account)
    (∀ position, attempt.outcome ≠ .ok (.ok (some (.opened position)))) →
      attempt.state.1.held = trader.held ∧
      (∀ reply, attempt.outcome = .ok reply → attempt.state = (trader, account)) ∧
      ∀ abort, attempt.outcome = .error abort →
        (Account.reserve trader.tradeSize account).outcome = .error abort ∧
            attempt.state = (trader, .poisoned) ∨
          10 ^ 22 < |trader.tradeSize.toRat| ∧ ∃ p price committed, account = .live p ∧
            Position.contractsFor trader.tradeSize price = .error abort ∧
            p.committed.add trader.tradeSize = .ok committed ∧
            attempt.state = ({ trader with entries := trader.entries + 1 },
              .live { p with committed, openPositions := p.openPositions + 1 }) := by
  intro attempt hnone
  have hattempted := tryEnter_attempted composite quote trader account
  change Attempted composite quote trader account attempt.outcome attempt.state.1 attempt.state.2
    at hattempted
  generalize attempt.outcome = outcome at hattempted hnone ⊢
  generalize attempt.state = state at hattempted ⊢
  obtain ⟨trader', account'⟩ := state
  cases hattempted with
  | uncalled hside => exact ⟨rfl, fun _ _ => rfl, nofun⟩
  | unfit hside hentry => exact ⟨rfl, fun _ _ => rfl, nofun⟩
  | denied hside hreserve => exact ⟨rfl, fun _ _ => rfl, nofun⟩
  | poisoned hreserve =>
    refine ⟨rfl, fun reply hreply => (by cases hreply), fun abort habort => .inl ⟨?_, rfl⟩⟩
    rw [hreserve, Except.error.inj habort]
  | stranded hside hentry hreserve hcontracts =>
    refine ⟨rfl, fun reply hreply => (by cases hreply), fun abort habort => .inr ?_⟩
    obtain rfl := Except.error.inj habort
    obtain ⟨-, book, -, rfl, hprice, -⟩ := entryOn_ok hentry
    refine ⟨?_, ?_⟩
    · by_contra! hmoderate
      obtain ⟨contracts, hok⟩ :=
        Position.contractsFor_ok (Int64.lt_iff_toInt_lt.1 hprice) hmoderate
      rw [hok] at hcontracts
      cases hcontracts
    · obtain ⟨p, committed, rfl, hadd, rfl⟩ := Account.reserve_commits hreserve
      exact ⟨p, _, committed, rfl, hcontracts, hadd, rfl⟩
  | opened hside hentry hreserve hopen => exact absurd rfl (hnone _)

theorem no_trace_unless_given_up_of_scarce_capital :
    let trader := idle "KXA" {} (.ofInt64 100)
    let composite : Composite := ⟨"KXA", 0, 0.5, 0.5, 2, true, []⟩
    let book : Quote := ⟨"KXA", 0, 49, 48, 50, 0, 0⟩
    ∃ start, Portfolio.ofSettings { startingBalance := .ofInt64 50 } = .ok start ∧
      let attempt := tryEnter composite (some book) (trader, .live start)
      attempt.outcome = .ok (.error (.insufficientCapital (.ofInt64 100) (.ofInt64 50))) ∧
        attempt.state = (trader, .live start) := by
  intro trader composite book
  have hrefused : ∃ start, Portfolio.ofSettings { startingBalance := .ofInt64 50 } = .ok start ∧
      (tryEnter composite (some book) (trader, .live start)).outcome =
        .ok (.error (.insufficientCapital (.ofInt64 100) (.ofInt64 50))) :=
    exists_ok_of_any (by decide +kernel)
  obtain ⟨start, hstart, hrefused⟩ := hrefused
  have hnone (position : Position) :
      (tryEnter composite (some book) (trader, .live start)).outcome ≠
        .ok (.ok (some (.opened position))) := by
    rw [hrefused]
    nofun
  exact ⟨start, hstart, hrefused,
    (no_trace_unless_given_up composite (some book) trader (.live start) hnone).2.1 _ hrefused⟩

/-- Four fifths of a balance of 10 ^ 27 are committed to a position whose contracts do not fit. -/
theorem capital_stranded_although_valid :
    let config : Config := { portfolio := {
      startingBalance := ⟨false, 1000000000000000000000000000, 0, by decide, by decide⟩
      tradeSize := ⟨false, 800000000000000000000000000, 0, by decide, by decide⟩ } }
    let trader := idle "KXA" config.positions config.portfolio.tradeSize
    let composite : Composite := ⟨"KXA", 0, 0.5, 0.5, 2, true, []⟩
    let book : Quote := ⟨"KXA", 0, 49, 48, 50, 0, 0⟩
    config.fault? = none ∧ ∃ start, Portfolio.ofSettings config.portfolio = .ok start ∧
      let attempt := tryEnter composite (some book) (trader, .live start)
      start.committed = .zero ∧ attempt.outcome = .error .decimalOverflow ∧
        attempt.state.1.held = none ∧ attempt.state.2 = .live { start with
          committed := config.portfolio.tradeSize
          openPositions := start.openPositions + 1 } := by
  intro config trader composite book
  exact ⟨by decide +kernel, exists_ok_of_any (by decide +kernel)⟩

private theorem entryOn_iff {trader : Trader} {side : Side} {quote : Option Quote} :
    (∃ entry, trader.entryOn side quote = .ok entry) ↔ trader.held = none ∧
      ∃ book, quote = some book ∧ 0 < book.askFor side ∧ book.askFor side < 100 := by
  constructor
  · rintro ⟨entry, hentry⟩
    obtain ⟨hfree, book, hbook, -, hprice⟩ := entryOn_ok hentry
    exact ⟨hfree, book, hbook, hprice⟩
  · rintro ⟨hfree, book, rfl, hlow, hhigh⟩
    refine ⟨⟨side, book.askFor side⟩, ?_⟩
    simp [entryOn, hfree, Int64.not_le.2 hlow, Int64.not_le.2 hhigh]

variable {composite : Composite} {quote : Option Quote} {trader trader' : Trader}
  {account account' : Account} {reply : Except Refusal (Option PositionEvent)}

/-- An attempt that is not given up opens a position exactly when none of its steps ends it early. -/
theorem Attempted.opens_iff (h : Attempted composite quote trader account (.ok reply) trader' account') :
    (∃ position, eventOf? reply = some (.opened position)) ↔
      trader.held = none ∧ ¬account.Halted ∧ account.Spares trader.tradeSize ∧
        ∃ side book, calledSide? trader.settings composite = some side ∧ quote = some book ∧
          0 < book.askFor side ∧ book.askFor side < 100 := by
  cases h with
  | uncalled hside =>
    refine iff_of_false (by simp [eventOf?]) ?_
    rintro ⟨-, -, -, side, book, hcalled, -⟩
    cases hside.symm.trans hcalled
  | unfit hside hentry =>
    refine iff_of_false (by simp [eventOf?]) ?_
    rintro ⟨hfree, -, -, side, book, hcalled, hbook, hprice⟩
    cases hside.symm.trans hcalled
    obtain ⟨entry, hok⟩ := entryOn_iff.2 ⟨hfree, book, hbook, hprice⟩
    cases hentry.symm.trans hok
  | denied hside hreserve =>
    refine iff_of_false (by simp [eventOf?]) ?_
    rintro ⟨-, hopen, hspares, -⟩
    cases (Account.reserve_granted_iff hreserve).2 ⟨hopen, hspares⟩
  | opened hside hentry hreserve hopened =>
    obtain ⟨hopen, hspares⟩ := (Account.reserve_granted_iff hreserve).1 rfl
    obtain ⟨hfree, book, hbook, hprice⟩ := entryOn_iff.1 ⟨_, hentry⟩
    exact iff_of_true ⟨_, rfl⟩ ⟨hfree, hopen, hspares, _, book, hside, hbook, hprice⟩

/-- What is opened is what was called for, at the ask and with the trade size. -/
theorem Attempted.opened_terms (h : Attempted composite quote trader account (.ok reply) trader' account')
    {position : Position} (hevent : eventOf? reply = some (.opened position)) :
    calledSide? trader.settings composite = some position.side ∧
      (∃ book, quote = some book ∧ position.entryPrice = book.askFor position.side) ∧
      position.entryTs = .ofTimestamp composite.ts ∧ position.size = trader.tradeSize ∧
      Position.contractsFor trader.tradeSize position.entryPrice = .ok position.contracts ∧
      trader'.held = some position := by
  cases h with
  | uncalled hside => cases hevent
  | unfit hside hentry => cases hevent
  | denied hside hreserve => cases hevent
  | opened hside hentry hreserve hopened =>
    cases hevent
    obtain ⟨-, book, hbook, rfl, -⟩ := entryOn_ok hentry
    simp only [Position.openAt, bind_ok_iff, pure_ok_iff] at hopened
    obtain ⟨contracts, hcontracts, rfl⟩ := hopened
    exact ⟨hside, ⟨book, hbook, rfl⟩, rfl, rfl, hcontracts, rfl⟩

end Trader

end SignalDesk
