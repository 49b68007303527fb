import SignalDesk.Proofs.Engine.Sound
import SignalDesk.Proofs.Portfolio.Solvency

/-!
# A solvent engine

The account counts the desks that hold a position, each position has the one trade size, and no close
loses more than that. So the balance covers what is committed after every run, up to rounding.
-/

namespace SignalDesk

/-- A closed position that lost its size at most, up to rounding. -/
def Position.WithinSize (position : Position) : Prop :=
  ∃ pnl, position.realizedPnl = some pnl ∧
    -(position.size.toRat + 10 * ulp * (1 + position.size.toRat)) ≤ pnl.toRat

/-- One turn keeps the account solvent: an entry is backed and an exit loses its size at most. -/
theorem Trader.Turn.backed {config : Config} {trader trader' : Trader} {account' : Account}
    {quote : Option Quote} {ts : Timestamp} {event : Option PositionEvent} {p : Portfolio} {events : Nat}
    (h : Turn trader (.live p) quote ts event trader' account') (hsound : trader.Sound config)
    (hsize : 0 < config.portfolio.tradeSize.toRat)
    (hquote : ∀ book ∈ quote, (Record.quote book).isValid = true)
    (hopen : trader.held.isSome = true → 0 < p.openPositions)
    (hp : p.Backed config.portfolio.tradeSize.toRat events) :
    (∀ position reason, event = some (.closed position reason) → position.WithinSize) ∧
    ∃ p', account' = .live p' ∧
      p'.Backed config.portfolio.tradeSize.toRat (events + event.toList.length) ∧
      p'.openPositions + trader.held.isSome.toNat = p.openPositions + trader'.held.isSome.toNat := by
  cases h with
  | idle => exact ⟨by simp, p, rfl, hp, rfl⟩
  | opened hfree hbook hprice hopened hreserve =>
    obtain ⟨p', hgranted, rfl⟩ := Account.within_live_yields hreserve
    rw [hsound.tradeSize] at hgranted
    obtain ⟨hbacked, hcount⟩ := Portfolio.reserve_backed hsize hp hgranted
    exact ⟨by simp, p', rfl, hbacked, by simp [hfree, hcount]⟩
  | @closed held reason price pnl halt _ hsome hprice hpnl hsettle =>
    obtain ⟨hheldSize, hheldOpened⟩ := hsound.held held hsome
    obtain ⟨p', hsettled, rfl⟩ := Account.within_live_yields hsettle
    have hcents : isCents price = true := hprice ▸ hsound.isCents_mark hsome hquote
    have hloss := hheldOpened.pnlAt_ge (by rw [hheldSize]; exact hsize.le) hcents hpnl
    refine ⟨fun position reason hclosed => ?_, p', rfl, ?_⟩
    · cases hclosed
      exact ⟨pnl, rfl, hloss⟩
    · rw [hheldSize] at hsettled hloss
      obtain ⟨hbacked, hcount⟩ :=
        Portfolio.settle_backed hsize hloss (hopen (by rw [hsome]; rfl)) hp hsettled
      exact ⟨hbacked, by simp [hsome, hcount]⟩

namespace Engine

def events (evaluations : List Evaluation) : List PositionEvent :=
  evaluations.flatMap Evaluation.events

/-- What is known of an engine after some evaluations: it is sound, its live account counts the desks
that hold a position and backs them, and no close lost more than its size. -/
structure Covered (config : Config) (evaluations : List Evaluation) (engine : Engine) : Prop where
  sound : engine.Sound config
  losses : ∀ position reason, .closed position reason ∈ events evaluations → position.WithinSize
  account : ∃ p, engine.account = .live p ∧
    p.openPositions = engine.desks.countP (fun entry => entry.2.isHolding) ∧
    p.Backed config.portfolio.tradeSize.toRat (events evaluations).length

variable {config : Config} {evaluations : List Evaluation} {engine engine' : Engine}

private theorem ofConfig_covered (hvalid : config.fault? = none) (h : ofConfig config = .ok engine) :
    Covered config [] engine := by
  have hsound := ofConfig_sound h
  simp only [ofConfig, bind_ok_iff, pure_ok_iff] at h
  obtain ⟨account, haccount, rfl⟩ := h
  obtain ⟨p, hstart, rfl⟩ := Account.ofSettings_ok haccount
  refine ⟨hsound, by simp [events], p, rfl, ?_,
    Portfolio.ofSettings_backed _ (Config.startingBalance_pos hvalid) hstart⟩
  obtain ⟨limit, -, rfl⟩ := Portfolio.ofSettings_ok hstart
  rfl

theorem lookup_isHolding {instrument : String} {desk : Desk}
    (hdesk : engine.deskFor instrument = .ok desk) :
    (engine.desks.lookup instrument).any Desk.isHolding = desk.isHolding := by
  rcases deskFor_cases hdesk with hlookup | ⟨hnone, hopen⟩
  · rw [desk?] at hlookup
    rw [hlookup, Option.any_some]
  · rw [desk?] at hnone
    rw [hnone, (Desk.ofConfig_sound hopen).2, Option.any_none]

theorem holding_pos {instrument : String} {desk : Desk} (hdesk : engine.deskFor instrument = .ok desk)
    (hholding : desk.isHolding = true) : 0 < engine.desks.countP (fun entry => entry.2.isHolding) := by
  rw [List.countP_pos_iff]
  rcases deskFor_cases hdesk with hlookup | ⟨-, hopen⟩
  · obtain ⟨name, hmem⟩ := Roster.exists_mem_of_lookup hlookup
    exact ⟨(name, desk), hmem, hholding⟩
  · rw [(Desk.ofConfig_sound hopen).2] at hholding
    cases hholding

theorem Covered.step (hvalid : config.fault? = none) {command : Command}
    {evaluation? : Option Evaluation} (h : Covered config evaluations engine)
    (hstep : Step engine command evaluation? engine') :
    Covered config (evaluations ++ evaluation?.toList) engine' := by
  have hsound := h.sound.step hstep
  obtain ⟨p, hlive, hcount, hbacked⟩ := h.account
  cases hstep with
  | dropped hnone => simpa using h
  | cleared hclear =>
    rw [hlive] at hclear
    obtain ⟨q, hcleared, rfl⟩ := Account.clearHalt_live_yields hclear
    rw [Option.toList_none, List.append_nil]
    refine ⟨hsound, h.losses, q, rfl, ?_, Portfolio.clearHalt_backed hbacked hcleared⟩
    obtain ⟨rfl, -⟩ := Portfolio.clearHalt_yields hcleared
    exact hcount
  | @worked text record desk desk' evaluation account hrecord hdesk hworked =>
    obtain ⟨event, hevents, hturn⟩ := hworked.turn
    have hdeskSound := h.sound.deskFor hdesk
    have hvalidRecord := (Record.parse_ok_iff.1 (Command.record?_message.1 hrecord)).2
    have hput := Roster.countP_put engine.desks record.instrument desk' Desk.isHolding
    rw [lookup_isHolding hdesk] at hput
    have hopen : desk.trader.held.isSome = true → 0 < p.openPositions :=
      fun hholding => hcount ▸ holding_pos hdesk hholding
    rw [hlive] at hturn
    obtain ⟨hlosses, p', rfl, hbacked', hopened⟩ :=
      hturn.backed hdeskSound.trader (Config.tradeSize_pos hvalid)
        (Tape.latestQuote?_valid (hworked.sound hvalidRecord hdeskSound).valid) hopen hbacked
    have hall : events (evaluations ++ [evaluation]) = events evaluations ++ event.toList := by
      simp [events, hevents]
    refine ⟨hsound, ?_, p', rfl, ?_, ?_⟩
    · intro position reason hmem
      rw [Option.toList_some, hall, List.mem_append, Option.mem_toList] at hmem
      exact hmem.elim (h.losses position reason) (hlosses position reason)
    · simp only [Desk.isHolding] at hcount hput ⊢
      simp only [withDesk]
      omega
    · rwa [Option.toList_some, hall, List.length_append]

theorem Run.covered (hvalid : config.fault? = none) {start : Engine} {commands : List Command}
    (hrun : Run start commands evaluations engine) (h : Covered config [] start) :
    Covered config evaluations engine := by
  induction hrun with
  | nil => exact h
  | snoc hrun hstep ih => exact ih.step hvalid hstep

/-- No close loses more than its size, and the balance covers what is committed and is not negative, up
to rounding. -/
theorem solvent_up_to_rounding (hvalid : config.fault? = none) (hstart : ofConfig config = .ok engine)
    {commands : List Command} (hrun : (handleAll commands).Yields engine evaluations engine') :
    (∀ position reason, .closed position reason ∈ events evaluations → position.WithinSize) ∧
    ∃ p, engine'.account = .live p ∧
      -slack (events evaluations).length p.peakBalance.toRat ≤ p.balance.toRat ∧
      p.committed.toRat - slack (events evaluations).length p.peakBalance.toRat ≤ p.balance.toRat := by
  have hcovered := (handleAll_run hrun).covered hvalid (ofConfig_covered hvalid hstart)
  obtain ⟨p, hlive, -, hbacked⟩ := hcovered.account
  have hcommitted := hbacked.committed_nonneg
  have havailable := hbacked.available
  exact ⟨hcovered.losses, p, hlive, by linarith, by linarith⟩

theorem solvent_up_to_rounding_of_total_loss :
    let config : Config := {
      portfolio := { startingBalance := .ofInt64 5, tradeSize := .ofInt64 5 }
      positions := { stopLossCents := 3 }
      activation := { dollarVolume := 0.0 }
      composer := { minSignals := 1 }
      signals := { tradeImbalance := { minTrades := 1 } } }
    let commands : List Command := [
      .message "[\"quote\", \"RAIN\", 0, 3, 2, 3, 0, 0]",
      .message "[\"trade\", \"RAIN\", 1000, \"yes\", 100, 3]",
      .message "[\"quote\", \"RAIN\", 2000, 0, 0, 1, 0, 0]"]
    config.fault? = none ∧ ∃ engine evaluations engine', ofConfig config = .ok engine ∧
      (handleAll commands).Yields engine evaluations engine' ∧ (events evaluations).length = 2 ∧
      (∀ position reason, .closed position reason ∈ events evaluations → position.WithinSize) ∧
      ∃ p, engine'.account = .live p ∧ -slack 2 p.peakBalance.toRat ≤ p.balance.toRat := by
  intro config commands
  have hvalid : config.fault? = none := by decide +kernel
  have hstart : ∃ engine, ofConfig config = .ok engine ∧
      (handleAll commands engine).outcome.toOption.any (fun evaluations =>
        (events evaluations).length = 2) = true := exists_ok_of_any (by decide +kernel)
  obtain ⟨engine, hstart, hrun⟩ := hstart
  obtain ⟨evaluations, hout, htwo⟩ := exists_ok_of_any hrun
  have hyields := Act.yields_of_outcome hout
  obtain ⟨hlosses, p, hlive, hbalance, -⟩ := solvent_up_to_rounding hvalid hstart hyields
  rw [htwo] at hbalance
  exact ⟨hvalid, engine, evaluations, _, hstart, hyields, htwo, hlosses, p, hlive, hbalance⟩

/-- The roundings are real: contracts bought at three cents and sold for nothing lose more than was
paid for them, and leave less than nothing. -/
theorem total_loss_exceeds_size :
    let config : Config := {
      portfolio := { startingBalance := .ofInt64 5, tradeSize := .ofInt64 5 }
      positions := { stopLossCents := 3 }
      activation := { dollarVolume := 0.0 }
      composer := { minSignals := 1 }
      signals := { tradeImbalance := { minTrades := 1 } } }
    let commands : List Command := [
      .message "[\"quote\", \"RAIN\", 0, 3, 2, 3, 0, 0]",
      .message "[\"trade\", \"RAIN\", 1000, \"yes\", 100, 3]",
      .message "[\"quote\", \"RAIN\", 2000, 0, 0, 1, 0, 0]"]
    config.fault? = none ∧ ∃ engine evaluations, ofConfig config = .ok engine ∧
      (handleAll commands).Yields engine evaluations (handleAll commands engine).state ∧
      (∃ event ∈ events evaluations, ∃ pnl ∈ event.position.realizedPnl,
        pnl.toRat < -event.position.size.toRat) ∧
      ∃ p ∈ (handleAll commands engine).state.account.portfolio?,
        p.balance.toRat < 0 ∧ p.balance.toRat < p.committed.toRat := by
  intro config commands
  have hstart : ∃ engine, ofConfig config = .ok engine ∧
      (handleAll commands engine).outcome.toOption.any (fun evaluations =>
        (∃ event ∈ events evaluations, ∃ pnl ∈ event.position.realizedPnl,
          pnl.toRat < -event.position.size.toRat) ∧
        ∃ p ∈ (handleAll commands engine).state.account.portfolio?,
          p.balance.toRat < 0 ∧ p.balance.toRat < p.committed.toRat) = true :=
    exists_ok_of_any (by decide +kernel)
  obtain ⟨engine, hstart, hrun⟩ := hstart
  obtain ⟨evaluations, hout, hshort⟩ := exists_ok_of_any hrun
  exact ⟨by decide +kernel, engine, evaluations, hstart, Act.yields_of_outcome hout, hshort⟩

end Engine

end SignalDesk
