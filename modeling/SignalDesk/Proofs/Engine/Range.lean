import SignalDesk.Proofs.Composer
import SignalDesk.Proofs.Engine.Sound
import SignalDesk.Proofs.Portfolio.Range

/-!
# An engine that is not given up

A valid configuration leaves one thing open: how large amounts can become. As long as they stay in
range no desk gives up the work on a record, whatever the record, the tape and the account are, and so
an engine can handle any number of commands that the amounts endure.
-/

namespace SignalDesk

namespace Config

def reach (config : Config) (commands : Nat) : ℚ :=
  SignalDesk.reach config.portfolio.startingBalance.toRat config.portfolio.tradeSize.toRat commands

/-- All that can be won, lost and committed over some commands is moderate, on its own and against the
starting balance. -/
structure Endures (config : Config) (commands : Nat) : Prop where
  commands_le : commands ≤ 10 ^ 27
  amounts : config.portfolio.startingBalance.toRat +
    200 * config.portfolio.tradeSize.toRat * commands ≤ 10 ^ 21
  losses : config.portfolio.startingBalance.toRat +
    200 * config.portfolio.tradeSize.toRat * commands ≤
      10 ^ 21 * config.portfolio.startingBalance.toRat

variable {config : Config}

theorem reach_mono (hvalid : config.fault? = none) {m n : Nat} (h : m ≤ n) :
    config.reach m ≤ config.reach n :=
  SignalDesk.reach_mono (startingBalance_pos hvalid).le (tradeSize_pos hvalid).le h

theorem reach_succ (hvalid : config.fault? = none) (commands : Nat) :
    (1 + ulp) * (config.reach commands + 200 * config.portfolio.tradeSize.toRat) ≤
      config.reach (commands + 1) :=
  SignalDesk.reach_succ (tradeSize_pos hvalid).le commands

private theorem commitment_le (hvalid : config.fault? = none) {size : Decimal}
    (h : size = config.portfolio.tradeSize) :
    |size.toRat| ≤ 200 * config.portfolio.tradeSize.toRat := by
  have hsize := tradeSize_pos hvalid
  rw [h, abs_of_pos hsize]
  linarith

theorem Endures.mono (hvalid : config.fault? = none) {m n : Nat} (h : config.Endures n) (hle : m ≤ n) :
    config.Endures m := by
  have hsize := tradeSize_pos hvalid
  have hsum : config.portfolio.startingBalance.toRat +
      200 * config.portfolio.tradeSize.toRat * m ≤
        config.portfolio.startingBalance.toRat + 200 * config.portfolio.tradeSize.toRat * n := by
    gcongr
  exact ⟨hle.trans h.commands_le, hsum.trans h.amounts, hsum.trans h.losses⟩

/-- Roundings do not double an amount over so many commands. -/
theorem Endures.moderate (hvalid : config.fault? = none) {commands : Nat} (h : config.Endures commands) :
    Portfolio.Moderate config.portfolio.startingBalance.toRat (config.reach commands) := by
  have hstart := startingBalance_pos hvalid
  have hsize := tradeSize_pos hvalid
  have htwice : config.reach commands ≤ 2 * (config.portfolio.startingBalance.toRat +
      200 * config.portfolio.tradeSize.toRat * commands) := by
    unfold reach SignalDesk.reach
    gcongr
    exact one_add_ulp_pow_le h.commands_le
  refine ⟨hstart, ?_, ?_⟩
  · linarith [h.amounts]
  · linarith [h.losses]

private theorem Endures.tradeSize_le (hvalid : config.fault? = none) {commands : Nat}
    (h : config.Endures (commands + 1)) : config.portfolio.tradeSize.toRat ≤ 10 ^ 22 := by
  have hstart := startingBalance_pos hvalid
  have hsize := tradeSize_pos hvalid
  have hone := (h.mono hvalid (Nat.le_add_left 1 commands)).amounts
  rw [Nat.cast_one, mul_one] at hone
  linarith

end Config

/-- The amounts of an account are what they can be after some commands. -/
def Portfolio.InReach (config : Config) (commands : Nat) (p : Portfolio) : Prop :=
  p.InRange config.portfolio.startingBalance.toRat (config.reach commands)

namespace Trader

open Act Plan

variable {config : Config} {trader trader' : Trader} {account' : Account} {quote : Option Quote}
  {ts : Timestamp} {event : Option PositionEvent} {p : Portfolio} {commands : Nat}

/-- A turn moves the account by a gain, a loss or a commitment that is in reach. -/
theorem Turn.inRange (h : Turn trader (.live p) quote ts event trader' account')
    (hvalid : config.fault? = none) (hsound : trader.Sound config)
    (hquote : ∀ book ∈ quote, (Record.quote book).isValid = true)
    (hp : p.InReach config commands) :
    ∃ p', account' = .live p' ∧
      p'.InReach config (commands + 1) := by
  have hsize := Config.tradeSize_pos hvalid
  have hnext := Config.reach_succ hvalid commands
  have hcommitment := Config.commitment_le hvalid rfl
  cases h with
  | idle => exact ⟨p, rfl, hp.mono (Config.reach_mono hvalid (Nat.le_succ commands))⟩
  | opened hfree hbook hprice hopened hreserve =>
    obtain ⟨p', hgranted, rfl⟩ := Account.within_live_yields hreserve
    rw [hsound.tradeSize] at hgranted
    exact ⟨p', rfl, Portfolio.reserve_inRange hp hcommitment hnext hgranted⟩
  | @closed held reason price pnl halt _ hheld hprice hpnl hsettle =>
    obtain ⟨hheldSize, hopened⟩ := hsound.held held hheld
    obtain ⟨p', hsettled, rfl⟩ := Account.within_live_yields hsettle
    have hgain := hopened.abs_pnlAt_le (by rwa [hheldSize])
      (hprice ▸ hsound.isCents_mark hheld hquote) hpnl
    rw [hheldSize] at hsettled hgain
    exact ⟨p', rfl, Portfolio.settle_inRange hp hcommitment hgain hnext hsettled⟩

private theorem exitReason?_ok (hvalid : config.fault? = none) (hsound : trader.Sound config)
    (position : Position) (mark : Option Int64) (ts : Timestamp) :
    ∃ reason?, trader.settings.exitReason? position mark ts = .ok reason? := by
  unfold PositionSettings.exitReason?
  split
  · exact ⟨_, rfl⟩
  · rw [hsound.settings, PositionSettings.isOverdue, Config.timeStop_of_valid hvalid]
    exact ⟨_, rfl⟩

private theorem exitPlan_total (hvalid : config.fault? = none) (hsound : trader.Sound config)
    (hquote : ∀ book ∈ quote, (Record.quote book).isValid = true)
    (hp : p.InReach config commands)
    (hm : config.Endures (commands + 1))
    (ts : Timestamp) : (exitPlan quote ts trader).run.Total (trader, .live p) := by
  have hsize := Config.tradeSize_pos hvalid
  unfold exitPlan
  split
  · exact run_done_total rfl
  · rename_i held hheld
    obtain ⟨reason?, hreason⟩ := exitReason?_ok hvalid hsound held
      (quote.map fun book => book.bidFor held.side) ts
    simp only [hreason]
    cases reason? with
    | none => exact run_done_total rfl
    | some reason =>
      obtain ⟨hheldSize, hopened⟩ := hsound.held held hheld
      have hcents := hsound.isCents_mark hheld hquote
      obtain ⟨pnl, hpnl⟩ := hopened.pnlAt_ok (by rwa [hheldSize])
        (by rw [hheldSize]; exact hm.tradeSize_le hvalid) hcents
      have hgain := hopened.abs_pnlAt_le (by rwa [hheldSize]) hcents hpnl
      rw [hheldSize] at hgain
      have hsettle := Portfolio.settle_total (hm.moderate hvalid) (Config.reach_succ hvalid commands) hp
        (Config.commitment_le hvalid hheldSize) hgain
      simp only [closePlan, hpnl]
      exact run_ask_total (Account.within_live_total _ hsettle) fun halt => ⟨_, _, rfl, rfl⟩

private theorem entryPlan_total (hvalid : config.fault? = none) (hsound : trader.Sound config)
    (hp : p.InReach config commands)
    (hm : config.Endures (commands + 1))
    (composite : Composite) (quote : Option Quote) :
    (entryPlan composite quote trader).run.Total (trader, .live p) := by
  have hsize := Config.tradeSize_pos hvalid
  unfold entryPlan
  split
  · exact run_done_total rfl
  · split
    · exact run_done_total rfl
    · rename_i entry hentry
      obtain ⟨-, book, -, rfl, hprice, -⟩ := entryOn_ok hentry
      have hreserve := Portfolio.reserve_total (hm.moderate hvalid)
        (Config.reach_succ hvalid commands) hp (Config.commitment_le hvalid hsound.tradeSize)
      refine run_ask_total (Account.within_live_total _ hreserve) fun granted => ?_
      cases granted with
      | error refusal => exact ⟨_, _, rfl, rfl⟩
      | ok granted =>
        have hsmall : |trader.tradeSize.toRat| ≤ 10 ^ 22 := by
          rw [hsound.tradeSize, abs_of_pos hsize]
          exact hm.tradeSize_le hvalid
        obtain ⟨contracts, hcontracts⟩ :=
          Position.contractsFor_ok (Int64.lt_iff_toInt_lt.1 hprice) hsmall
        simp only [total_iff, enter, Position.openAt, hcontracts]
        exact ⟨_, rfl⟩

end Trader

namespace Desk

open Act Plan

variable {config : Config} {desk desk' : Desk} {p : Portfolio} {commands : Nat}

private theorem evaluate_yields_of_valid (hvalid : config.fault? = none) (desk : Desk) :
    ∃ composite, (evaluate (.ofConfig config)).Yields desk composite desk := by
  obtain ⟨composite, hcomposite⟩ := Composer.evaluate_of_valid hvalid desk.tape
  refine ⟨composite, ?_⟩
  simp only [evaluate, yields_bind_iff, yields_get_iff, yields_lift_iff, yields_notify_iff,
    yields_pure_iff]
  exact ⟨desk, desk, ⟨rfl, rfl⟩, composite, desk, ⟨hcomposite, rfl⟩, (), desk, rfl, rfl, rfl⟩

private theorem conclude_total (hvalid : config.fault? = none) (ts : Timestamp)
    (events : List PositionEvent)
    (desk : Desk) : (conclude (.ofConfig config) ts events).Total desk := by
  obtain ⟨composite, hcomposite⟩ := evaluate_yields_of_valid hvalid desk
  exact hcomposite.total_bind (total_get_bind (total_pure _ _))

private theorem report_total (ts : Timestamp) (composite : Composite)
    (reply : Except Refusal (Option PositionEvent)) (desk : Desk) :
    (report ts composite reply).Total desk := by
  cases reply with
  | ok event => exact total_get_bind (total_pure _ _)
  | error refusal => exact total_get_bind (total_notify_bind (total_pure _ _))

private theorem entryPlan_total (hvalid : config.fault? = none) (hdesk : desk.trader.Sound config)
    (hp : p.InReach config commands)
    (hm : config.Endures (commands + 1))
    (ts : Timestamp) (composite : Option Composite) :
    (entryPlan ts composite desk).run.Total (desk, .live p) := by
  cases composite with
  | none => exact run_done_total rfl
  | some composite =>
    exact run_andThen_total (run_focus_total (fun _ _ => rfl)
      (Trader.entryPlan_total hvalid hdesk hp hm composite _)) (report_total ts composite)

theorem recordPlan_total (hvalid : config.fault? = none) (hdesk : desk.Sound config) {record : Record}
    (hrecord : record.isValid = true)
    (hp : p.InReach config commands)
    (hm : config.Endures (commands + 1)) :
    (recordPlan (.ofConfig config) record desk).run.Total (desk, .live p) := by
  unfold recordPlan
  simp only
  have hupdated : ({ desk with tape := desk.tape.update record } : Desk).Sound config :=
    ⟨Tape.update_valid hrecord hdesk.valid, hdesk.trader⟩
  have hquote := Tape.latestQuote?_valid hupdated.valid
  have hexit : (Plan.focus Desk.trader setTrader
      (Trader.exitPlan (desk.tape.update record).latestQuote? record.ts)
      { desk with tape := desk.tape.update record }).run.Total
        ({ desk with tape := desk.tape.update record }, .live p) :=
    run_focus_total (fun _ _ => rfl)
      (Trader.exitPlan_total hvalid hupdated.trader hquote hp hm record.ts)
  split
  · rename_i desk₁ notices hdone
    rw [hdone] at hexit
    -- the desk after an exit check without an exit has a sound trader, too
    have hnone : (Plan.focus Desk.trader setTrader
        (Trader.exitPlan (desk.tape.update record).latestQuote? record.ts)
        { desk with tape := desk.tape.update record }).run.Yields
          ({ desk with tape := desk.tape.update record }, .live p) none (desk₁, .live p) := by
      rw [hdone]
      exact run_done_yields_iff.2 ⟨rfl, rfl, rfl⟩
    have hsound := (Trader.exitPlan_turn (focus_trader_yields hnone).2).sound hupdated.trader
    obtain ⟨composite, hcomposite⟩ := evaluate_yields_of_valid hvalid desk₁
    have hevaluate : (do Act.notify notices; evaluate (.ofConfig config) : Act Desk _).Yields desk₁
        composite desk₁ :=
      yields_bind_iff.2 ⟨(), desk₁, yields_notify_iff.2 rfl, hcomposite⟩
    exact run_after_total hevaluate (entryPlan_total hvalid hsound hp hm record.ts composite)
  · exact run_andThen_total hexit fun closed => conclude_total hvalid record.ts _

end Desk

namespace Engine

open Act

/-- An engine of a configuration whose account is what it can be after some commands. -/
structure InReach (config : Config) (commands : Nat) (engine : Engine) : Prop where
  sound : engine.Sound config
  account : ∃ p, engine.account = .live p ∧ p.InReach config commands

variable {config : Config} {engine engine' : Engine} {commands : Nat} {evaluation? : Option Evaluation}

theorem ofConfig_inReach (hvalid : config.fault? = none) :
    ∃ engine, ofConfig config = .ok engine ∧ engine.InReach config 0 := by
  obtain ⟨hpos, hle⟩ := Config.drawdownHaltPercent_of_valid hvalid
  obtain ⟨limit, hlimit⟩ := Decimal.div_ok (a := config.portfolio.drawdownHaltPercent) (b := .hundred)
    (by rw [Decimal.toRat_hundred]; norm_num) (by
      rw [Decimal.toRat_hundred, abs_of_pos (by linarith)]
      linarith)
  obtain ⟨p, hp⟩ : ∃ p, Portfolio.ofSettings config.portfolio = .ok p := by
    rw [Portfolio.ofSettings, hlimit]
    exact ⟨_, rfl⟩
  have hopen : ofConfig config = .ok ⟨config, .ofConfig config, .live p, []⟩ := by
    rw [ofConfig, Account.ofSettings, hp]
    rfl
  refine ⟨_, hopen, ofConfig_sound hopen, p, rfl, ?_⟩
  rw [Portfolio.InReach, Config.reach, reach_zero]
  exact Portfolio.ofSettings_inRange (Config.startingBalance_pos hvalid).le hp

theorem InReach.succ (hvalid : config.fault? = none) (h : engine.InReach config commands) :
    engine.InReach config (commands + 1) := by
  obtain ⟨p, hlive, hp⟩ := h.account
  exact ⟨h.sound, p, hlive, hp.mono (Config.reach_mono hvalid (Nat.le_succ commands))⟩

theorem InReach.worked (hvalid : config.fault? = none) (h : engine.InReach config commands)
    {record : Record} {desk desk' : Desk} {evaluation : Evaluation} {account : Account}
    (hrecord : record.isValid = true) (hdesk : engine.deskFor record.instrument = .ok desk)
    (hworked : Desk.Worked engine.composer record desk engine.account evaluation desk' account) :
    (engine.withDesk record.instrument desk' account).InReach config (commands + 1) := by
  obtain ⟨p, hlive, hp⟩ := h.account
  have hdeskSound := h.sound.deskFor hdesk
  have hdeskSound' := hworked.sound hrecord hdeskSound
  obtain ⟨event, -, hturn⟩ := hworked.turn
  rw [hlive] at hturn
  obtain ⟨p', rfl, hp'⟩ :=
    hturn.inRange hvalid hdeskSound.trader (Tape.latestQuote?_valid hdeskSound'.valid) hp
  exact ⟨h.sound.withDesk hdeskSound' _ _, p', rfl, hp'⟩

theorem InReach.process (hvalid : config.fault? = none) (h : engine.InReach config commands)
    {record : Record} (hprocess : (process record).Yields engine evaluation? engine') :
    engine'.InReach config (commands + 1) := by
  rcases process_cases hprocess with ⟨-, -, rfl⟩ | ⟨hrecord, desk, _, desk', account, -, hdesk, hworked, rfl⟩
  · exact h.succ hvalid
  · exact h.worked hvalid hrecord hdesk hworked

theorem InReach.step (hvalid : config.fault? = none) (h : engine.InReach config commands)
    {command : Command} (hstep : Step engine command evaluation? engine') :
    engine'.InReach config (commands + 1) := by
  cases hstep with
  | dropped hnone => exact h.succ hvalid
  | cleared hclear =>
    obtain ⟨p, hlive, hp⟩ := h.account
    rw [hlive] at hclear
    obtain ⟨q, hcleared, rfl⟩ := Account.clearHalt_live_yields hclear
    have hcleared' : Engine.InReach config commands { engine with account := .live q } :=
      ⟨⟨h.sound.sameConfig, h.sound.sameComposer, h.sound.desks⟩, q, rfl,
        Portfolio.clearHalt_inRange hp hcleared⟩
    exact hcleared'.succ hvalid
  | worked hrecord hdesk hworked =>
    exact h.worked hvalid (Record.parse_ok_iff.1 (Command.record?_message.1 hrecord)).2 hdesk hworked

theorem deskFor_ok (hvalid : config.fault? = none) (h : engine.Sound config) (instrument : String) :
    ∃ desk, engine.deskFor instrument = .ok desk := by
  unfold deskFor
  split
  · exact ⟨_, rfl⟩
  · obtain ⟨_, _, -, -, -, -, hopen⟩ := Desk.ofConfig_of_valid hvalid instrument
    rw [h.sameComposer, h.sameConfig]
    exact ⟨_, hopen⟩

private theorem process_total (hvalid : config.fault? = none) (h : engine.InReach config commands)
    (hm : config.Endures (commands + 1)) (record : Record) : (process record).Total engine := by
  cases hrecord : record.isValid with
  | false =>
    rw [process, hrecord, if_neg (by decide)]
    exact total_notify_bind (total_pure _ _)
  | true =>
    obtain ⟨p, hlive, hp⟩ := h.account
    obtain ⟨desk, hdesk⟩ := deskFor_ok hvalid h.sound record.instrument
    obtain ⟨evaluation, ⟨desk', account⟩, hplan⟩ :=
      Desk.recordPlan_total hvalid (h.sound.deskFor hdesk) hrecord hp hm
    rw [← hlive, ← h.sound.sameComposer] at hplan
    exact (process_yields hrecord hdesk hplan).total

private theorem handle_total (hvalid : config.fault? = none) (h : engine.InReach config commands)
    (hm : config.Endures (commands + 1)) (command : Command) : (handle command).Total engine := by
  cases command with
  | message text =>
    rw [handle, processMessage]
    cases Record.decode? text with
    | none => exact total_notify_bind (total_pure _ _)
    | some record => exact process_total hvalid h hm record
  | clearHalt =>
    obtain ⟨p, hlive, hp⟩ := h.account
    have hclear : Account.clearHalt.Total engine.account := by
      rw [hlive]
      exact Account.clearHalt_live_total
        (Portfolio.clearHalt_total ((hm.mono hvalid (Nat.le_succ commands)).moderate hvalid) hp)
    have hfocus : Engine.clearHalt.Total engine := total_focus hclear
    obtain ⟨_, _, hcleared⟩ := hfocus
    exact hcleared.total_bind (total_pure _ _)

/-- An engine handles as many commands as its amounts endure. -/
theorem handleAll_total (hvalid : config.fault? = none) {rest : List Command}
    (h : engine.InReach config commands) (hm : config.Endures (commands + rest.length)) :
    (handleAll rest).Total engine := by
  induction rest generalizing engine commands with
  | nil => exact total_pure _ _
  | cons command rest ih =>
    rw [List.length_cons] at hm
    obtain ⟨evaluation?, engine', hhandle⟩ :=
      handle_total hvalid h (hm.mono hvalid (by omega)) command
    have hnext := h.step hvalid (handle_step hhandle)
    obtain ⟨evaluations, engine'', hrest⟩ := ih hnext (by rwa [Nat.add_right_comm])
    exact hhandle.total_bind (hrest.total_bind (total_pure _ _))

theorem InReach.processAll (hvalid : config.fault? = none) {records : List Record}
    {evaluations : List Evaluation} (h : engine.InReach config commands)
    (hrun : (processAll records).Yields engine evaluations engine') :
    engine'.InReach config (commands + records.length) := by
  induction records generalizing engine commands evaluations with
  | nil =>
    obtain ⟨-, rfl⟩ := yields_pure_iff.1 hrun
    exact h
  | cons record records ih =>
    simp only [Engine.processAll, yields_bind_iff, yields_pure_iff] at hrun
    obtain ⟨_, engine₁, hprocess, _, _, hrest, -, rfl⟩ := hrun
    rw [List.length_cons, Nat.add_comm records.length, ← Nat.add_assoc]
    exact ih (h.process hvalid hprocess) hrest

end Engine

end SignalDesk
