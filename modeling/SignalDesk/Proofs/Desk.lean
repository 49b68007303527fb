import SignalDesk.Engine.Desk
import SignalDesk.Proofs.Composer
import SignalDesk.Proofs.Trader

/-!
# The work of a desk

The evaluation of a record is about the instrument of the desk and has the time of the record. It
reports the composite of the updated tape and the one turn that the trader takes.
-/

namespace SignalDesk.Desk

open Act Plan

variable {desk desk' : Desk} {account account' : Account} {evaluation : Evaluation}

/-- What becomes of a trader and of the account when the tape of a record has been updated: an exit,
or none and then, if there is a composite, an attempt to enter. -/
inductive Decision (quote : Option Quote) (ts : Timestamp) (composite : Option Composite)
    (trader : Trader) (account : Account) : List PositionEvent → Trader → Account → Prop
  | exited {event : PositionEvent} {trader' : Trader} {account' : Account}
      (hexit : (Trader.checkExit quote ts).Yields (trader, account) (some event)
        (trader', account')) :
      Decision quote ts composite trader account [event] trader' account'
  | ungated (hexit : (Trader.checkExit quote ts).Yields (trader, account) none (trader, account))
      (hnone : composite = none) : Decision quote ts composite trader account [] trader account
  | tried {called : Composite} {reply : Except Refusal (Option PositionEvent)} {trader' : Trader}
      {account' : Account}
      (hexit : (Trader.checkExit quote ts).Yields (trader, account) none (trader, account))
      (hsome : composite = some called)
      (hentry : (Trader.tryEnter called quote).Yields (trader, account) reply (trader', account')) :
      Decision quote ts composite trader account (Trader.eventOf? reply).toList trader' account'

/-- What a desk and the account are after a record, what the evaluation of the record says and how it
came about. -/
structure Decided (composer : Composer) (record : Record) (desk : Desk) (account : Account)
    (evaluation : Evaluation) (desk' : Desk) (account' : Account) : Prop where
  tape : desk'.tape = desk.tape.update record
  instrument : evaluation.instrument = desk.tape.instrument
  ts : evaluation.ts = record.ts
  composite : composer.evaluate desk'.tape = .ok evaluation.composite
  decision : Decision desk'.tape.latestQuote? record.ts evaluation.composite desk.trader account
    evaluation.events desk'.trader account'

/-- What a desk and the account are after a record, and what the evaluation of the record says. -/
structure Worked (composer : Composer) (record : Record) (desk : Desk) (account : Account)
    (evaluation : Evaluation) (desk' : Desk) (account' : Account) : Prop where
  tape : desk'.tape = desk.tape.update record
  instrument : evaluation.instrument = desk.tape.instrument
  ts : evaluation.ts = record.ts
  composite : composer.evaluate desk'.tape = .ok evaluation.composite
  turn : ∃ event, evaluation.events = event.toList ∧
    Trader.Turn desk.trader account desk'.tape.latestQuote? record.ts event desk'.trader account'

private theorem evaluate_yields {composer : Composer} {composite : Option Composite}
    (h : (evaluate composer).Yields desk composite desk') :
    desk' = desk ∧ composer.evaluate desk.tape = .ok composite := by
  simp only [evaluate, yields_bind_iff, yields_get_iff, yields_lift_iff, yields_notify_iff,
    yields_pure_iff] at h
  obtain ⟨_, _, ⟨rfl, rfl⟩, _, _, ⟨hcomposite, rfl⟩, _, _, rfl, rfl, rfl⟩ := h
  exact ⟨rfl, hcomposite⟩

private theorem conclude_yields {composer : Composer} {ts : Timestamp} {events : List PositionEvent}
    (h : (conclude composer ts events).Yields desk evaluation desk') :
    desk' = desk ∧ ∃ composite, composer.evaluate desk.tape = .ok composite ∧
      evaluation = ⟨desk.tape.instrument, ts, composite, events⟩ := by
  simp only [conclude, yields_bind_iff, yields_get_iff, yields_pure_iff] at h
  obtain ⟨composite, _, hevaluate, _, _, ⟨rfl, rfl⟩, rfl, rfl⟩ := h
  obtain ⟨rfl, hcomposite⟩ := evaluate_yields hevaluate
  exact ⟨rfl, composite, hcomposite, rfl⟩

private theorem report_yields {ts : Timestamp} {composite : Composite}
    {reply : Except Refusal (Option PositionEvent)}
    (h : (report ts composite reply).Yields desk evaluation desk') :
    desk' = desk ∧ evaluation =
      ⟨desk.tape.instrument, ts, some composite, (Trader.eventOf? reply).toList⟩ := by
  cases reply with
  | ok event =>
    simp only [report, yields_bind_iff, yields_get_iff, yields_pure_iff] at h
    obtain ⟨_, _, ⟨rfl, rfl⟩, rfl, rfl⟩ := h
    exact ⟨rfl, rfl⟩
  | error refusal =>
    simp only [report, yields_bind_iff, yields_get_iff, yields_notify_iff, yields_pure_iff] at h
    obtain ⟨_, _, ⟨rfl, rfl⟩, _, _, rfl, rfl, rfl⟩ := h
    exact ⟨rfl, rfl⟩

theorem focus_trader_yields {α : Type} {plan : Trader → Plan Trader α} {a : α}
    (h : (focus Desk.trader setTrader plan desk).run.Yields (desk, account) a (desk', account')) :
    desk'.tape = desk.tape ∧
      (plan desk.trader).run.Yields (desk.trader, account) a (desk'.trader, account') := by
  have hpart (d : Desk) (t : Trader) : (setTrader d t).trader = t := rfl
  have htwice (d : Desk) (t u : Trader) : setTrader (setTrader d t) u = setTrader d u := rfl
  obtain ⟨trader, hplan, rfl⟩ := run_focus_yields hpart htwice h
  exact ⟨rfl, hplan⟩

private theorem entryPlan_yields {ts : Timestamp} {composite : Option Composite}
    (h : (entryPlan ts composite desk).run.Yields (desk, account) evaluation (desk', account'))
    (hexit : (Trader.checkExit desk.tape.latestQuote? ts).Yields (desk.trader, account) none
      (desk.trader, account)) :
    desk'.tape = desk.tape ∧ ∃ events,
      evaluation = ⟨desk.tape.instrument, ts, composite, events⟩ ∧
      Decision desk.tape.latestQuote? ts composite desk.trader account events desk'.trader
        account' := by
  cases composite with
  | none =>
    obtain ⟨hout, rfl, rfl⟩ := run_done_yields_iff.1 h
    exact ⟨rfl, [], (Except.ok.inj hout).symm, .ungated hexit rfl⟩
  | some composite =>
    obtain ⟨reply, desk₁, henter, hreport⟩ := run_andThen_yields_iff.1 h
    obtain ⟨rfl, rfl⟩ := report_yields hreport
    obtain ⟨htape, hplan⟩ := focus_trader_yields henter
    exact ⟨htape, _, by rw [htape], .tried hexit rfl (Trader.tryEnter_iff.2 hplan)⟩

theorem evaluate_ts {composer : Composer} {tape : Tape} {composite : Composite} {ts : Timestamp}
    (h : composer.evaluate tape = .ok (some composite)) (hlatest : tape.latest = some ts) :
    composite.ts = ts := by
  obtain ⟨_, _, hts, -, rfl⟩ := Composer.evaluate_some h
  rw [hlatest] at hts
  exact (Option.some.inj hts).symm

theorem onRecord_iff {composer : Composer} {record : Record} {state' : Desk × Account} :
    (onRecord composer record).Yields (desk, account) evaluation state' ↔
      (recordPlan composer record desk).run.Yields (desk, account) evaluation state' :=
  Iff.rfl

theorem recordPlan_decided {composer : Composer} {record : Record}
    (h : (recordPlan composer record desk).run.Yields (desk, account) evaluation
      (desk', account')) : Decided composer record desk account evaluation desk' account' := by
  have htape : ({ desk with tape := desk.tape.update record } : Desk).tape =
      desk.tape.update record := rfl
  have htrader : ({ desk with tape := desk.tape.update record } : Desk).trader = desk.trader := rfl
  unfold recordPlan at h
  simp only at h
  generalize ({ desk with tape := desk.tape.update record } : Desk) = updated at h htape htrader
  split at h
  · rename_i desk₁ notices hdone
    have hnone : (Plan.focus Desk.trader setTrader
        (Trader.exitPlan (desk.tape.update record).latestQuote? record.ts) updated).run.Yields
        (updated, account) none (desk₁, account) := by
      rw [hdone]
      exact run_done_yields_iff.2 ⟨rfl, rfl, rfl⟩
    obtain ⟨hkept, hplan⟩ := focus_trader_yields hnone
    have hidle := hplan
    rw [Trader.exitPlan_of_none hplan, run_done_yields_iff] at hidle
    rw [← hidle.2.1, htrader] at hplan
    obtain ⟨composite, desk₂, hevaluate, hentry⟩ := run_after_yields h
    simp only [yields_bind_iff, yields_notify_iff] at hevaluate
    obtain ⟨_, _, rfl, hevaluate⟩ := hevaluate
    obtain ⟨rfl, hcomposite⟩ := evaluate_yields hevaluate
    rw [hkept, htape] at hcomposite
    have hexit : (Trader.checkExit desk₂.tape.latestQuote? record.ts).Yields (desk₂.trader, account)
        none (desk₂.trader, account) := by
      rw [hkept, htape, ← hidle.2.1, htrader]
      exact Trader.checkExit_iff.2 hplan
    obtain ⟨hsame, events, rfl, hdecision⟩ := entryPlan_yields hentry hexit
    rw [hkept, htape] at hsame hdecision
    rw [← hidle.2.1, htrader] at hdecision
    exact ⟨hsame, by rw [hkept, htape]; rfl, rfl, hsame ▸ hcomposite, hsame ▸ hdecision⟩
  · rename_i hnotdone
    obtain ⟨closed, desk₁, hexit, hconclude⟩ := run_andThen_yields_iff.1 h
    obtain ⟨rfl, composite, hcomposite, rfl⟩ := conclude_yields hconclude
    obtain ⟨hkept, hplan⟩ := focus_trader_yields hexit
    rw [hkept, htape] at hcomposite
    rw [htape] at hkept
    cases closed with
    | none =>
      -- an exit check without an exit takes the other branch
      refine absurd ?_ (hnotdone (setTrader updated updated.trader) [])
      rw [Plan.focus, Trader.exitPlan_of_none hplan]
    | some event =>
      rw [htrader] at hplan
      exact ⟨hkept, by rw [hkept]; rfl, rfl, hkept ▸ hcomposite, .exited (Trader.checkExit_iff.2 (hkept ▸ hplan))⟩

theorem Decision.turn {quote : Option Quote} {ts : Timestamp} {composite : Option Composite}
    {trader trader' : Trader} {events : List PositionEvent}
    (h : Decision quote ts composite trader account events trader' account')
    (hts : ∀ called ∈ composite, called.ts = ts) :
    ∃ event, events = event.toList ∧
      Trader.Turn trader account quote ts event trader' account' := by
  cases h with
  | exited hexit => exact ⟨_, rfl, Trader.exitPlan_turn (Trader.checkExit_iff.1 hexit)⟩
  | ungated hexit hnone => exact ⟨none, rfl, .idle⟩
  | tried hexit hsome hentry =>
    have hturn := Trader.entryPlan_turn (Trader.tryEnter_iff.1 hentry)
    rw [hts _ hsome] at hturn
    exact ⟨_, rfl, hturn⟩

theorem Decided.worked {composer : Composer} {record : Record}
    (h : Decided composer record desk account evaluation desk' account') :
    Worked composer record desk account evaluation desk' account' := by
  refine ⟨h.tape, h.instrument, h.ts, h.composite, h.decision.turn fun called hcalled => ?_⟩
  have hlatest : desk'.tape.latest = some record.ts := by
    rw [h.tape]
    rfl
  exact evaluate_ts (Option.mem_def.1 hcalled ▸ h.composite) hlatest

theorem recordPlan_worked {composer : Composer} {record : Record}
    (h : (recordPlan composer record desk).run.Yields (desk, account) evaluation
      (desk', account')) : Worked composer record desk account evaluation desk' account' :=
  (recordPlan_decided h).worked

private theorem evaluate_state (composer : Composer) (desk : Desk) :
    (evaluate composer desk).state = desk := by
  simp only [evaluate, bind, Act.bind, Act.get, Act.lift]
  cases composer.evaluate desk.tape <;> rfl

private theorem conclude_state (composer : Composer) (ts : Timestamp) (events : List PositionEvent)
    (desk : Desk) : (conclude composer ts events desk).state = desk := by
  simp only [conclude, evaluate, bind, Act.bind, Act.get, Act.lift]
  cases composer.evaluate desk.tape <;> rfl

private theorem report_state (ts : Timestamp) (composite : Composite)
    (reply : Except Refusal (Option PositionEvent)) (desk : Desk) :
    (report ts composite reply desk).state = desk := by
  cases reply <;> rfl

/-- What the exit plan of the trader keeps of the trader and its entry plan then makes of it, the work
on a record makes of the desk, even where it is given up. An entry has the time of the record. -/
theorem recordPlan_leads {before later : Desk → Prop} {exited entered : Trader → Prop}
    {record : Record} (hmono : ∀ d, before d → later d)
    (hexited : ∀ d t, before d → exited t → before (setTrader d t))
    (hentered : ∀ d t, later d → entered t → later (setTrader d t))
    (htrader : ∀ d, before d → exited d.trader)
    (hexit : ∀ quote ts trader, exited trader → (Trader.exitPlan quote ts trader).Keeps exited)
    (hentry : ∀ composite quote trader, composite.ts = record.ts → exited trader →
      (Trader.entryPlan composite quote trader).Keeps entered)
    (composer : Composer) {desk : Desk}
    (hupdated : before { desk with tape := desk.tape.update record }) :
    (recordPlan composer record desk).Keeps later := by
  have hpart (d : Desk) (t : Trader) : (setTrader d t).trader = t := rfl
  let updated : Desk → Prop := fun d => before d ∧ d.tape = desk.tape.update record
  have hlater (d : Desk) (hd : updated d) : later d := hmono d hd.1
  have hreplace (d : Desk) (t : Trader) (hd : updated d) (ht : exited t) : updated (setTrader d t) :=
    ⟨hexited d t hd.1 ht, hd.2⟩
  have hchecked (quote : Option Quote) := Keeps.focus hpart hreplace ⟨hupdated, rfl⟩
    (hexit quote record.ts _ (htrader _ hupdated))
  unfold recordPlan
  simp only
  split
  · rename_i desk₁ notices hplan
    have hkept := hchecked (desk.tape.update record).latestQuote?
    rw [hplan] at hkept
    refine keeps_after hlater ?_ fun composite d hwork hd => ?_
    · change updated (Act.bind (Act.notify notices) (fun _ => evaluate composer) desk₁).state
      simp only [Act.bind, Act.notify, evaluate_state]
      exact hkept
    · cases composite with
      | none => exact hlater d hd
      | some composite =>
        have hts : composite.ts = record.ts := by
          simp only [yields_bind_iff, yields_notify_iff] at hwork
          obtain ⟨_, _, rfl, hevaluate⟩ := hwork
          obtain ⟨rfl, hcomposite⟩ := evaluate_yields hevaluate
          exact evaluate_ts hcomposite (by rw [hd.2]; rfl)
        refine (Keeps.focus hpart hentered (hlater d hd)
          (hentry _ _ _ hts (htrader d hd.1))).andThen fun reply e he => ?_
        rw [report_state]
        exact he
  · refine ((hchecked _).andThen fun closed d hd => ?_).mono hlater
    rw [conclude_state]
    exact hd

/-- What the plans of the trader keep of the trader, the work on a record keeps of the desk, even where
it is given up. -/
theorem recordPlan_keeps {holds : Desk → Prop} {inner : Trader → Prop}
    (hreplace : ∀ d t, holds d → inner t → holds (setTrader d t))
    (htrader : ∀ d, holds d → inner d.trader)
    (hexit : ∀ quote ts trader, inner trader → (Trader.exitPlan quote ts trader).Keeps inner)
    (hentry : ∀ composite quote trader, inner trader →
      (Trader.entryPlan composite quote trader).Keeps inner)
    (composer : Composer) (record : Record) {desk : Desk}
    (hupdated : holds { desk with tape := desk.tape.update record }) :
    (recordPlan composer record desk).Keeps holds :=
  recordPlan_leads (fun _ h => h) hreplace hreplace htrader hexit
    (fun composite quote trader _ => hentry composite quote trader) composer hupdated

/-- The tape of a desk depends on its records alone, even where the work on one is given up. -/
theorem onRecord_tape (composer : Composer) (record : Record) (desk : Desk) (account : Account) :
    (onRecord composer record (desk, account)).state.1.tape = desk.tape.update record := by
  have hkeeps : (recordPlan composer record desk).Keeps fun d => d.tape = desk.tape.update record :=
    recordPlan_keeps (fun _ _ h _ => h) (fun _ _ => trivial) (fun _ _ _ _ => keeps_true _)
      (fun _ _ _ _ => keeps_true _) composer record rfl
  exact hkeeps.run desk account

end SignalDesk.Desk
