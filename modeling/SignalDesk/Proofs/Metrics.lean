import SignalDesk.Engine.Desk
import SignalDesk.Proofs.Trader
import SignalDesk.Proofs.Trail

/-!
# Metrics of the work on a record

The counters of a trail are those of its parts. The gauges are set again whenever the account has
moved, so that they show the portfolio as it is; nothing else sets them.
-/

namespace SignalDesk

open Act Plan

namespace Metrics

variable {first second trail : List Notice}

theorem count_append (counter : Counter) (first second : List Notice) :
    count counter (first ++ second) = count counter first + count counter second := by
  rw [count, List.filterMap_append, List.count_append]
  rfl

theorem gauge?_append (series : String) (first second : List Notice) :
    gauge? series (first ++ second) = (gauge? series second).or (gauge? series first) := by
  rw [gauge?, List.filterMap_append, List.reverse_append, List.find?_append]
  rfl

theorem count_eq_zero {counter : Counter} {trail : List Notice}
    (h : ∀ notice ∈ trail, notice.counter? ≠ some counter) : count counter trail = 0 := by
  rw [count, List.count_eq_zero, List.mem_filterMap]
  rintro ⟨notice, hnotice, hcounter⟩
  exact h notice hnotice hcounter

def increments (trail : List Notice) : List Counter := trail.filterMap Notice.counter?

@[simp] theorem increments_nil : increments [] = [] := rfl

@[simp] theorem increments_append (first second : List Notice) :
    increments (first ++ second) = increments first ++ increments second :=
  List.filterMap_append

@[simp] theorem increments_count_cons (counter : Counter) (trail : List Notice) :
    increments (.count counter :: trail) = counter :: increments trail := rfl

@[simp] theorem increments_gauge_cons (gauge : Gauge) (trail : List Notice) :
    increments (.gauge gauge :: trail) = increments trail := rfl

@[simp] theorem increments_logging_cons (level : LogLevel) (source : LogSource) (message : String)
    (fields : List (String × Data)) (trail : List Notice) :
    increments (.logging level source message fields :: trail) = increments trail := rfl

def Ungauged (trail : List Notice) : Prop := ∀ gauge, Notice.gauge gauge ∉ trail

@[simp] theorem ungauged_nil : Ungauged [] := fun _ => List.not_mem_nil

@[simp] theorem ungauged_append_iff : Ungauged (first ++ second) ↔ Ungauged first ∧ Ungauged second := by
  simp only [Ungauged, List.mem_append, not_or, forall_and]

@[simp] theorem ungauged_count_cons_iff {counter : Counter} :
    Ungauged (.count counter :: trail) ↔ Ungauged trail := by
  simp [Ungauged]

@[simp] theorem ungauged_logging_cons_iff {level : LogLevel} {source : LogSource} {message : String}
    {fields : List (String × Data)} :
    Ungauged (.logging level source message fields :: trail) ↔ Ungauged trail := by
  simp [Ungauged, Notice.logging]

theorem Ungauged.gauge? (h : Ungauged trail) (series : String) : gauge? series trail = none := by
  have hnone : trail.filterMap Notice.gauge? = [] := by
    rw [List.filterMap_eq_nil_iff]
    intro notice hnotice
    cases notice with
    | gauge gauge => exact absurd hnotice (h gauge)
    | count counter => rfl
    | log line => rfl
  rw [Metrics.gauge?, hnone]
  rfl

end Metrics

open Metrics (increments Ungauged)

/-- The gauges of a trail show a portfolio. -/
structure Portfolio.ShownBy (portfolio : Portfolio) (trail : List Notice) : Prop where
  balance : Metrics.gauge? "balance_usd" trail = some (.balance portfolio.balance.toFloat)
  drawdown : ∃ percent, (portfolio.drawdown >>= (·.mul .hundred)) = .ok percent ∧
    Metrics.gauge? "drawdown_pct" trail = some (.drawdown percent.toFloat)
  openPositions : Metrics.gauge? "open_positions" trail =
    some (.openPositions portfolio.openPositions)
  halted : ∃ halt, portfolio.haltReason? = .ok halt ∧
    Metrics.gauge? "halted" trail = some (.halted halt.isSome)

namespace Portfolio.ShownBy

variable {portfolio : Portfolio} {first second trail : List Notice}

theorem mono (h : portfolio.ShownBy first)
    (hsame : ∀ series gauge, Metrics.gauge? series first = some gauge →
      Metrics.gauge? series second = some gauge) : portfolio.ShownBy second where
  balance := hsame _ _ h.balance
  drawdown := h.drawdown.imp fun _ => And.imp_right (hsame _ _)
  openPositions := hsame _ _ h.openPositions
  halted := h.halted.imp fun _ => And.imp_right (hsame _ _)

private theorem append_left (h : portfolio.ShownBy trail) (earlier : List Notice) :
    portfolio.ShownBy (earlier ++ trail) :=
  h.mono fun _ _ hgauge => by rw [Metrics.gauge?_append, hgauge, Option.some_or]

theorem append_right (h : portfolio.ShownBy trail) {later : List Notice} (hlater : Ungauged later) :
    portfolio.ShownBy (trail ++ later) :=
  h.mono fun _ _ hgauge => by rw [Metrics.gauge?_append, hlater.gauge?, Option.none_or, hgauge]

end Portfolio.ShownBy

/-- What work leaves in a trail: the counters that it increments, in any order, and the gauges of the
portfolio unless the account is as it was. -/
structure Accounted (counters : List Counter) (before after : Account) (trail : List Notice) : Prop where
  counters : (increments trail).Perm counters
  gauges : (Ungauged trail ∧ after = before) ∨ ∃ portfolio, after = .live portfolio ∧
    portfolio.ShownBy trail

namespace Accounted

variable {counters more : List Counter} {before between after : Account} {trail later : List Notice}

theorem of_ungauged (hcounters : increments trail = counters) (h : Ungauged trail)
    (account : Account) : Accounted counters account account trail :=
  ⟨.of_eq hcounters, .inl ⟨h, rfl⟩⟩

theorem refl (account : Account) : Accounted [] account account [] :=
  of_ungauged rfl Metrics.ungauged_nil account

theorem append (h : Accounted counters before between trail)
    (hlater : Accounted more between after later) :
    Accounted (counters ++ more) before after (trail ++ later) := by
  refine ⟨by rw [Metrics.increments_append]; exact h.counters.append hlater.counters, ?_⟩
  rcases hlater.gauges with ⟨hquiet, rfl⟩ | ⟨portfolio, hlive, hshown⟩
  · rcases h.gauges with ⟨hsilent, rfl⟩ | ⟨portfolio, hlive, hshown⟩
    · exact .inl ⟨Metrics.ungauged_append_iff.2 ⟨hsilent, hquiet⟩, rfl⟩
    · exact .inr ⟨portfolio, hlive, hshown.append_right hquiet⟩
  · exact .inr ⟨portfolio, hlive, hshown.append_left trail⟩

theorem perm (h : Accounted counters before after trail) (hperm : counters.Perm more) :
    Accounted more before after trail :=
  ⟨h.counters.trans hperm, h.gauges⟩

end Accounted

namespace Portfolio

variable {p p' : Portfolio} {trail : List Notice}

private theorem publish_leaves {a : Unit} (h : publish.Leaves p a p' trail) :
    p' = p ∧ increments trail = [] ∧ p.ShownBy trail := by
  simp only [publish, leaves_get_bind_iff, leaves_notify_bind_iff, leaves_lift_bind_iff,
    leaves_notify_iff] at h
  obtain ⟨_, ⟨percent, hpercent, _, ⟨halt, hhalt, rfl, rfl⟩, rfl⟩, rfl⟩ := h
  exact ⟨rfl, rfl, rfl, ⟨percent, hpercent, rfl⟩, rfl, ⟨halt, hhalt, rfl⟩⟩

private theorem reserve_leaves {size : Decimal} {reply : Except Refusal Unit}
    (h : (reserve size).Leaves p reply p' trail) : Accounted [] (.live p) (.live p') trail := by
  simp only [reserve, leaves_get_bind_iff, leaves_lift_bind_iff] at h
  obtain ⟨halt, -, h⟩ := h
  cases halt with
  | some reason =>
    obtain ⟨-, rfl, rfl⟩ := leaves_pure_iff.1 h
    exact .refl _
  | none =>
    simp only [leaves_lift_bind_iff] at h
    obtain ⟨available, -, h⟩ := h
    split at h
    · obtain ⟨-, rfl, rfl⟩ := leaves_pure_iff.1 h
      exact .refl _
    · simp only [leaves_lift_bind_iff, leaves_set_bind_iff] at h
      obtain ⟨committed, -, h⟩ := h
      obtain ⟨_, _, published, last, hpublish, hreply, rfl⟩ := leaves_bind_iff.1 h
      obtain ⟨-, rfl, rfl⟩ := leaves_pure_iff.1 hreply
      obtain ⟨rfl, hcounters, hshown⟩ := publish_leaves hpublish
      rw [List.append_nil]
      exact ⟨by rw [hcounters], .inr ⟨_, rfl, hshown⟩⟩

private theorem settle_leaves {size pnl : Decimal} {reply : Option HaltReason}
    (h : (settle size pnl).Leaves p reply p' trail) : Accounted [] (.live p) (.live p') trail := by
  simp only [settle, leaves_get_bind_iff, leaves_lift_bind_iff, leaves_set_bind_iff] at h
  obtain ⟨booked, -, tripped, -, h⟩ := h
  obtain ⟨_, settled, published, last, hpublish, hreply, rfl⟩ := leaves_bind_iff.1 h
  have hlast : p' = settled ∧ last = [] := by
    cases tripped with
    | true => exact (leaves_lift_iff.1 hreply).2
    | false => exact (leaves_pure_iff.1 hreply).2
  obtain ⟨rfl, rfl⟩ := hlast
  obtain ⟨rfl, hcounters, hshown⟩ := publish_leaves hpublish
  rw [List.append_nil]
  exact ⟨by rw [hcounters], .inr ⟨_, rfl, hshown⟩⟩

private theorem clearHalt_leaves {a : Unit} (h : clearHalt.Leaves p a p' trail) :
    increments trail = [] ∧ p'.ShownBy trail := by
  simp only [clearHalt, leaves_modify_bind_iff] at h
  obtain ⟨rfl, hcounters, hshown⟩ := publish_leaves h
  exact ⟨hcounters, hshown⟩

end Portfolio

namespace Account

variable {α : Type} {account account' : Account} {trail : List Notice}

private theorem within_leaves {otherwise : α} {act : Act Portfolio α} {a : α}
    (h : (within otherwise act).Leaves account a account' trail) :
    (account' = account ∧ trail = [poisonNotice]) ∨
      ∃ p q, account = live p ∧ account' = live q ∧ act.Leaves p a q trail := by
  unfold Leaves within at h
  cases account with
  | poisoned =>
    simp only [Attempt.mk.injEq] at h
    obtain ⟨-, rfl, rfl⟩ := h
    exact .inl ⟨rfl, rfl⟩
  | live p =>
    simp only at h
    split at h
    · rename_i b q notices hact
      simp only [Attempt.mk.injEq, Except.ok.injEq] at h
      obtain ⟨rfl, rfl, rfl⟩ := h
      exact .inr ⟨p, q, rfl, rfl, hact⟩
    · cases h

private theorem within_accounted {otherwise : α} {act : Act Portfolio α} {a : α}
    (hact : ∀ p q trail, act.Leaves p a q trail → Accounted [] (live p) (live q) trail)
    (h : (within otherwise act).Leaves account a account' trail) :
    Accounted [] account account' trail := by
  rcases within_leaves h with ⟨rfl, rfl⟩ | ⟨p, q, rfl, rfl, hlive⟩
  · exact .of_ungauged (by rfl) (by simp [poisonNotice]) _
  · exact hact p q trail hlive

private theorem answer_accounted {request : Request} {reply : request.Reply}
    (h : (answer request).Leaves account reply account' trail) :
    Accounted [] account account' trail := by
  cases request with
  | reserve size => exact within_accounted (fun _ _ _ => Portfolio.reserve_leaves) h
  | settle size pnl => exact within_accounted (fun _ _ _ => Portfolio.settle_leaves) h

theorem clearHalt_accounted (h : clearHalt.Leaves account () account' trail) :
    Accounted [] account account' trail := by
  refine within_accounted (fun p q trail hlive => ?_) h
  obtain ⟨_, r, cleared, _, hclear, hrest, rfl⟩ := leaves_bind_iff.1 hlive
  simp only [leaves_get_bind_iff, leaves_notify_iff] at hrest
  obtain ⟨rfl, rfl⟩ := hrest
  obtain ⟨hcounters, hshown⟩ := Portfolio.clearHalt_leaves hclear
  exact ⟨by simp [hcounters], .inr ⟨_, rfl, hshown.append_right (by simp)⟩⟩

end Account

namespace PositionEvent

def reason? : PositionEvent → Option CloseReason
  | opened _ => none
  | closed _ reason => some reason

def counter : PositionEvent → Counter
  | opened _ => .positionOpened
  | closed _ reason => .positionClosed reason

end PositionEvent

namespace Trader

variable {trader trader' : Trader} {account account' : Account} {quote : Option Quote}
  {trail : List Notice}

private theorem exitPlan_accounted {ts : Timestamp} {event : Option PositionEvent}
    (h : (exitPlan quote ts trader).run.Leaves (trader, account) event (trader', account') trail) :
    Accounted (event.toList.map PositionEvent.counter) account account' trail := by
  have hdone {t : Trader}
      (hrun : (done ⟨.ok none, t, []⟩ : Plan Trader (Option PositionEvent)).run.Leaves
        (trader, account) event (trader', account') trail) :
      Accounted (event.toList.map PositionEvent.counter) account account' trail := by
    obtain ⟨hattempt, rfl⟩ := run_done_leaves_iff.1 hrun
    cases hattempt
    exact .refl _
  unfold exitPlan at h
  split at h
  · exact hdone h
  · simp only at h
    split at h
    · cases (run_done_leaves_iff.1 h).1
    · exact hdone h
    · unfold closePlan at h
      split at h
      · cases (run_done_leaves_iff.1 h).1
      · obtain ⟨halt, later, rest, hsettle, hrest, rfl⟩ := run_ask_leaves_iff.1 h
        cases hrest
        refine (Account.answer_accounted hsettle).append (.of_ungauged ?_ ?_ account')
        all_goals cases halt <;> simp [closingNotices, PositionEvent.counter]

private theorem entryPlan_accounted {composite : Composite}
    {reply : Except Refusal (Option PositionEvent)}
    (h : (entryPlan composite quote trader).run.Leaves (trader, account) reply (trader', account')
      trail) : Accounted ((eventOf? reply).toList.map PositionEvent.counter) account account' trail := by
  unfold entryPlan at h
  split at h
  · obtain ⟨hattempt, rfl⟩ := run_done_leaves_iff.1 h
    cases hattempt
    exact .refl _
  · split at h
    · obtain ⟨hattempt, rfl⟩ := run_done_leaves_iff.1 h
      cases hattempt
      exact .refl _
    · obtain ⟨granted, later, rest, hreserve, hrest, rfl⟩ := run_ask_leaves_iff.1 h
      have haccount := Account.answer_accounted hreserve
      cases granted with
      | error refusal =>
        cases hrest
        simpa [eventOf?] using haccount
      | ok granted =>
        simp only [Leaves, enter] at hrest
        split at hrest
        · cases hrest
        · cases hrest
          exact haccount.append (.of_ungauged (by rfl) (by simp [openingNotices]) account')

end Trader

/-- The counters of a composite: one for each signal that fired, and one for the composite. -/
def Composite.counters (composite : Composite) : List Counter :=
  (composite.details.filter fun detail => detail.2.fired).map (fun detail => .signalFired detail.1) ++
    [.composite composite.actionable]

def Evaluation.counters (evaluation : Evaluation) : List Counter :=
  evaluation.composite.toList.flatMap Composite.counters ++
    evaluation.events.map PositionEvent.counter

private theorem Composer.increments_notices (instrument : String) (composite : Option Composite) :
    increments (notices instrument composite) = composite.toList.flatMap Composite.counters := by
  cases composite with
  | none => rfl
  | some composite =>
    have hfired (details : List (SignalKind × Reading)) :
        increments (details.flatMap (Composite.firedNotices composite.instrument)) =
          details.map fun detail => .signalFired detail.1 := by
      induction details with
      | nil => rfl
      | cons detail details ih => simp [Composite.firedNotices, ih]
    simp [notices, Composite.notices, Composite.counters, hfired]

private theorem Composer.ungauged_notices (instrument : String) (composite : Option Composite) :
    Ungauged (notices instrument composite) := by
  cases composite with
  | none => simp [notices]
  | some composite =>
    simp [notices, Composite.notices, Ungauged, Composite.firedNotices, Notice.logging]

namespace Desk

variable {desk desk' : Desk} {account account' : Account} {evaluation : Evaluation}
  {trail : List Notice}

private theorem evaluate_leaves {composer : Composer} {composite : Option Composite}
    (h : (evaluate composer).Leaves desk composite desk' trail) (account : Account) :
    Accounted (composite.toList.flatMap Composite.counters) account account trail := by
  simp only [evaluate, leaves_get_bind_iff, leaves_lift_bind_iff, leaves_notify_bind_iff,
    leaves_pure_iff] at h
  obtain ⟨_, -, _, ⟨rfl, rfl, rfl⟩, rfl⟩ := h
  rw [List.append_nil]
  exact .of_ungauged (Composer.increments_notices _ _) (Composer.ungauged_notices _ _) account

private theorem conclude_leaves {composer : Composer} {ts : Timestamp} {events : List PositionEvent}
    (h : (conclude composer ts events).Leaves desk evaluation desk' trail) (account : Account) :
    evaluation.events = events ∧
      Accounted (evaluation.composite.toList.flatMap Composite.counters) account account trail := by
  obtain ⟨composite, _, first, rest, hevaluate, hrest, rfl⟩ := leaves_bind_iff.1 h
  simp only [leaves_get_bind_iff, leaves_pure_iff] at hrest
  obtain ⟨rfl, rfl, rfl⟩ := hrest
  rw [List.append_nil]
  exact ⟨rfl, evaluate_leaves hevaluate account⟩

private theorem report_leaves {ts : Timestamp} {composite : Composite}
    {reply : Except Refusal (Option PositionEvent)}
    (h : (report ts composite reply).Leaves desk evaluation desk' trail) (account : Account) :
    evaluation.composite = some composite ∧ evaluation.events = (Trader.eventOf? reply).toList ∧
      Accounted [] account account trail := by
  cases reply with
  | ok event =>
    simp only [report, leaves_get_bind_iff, leaves_pure_iff] at h
    obtain ⟨rfl, rfl, rfl⟩ := h
    exact ⟨rfl, rfl, .refl account⟩
  | error refusal =>
    simp only [report, leaves_get_bind_iff, leaves_notify_bind_iff, leaves_pure_iff] at h
    obtain ⟨_, ⟨rfl, rfl, rfl⟩, rfl⟩ := h
    have hrefusal : increments [refusalNotice desk'.tape.instrument refusal] = [] ∧
        Ungauged [refusalNotice desk'.tape.instrument refusal] := by
      cases refusal <;> simp [refusalNotice]
    refine ⟨rfl, rfl, ?_⟩
    rw [List.append_nil]
    exact .of_ungauged hrefusal.1 hrefusal.2 account

private theorem entryPlan_accounted {ts : Timestamp} {composite : Option Composite}
    (h : (entryPlan ts composite desk).run.Leaves (desk, account) evaluation (desk', account') trail) :
    evaluation.composite = composite ∧
      Accounted (evaluation.events.map PositionEvent.counter) account account' trail := by
  cases composite with
  | none =>
    obtain ⟨hattempt, rfl⟩ := run_done_leaves_iff.1 h
    cases hattempt
    exact ⟨rfl, .refl account⟩
  | some composite =>
    obtain ⟨reply, desk₁, first, rest, henter, hreport, rfl⟩ := run_andThen_leaves h
    obtain ⟨hcomposite, hevents, hrest⟩ := report_leaves hreport account'
    obtain ⟨trader, hplan⟩ := run_focus_leaves (fun _ _ => rfl) henter
    have hall := (Trader.entryPlan_accounted hplan).append hrest
    rw [List.append_nil, ← hevents] at hall
    exact ⟨hcomposite, hall⟩

/-- The work on a record counts the composite and the event that the evaluation reports. -/
theorem recordPlan_accounted {composer : Composer} {record : Record}
    (h : (recordPlan composer record desk).run.Leaves (desk, account) evaluation (desk', account')
      trail) : Accounted evaluation.counters account account' trail := by
  unfold recordPlan at h
  simp only at h
  generalize (desk.tape.update record).latestQuote? = quote at h
  generalize ({ desk with tape := desk.tape.update record } : Desk) = updated at h
  split at h
  · rename_i desk₁ notices hexit
    have hnone : (Plan.focus Desk.trader setTrader
        (Trader.exitPlan quote record.ts) updated).run.Leaves
        (updated, account) none (desk₁, account) notices := by
      rw [hexit]
      exact run_done_leaves_iff.2 ⟨rfl, rfl⟩
    obtain ⟨trader, hplan⟩ := run_focus_leaves (fun _ _ => rfl) hnone
    obtain ⟨composite, desk₂, first, rest, hfirst, hentry, rfl⟩ := run_after_leaves h
    obtain ⟨later, hevaluate, rfl⟩ := leaves_notify_bind_iff.1 hfirst
    obtain ⟨rfl, hentered⟩ := entryPlan_accounted hentry
    exact ((Trader.exitPlan_accounted hplan).append (evaluate_leaves hevaluate account)).append hentered
  · obtain ⟨closed, desk₁, first, rest, hexit, hconclude, rfl⟩ := run_andThen_leaves h
    obtain ⟨trader, hplan⟩ := run_focus_leaves (fun _ _ => rfl) hexit
    obtain ⟨hevents, hrest⟩ := conclude_leaves hconclude account'
    -- the close is counted before the composite
    refine ((Trader.exitPlan_accounted hplan).append hrest).perm ?_
    rw [Evaluation.counters, hevents]
    exact List.perm_append_comm

end Desk

end SignalDesk
