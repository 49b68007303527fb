import SignalDesk.Engine.Desk

/-!
# What an action may note

Whatever comes of an action, even if it is given up, its notices are those of its parts. So the
notices of a desk at work can be told by its parts: none of them counts a record, which only the
engine does.
-/

namespace SignalDesk

variable {σ τ α β : Type} {allowed : Notice → Prop}

namespace Act

/-- The action notes nothing but what is allowed. -/
def Notes (allowed : Notice → Prop) (act : Act σ α) : Prop :=
  ∀ s, ∀ notice ∈ (act s).notices, allowed notice

theorem notes_pure (a : α) : (pure a : Act σ α).Notes allowed := fun _ => List.forall_mem_nil _

theorem notes_get : (Act.get : Act σ σ).Notes allowed := fun _ => List.forall_mem_nil _

theorem notes_set (s : σ) : (Act.set s).Notes allowed := fun _ => List.forall_mem_nil _

theorem notes_lift (result : Except Abort α) : (Act.lift result : Act σ α).Notes allowed :=
  fun _ => List.forall_mem_nil _

theorem notes_notify {notices : List Notice} (h : ∀ notice ∈ notices, allowed notice) :
    (Act.notify notices : Act σ Unit).Notes allowed :=
  fun _ => h

theorem notes_bind {act : Act σ α} {next : α → Act σ β} (hact : act.Notes allowed)
    (hnext : ∀ a, (next a).Notes allowed) : (act >>= next).Notes allowed := by
  intro s
  have hfirst := hact s
  change ∀ notice ∈ (Act.bind act next s).notices, allowed notice
  unfold Act.bind
  revert hfirst
  rcases act s with ⟨outcome, s', notices⟩
  intro hfirst
  cases outcome with
  | error abort => exact hfirst
  | ok a => exact List.forall_mem_append.2 ⟨hfirst, hnext a s'⟩

theorem notes_focus {part : σ → τ} {replace : σ → τ → σ} {act : Act τ α} (h : act.Notes allowed) :
    (Act.focus part replace act).Notes allowed :=
  fun s => h (part s)

end Act

namespace Plan

/-- Whatever the account replies, the plan notes nothing but what is allowed. -/
def Notes (allowed : Notice → Prop) : Plan σ α → Prop
  | done attempt => ∀ notice ∈ attempt.notices, allowed notice
  | ask _ _ notices resume =>
    (∀ notice ∈ notices, allowed notice) ∧ ∀ reply, (resume reply).Notes allowed

theorem Notes.andThen {plan : Plan σ α} {next : α → Act σ β} (h : plan.Notes allowed)
    (hnext : ∀ a, (next a).Notes allowed) : (plan.andThen next).Notes allowed := by
  cases plan with
  | done attempt =>
    have hact : Act.Notes allowed (fun _ => attempt : Act σ α) := fun _ => h
    exact Act.notes_bind hact hnext attempt.state
  | ask request state notices resume => exact ⟨h.1, fun reply => Act.notes_bind (h.2 reply) hnext⟩

private theorem notes_after {act : Act σ α} {next : α → σ → Plan σ β} (hact : act.Notes allowed)
    (hnext : ∀ a s, (next a s).Notes allowed) (s : σ) : (after act next s).Notes allowed := by
  have hfirst := hact s
  unfold after
  revert hfirst
  rcases act s with ⟨outcome, s', notices⟩
  intro hfirst
  cases outcome with
  | error abort => exact hfirst
  | ok a =>
    have hrest := hnext a s'
    simp only
    cases hplan : next a s' with
    | done attempt =>
      rw [hplan] at hrest
      exact List.forall_mem_append.2 ⟨hfirst, hrest⟩
    | ask request state later resume =>
      rw [hplan] at hrest
      exact ⟨List.forall_mem_append.2 ⟨hfirst, hrest.1⟩, hrest.2⟩

theorem notes_focus {part : σ → τ} {replace : σ → τ → σ} {plan : τ → Plan τ α}
    (h : ∀ t, (plan t).Notes allowed) (s : σ) : (focus part replace plan s).Notes allowed := by
  have hpart := h (part s)
  unfold focus
  cases hplan : plan (part s) with
  | done attempt =>
    rw [hplan] at hpart
    exact hpart
  | ask request inner notices resume =>
    rw [hplan] at hpart
    exact ⟨hpart.1, fun reply => Act.notes_focus (hpart.2 reply)⟩

/-- The account adds its own notices to those of the plan that asks it. -/
theorem Notes.run {plan : Plan σ α} (h : plan.Notes allowed)
    (haccount : ∀ request, (Account.answer request).Notes allowed) : plan.run.Notes allowed := by
  rintro ⟨s, account⟩
  cases plan with
  | done attempt => exact h
  | ask request state notices resume =>
    have hanswer := haccount request account
    simp only [Plan.run, consult]
    revert hanswer
    rcases Account.answer request account with ⟨outcome, after, later⟩
    intro hanswer
    cases outcome with
    | error abort => exact List.forall_mem_append.2 ⟨h.1, hanswer⟩
    | ok reply =>
      exact List.forall_mem_append.2 ⟨List.forall_mem_append.2 ⟨h.1, hanswer⟩, h.2 reply state⟩

end Plan

/-- Notices that do not say what becomes of a record on its way to a desk. -/
def Notice.CountsNoRecord (notice : Notice) : Prop :=
  notice.counter? ≠ some .recordsProcessed ∧ notice.counter? ≠ some .recordsDropped

namespace Notice

@[simp] theorem logging_countsNoRecord (level : LogLevel) (source : LogSource) (message : String)
    (fields : List (String × Data)) : (logging level source message fields).CountsNoRecord := by
  simp [CountsNoRecord, logging, counter?]

@[simp] theorem gauge_countsNoRecord (value : Gauge) : (gauge value).CountsNoRecord := by
  simp [CountsNoRecord, counter?]

@[simp] theorem count_countsNoRecord_iff {counter : Counter} :
    (count counter).CountsNoRecord ↔ counter ≠ .recordsProcessed ∧ counter ≠ .recordsDropped := by
  simp [CountsNoRecord, counter?]

end Notice

namespace Portfolio

private theorem publish_notes : publish.Notes Notice.CountsNoRecord := by
  refine Act.notes_bind Act.notes_get fun portfolio => Act.notes_bind (Act.notes_notify ?_) fun _ =>
    Act.notes_bind (Act.notes_lift _) fun percent => Act.notes_bind (Act.notes_notify ?_) fun _ =>
    Act.notes_bind (Act.notes_lift _) fun halt => Act.notes_notify ?_
  all_goals simp

private theorem reserve_notes (size : Decimal) : (reserve size).Notes Notice.CountsNoRecord := by
  refine Act.notes_bind Act.notes_get fun portfolio => Act.notes_bind (Act.notes_lift _) fun halt => ?_
  cases halt with
  | some reason => exact Act.notes_pure _
  | none =>
    refine Act.notes_bind (Act.notes_lift _) fun available => ?_
    split
    · exact Act.notes_pure _
    · exact Act.notes_bind (Act.notes_lift _) fun committed => Act.notes_bind (Act.notes_set _) fun _ =>
        Act.notes_bind publish_notes fun _ => Act.notes_pure _

private theorem settle_notes (size pnl : Decimal) :
    (settle size pnl).Notes Notice.CountsNoRecord := by
  refine Act.notes_bind Act.notes_get fun before => Act.notes_bind (Act.notes_lift _) fun portfolio =>
    Act.notes_bind (Act.notes_lift _) fun tripped => Act.notes_bind (Act.notes_set _) fun _ =>
    Act.notes_bind publish_notes fun _ => ?_
  cases tripped with
  | true => exact Act.notes_lift _
  | false => exact Act.notes_pure _

end Portfolio

namespace Account

private theorem within_notes {otherwise : α} {act : Act Portfolio α}
    (h : act.Notes Notice.CountsNoRecord) : (within otherwise act).Notes Notice.CountsNoRecord := by
  intro account
  cases account with
  | poisoned => simp [within, poisonNotice]
  | live portfolio =>
    have hact := h portfolio
    simp only [within]
    revert hact
    rcases act portfolio with ⟨outcome, after, notices⟩
    intro hact
    cases outcome <;> exact hact

private theorem answer_notes (request : Request) : (answer request).Notes Notice.CountsNoRecord := by
  cases request with
  | reserve size => exact within_notes (Portfolio.reserve_notes size)
  | settle size pnl => exact within_notes (Portfolio.settle_notes size pnl)

end Account

namespace Trader

private theorem exitPlan_notes (quote : Option Quote) (ts : Timestamp) (trader : Trader) :
    (exitPlan quote ts trader).Notes Notice.CountsNoRecord := by
  unfold exitPlan
  split
  · exact List.forall_mem_nil _
  · simp only
    split
    · exact List.forall_mem_nil _
    · exact List.forall_mem_nil _
    · unfold closePlan
      split
      · exact List.forall_mem_nil _
      · refine ⟨List.forall_mem_nil _, fun halt s => ?_⟩
        cases halt <;> simp [closingNotices]

private theorem entryPlan_notes (composite : Composite) (quote : Option Quote) (trader : Trader) :
    (entryPlan composite quote trader).Notes Notice.CountsNoRecord := by
  unfold entryPlan
  split
  · exact List.forall_mem_nil _
  · split
    · exact List.forall_mem_nil _
    · refine ⟨List.forall_mem_nil _, fun reply => ?_⟩
      cases reply with
      | error refusal => exact fun _ => List.forall_mem_nil _
      | ok granted =>
        intro s
        simp only [enter]
        split
        · exact List.forall_mem_nil _
        · simp [openingNotices]

end Trader

private theorem Composer.notices_countNoRecord (instrument : String) (composite : Option Composite) :
    ∀ notice ∈ Composer.notices instrument composite, notice.CountsNoRecord := by
  cases composite with
  | none => simp [Composer.notices]
  | some composite =>
    refine List.forall_mem_append.2 ⟨?_, by simp⟩
    intro notice hnotice
    obtain ⟨detail, -, hfired⟩ := List.mem_flatMap.1 hnotice
    have hboth : ∀ fired ∈ Composite.firedNotices composite.instrument detail,
        fired.CountsNoRecord := by
      simp [Composite.firedNotices]
    exact hboth notice hfired

namespace Desk

private theorem evaluate_notes (composer : Composer) :
    (evaluate composer).Notes Notice.CountsNoRecord :=
  Act.notes_bind Act.notes_get fun _ => Act.notes_bind (Act.notes_lift _) fun composite =>
    Act.notes_bind (Act.notes_notify (Composer.notices_countNoRecord _ composite)) fun _ =>
    Act.notes_pure _

private theorem conclude_notes (composer : Composer) (ts : Timestamp) (events : List PositionEvent) :
    (conclude composer ts events).Notes Notice.CountsNoRecord :=
  Act.notes_bind (evaluate_notes composer) fun _ => Act.notes_bind Act.notes_get fun _ =>
    Act.notes_pure _

private theorem report_notes (ts : Timestamp) (composite : Composite)
    (reply : Except Refusal (Option PositionEvent)) :
    (report ts composite reply).Notes Notice.CountsNoRecord := by
  cases reply with
  | ok event => exact Act.notes_bind Act.notes_get fun _ => Act.notes_pure _
  | error refusal =>
    refine Act.notes_bind Act.notes_get fun desk => Act.notes_bind (Act.notes_notify ?_) fun _ =>
      Act.notes_pure _
    cases refusal <;> simp [refusalNotice]

private theorem entryPlan_notes (ts : Timestamp) (composite : Option Composite) (desk : Desk) :
    (entryPlan ts composite desk).Notes Notice.CountsNoRecord := by
  cases composite with
  | none => exact List.forall_mem_nil _
  | some composite =>
    exact (Plan.notes_focus (Trader.entryPlan_notes composite _) desk).andThen (report_notes ts composite)

private theorem recordPlan_notes (composer : Composer) (record : Record) (desk : Desk) :
    (recordPlan composer record desk).Notes Notice.CountsNoRecord := by
  have hexit (updated : Desk) : (Plan.focus Desk.trader setTrader
      (Trader.exitPlan updated.tape.latestQuote? record.ts) updated).Notes Notice.CountsNoRecord :=
    Plan.notes_focus (Trader.exitPlan_notes _ _) updated
  unfold recordPlan
  simp only
  split
  · rename_i notices hplan
    have hnotices := hexit { desk with tape := desk.tape.update record }
    rw [hplan] at hnotices
    exact Plan.notes_after (Act.notes_bind (Act.notes_notify hnotices) fun _ => evaluate_notes composer)
      (entryPlan_notes record.ts) _
  · exact (hexit _).andThen fun closed => conclude_notes composer record.ts closed.toList

theorem onRecord_notes (composer : Composer) (record : Record) :
    (onRecord composer record).Notes Notice.CountsNoRecord :=
  fun state => (recordPlan_notes composer record state.1).run Account.answer_notes state

end Desk

end SignalDesk
