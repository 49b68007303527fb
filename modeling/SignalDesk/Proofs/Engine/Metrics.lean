import SignalDesk.Proofs.Engine.Ingestion
import SignalDesk.Proofs.Engine.Lifecycle
import SignalDesk.Proofs.Engine.Solvency

/-!
# Metrics of a run

The trail of a run counts its messages, its evaluations and what the evaluations report, whatever the
configuration. Positions that were opened and not closed are those of the portfolio and those that the
desks hold, and the gauges show the portfolio from the first time they are set.
-/

namespace SignalDesk

open Act
open Metrics (increments Ungauged)

namespace Roster

variable {α : Type}

private theorem mem_names_put {roster : Roster α} {instrument name : String} {value : α}
    (h : name ∈ (roster.put instrument value).map Prod.fst) :
    name ∈ roster.map Prod.fst ∨ name = instrument := by
  induction roster with
  | nil => simpa [put] using h
  | cons entry roster ih =>
    rw [put] at h
    split at h
    · exact .inl h
    · simp only [List.map_cons, List.mem_cons] at h ⊢
      rcases h with h | h
      · exact .inl (.inl h)
      · exact (ih h).imp_left .inr

private theorem nodup_put {roster : Roster α} (h : (roster.map Prod.fst).Nodup) (instrument : String)
    (value : α) : ((roster.put instrument value).map Prod.fst).Nodup := by
  induction roster with
  | nil => simp [put]
  | cons entry roster ih =>
    obtain ⟨hnew, hrest⟩ := List.nodup_cons.1 h
    rw [put]
    split
    · exact h
    · rename_i hname
      refine List.nodup_cons.2 ⟨fun hmem => ?_, ih hrest⟩
      rcases mem_names_put hmem with hold | hsame
      · exact hnew hold
      · exact hname (beq_iff_eq.2 hsame)

private theorem lookup_eq_some_iff_mem {roster : Roster α} (h : (roster.map Prod.fst).Nodup)
    {instrument : String} {value : α} :
    roster.lookup instrument = some value ↔ (instrument, value) ∈ roster := by
  induction roster with
  | nil => simp
  | cons entry roster ih =>
    obtain ⟨hnew, hrest⟩ := List.nodup_cons.1 h
    rw [List.lookup_cons]
    by_cases hname : instrument = entry.1
    · have hnot : (instrument, value) ∉ roster := fun hmem =>
        hnew (hname ▸ List.mem_map_of_mem hmem)
      subst hname
      simp [hnot, Prod.ext_iff, eq_comm]
    · rw [beq_eq_false_iff_ne.2 hname]
      simp [hname, ih hrest, Prod.ext_iff]

end Roster

private theorem SignalSettings.kinds_nodup (settings : SignalSettings) :
    (settings.enabled.map Signal.kind).Nodup := by
  have hall : (settings.all.map (Signal.kind ∘ Prod.snd)).Nodup := by
    simp [all, Signal.kind]
  rw [enabled, List.map_map]
  exact hall.sublist (List.filter_sublist.map _)

private theorem Composer.details_nodup {config : Config} {tape : Tape} {composite : Composite}
    (h : (ofConfig config).evaluate tape = .ok (some composite)) :
    (composite.details.map Prod.fst).Nodup := by
  obtain ⟨_, readings, -, hreadings, rfl⟩ := evaluate_some h
  have hkinds : (((ofConfig config).signals.map Signal.kind).zip readings).map Prod.fst =
      (ofConfig config).signals.map Signal.kind :=
    List.map_fst_zip (by rw [List.length_map, hreadings.length_eq])
  change ((((ofConfig config).signals.map Signal.kind).zip readings).map Prod.fst).Nodup
  rw [hkinds]
  exact SignalSettings.kinds_nodup config.signals

private theorem count_flatMap_eq_countP {α : Type} {items : List α} {f : α → List Counter}
    {counter : Counter} {p : α → Bool} (h : ∀ a ∈ items, (f a).count counter = (p a).toNat) :
    (items.flatMap f).count counter = items.countP p := by
  induction items with
  | nil => rfl
  | cons a items ih =>
    obtain ⟨hfirst, hrest⟩ := List.forall_mem_cons.1 h
    rw [List.flatMap_cons, List.count_append, hfirst, ih hrest, List.countP_cons]
    cases p a <;> simp [Nat.add_comm]

private theorem count_fired {details : List (SignalKind × Reading)} (h : (details.map Prod.fst).Nodup)
    (signal : SignalKind) :
    ((details.filter fun detail => detail.2.fired).map fun detail =>
        Counter.signalFired detail.1).count (.signalFired signal) =
      (details.any fun detail => detail.1 == signal && detail.2.fired).toNat := by
  induction details with
  | nil => rfl
  | cons detail details ih =>
    obtain ⟨hnew, hrest⟩ := List.nodup_cons.1 h
    have hothers (hsame : detail.1 = signal) :
        (details.any fun other => other.1 == signal && other.2.fired) = false := by
      rw [List.any_eq_false]
      rintro ⟨kind, reading⟩ hmem hboth
      rw [Bool.and_eq_true, beq_iff_eq] at hboth
      exact hnew (hsame ▸ hboth.1 ▸ List.mem_map_of_mem hmem)
    by_cases hfired : detail.2.fired = true
    · by_cases hsame : detail.1 = signal
      · have hrest := ih hrest
        rw [hothers hsame] at hrest
        simp [hfired, hsame, hrest]
      · have hne : (detail.1 == signal) = false := beq_eq_false_iff_ne.2 hsame
        simp [hfired, hsame, hne, ih hrest]
    · simp [hfired, ih hrest]

namespace Composite

variable (composite : Composite)

private theorem count_counters_signalFired (h : (composite.details.map Prod.fst).Nodup)
    (signal : SignalKind) : composite.counters.count (.signalFired signal) =
      (composite.details.any fun detail => detail.1 == signal && detail.2.score != 0.0).toNat := by
  rw [counters, List.count_append, count_fired h]
  rfl

private theorem count_counters_composite (actionable : Bool) :
    composite.counters.count (.composite actionable) =
      (composite.actionable == actionable).toNat := by
  have hfired : ((composite.details.filter fun detail => detail.2.fired).map fun detail =>
      Counter.signalFired detail.1).count (.composite actionable) = 0 := by
    simp [List.count_eq_zero]
  rw [counters, List.count_append, hfired]
  cases composite.actionable <;> cases actionable <;> rfl

private theorem mem_counters {counter : Counter} (h : counter ∈ composite.counters) :
    (∃ signal, counter = .signalFired signal) ∨ ∃ actionable, counter = .composite actionable := by
  rw [counters, List.mem_append, List.mem_map, List.mem_singleton] at h
  rcases h with ⟨detail, -, rfl⟩ | rfl
  · exact .inl ⟨_, rfl⟩
  · exact .inr ⟨_, rfl⟩

end Composite

namespace PositionEvent

private theorem counter_beq_positionOpened (event : PositionEvent) :
    (event.counter == .positionOpened) = event.reason?.isNone := by
  cases event <;> rfl

private theorem counter_beq_positionClosed (event : PositionEvent) (reason : CloseReason) :
    (event.counter == .positionClosed reason) = (event.reason? == some reason) := by
  cases event with
  | opened position => rfl
  | closed position other => simp [counter, reason?]

private theorem count_counter (events : List PositionEvent) (counter : Counter) :
    (events.map PositionEvent.counter).count counter =
      events.countP fun event => event.counter == counter := by
  rw [List.count, List.countP_map]
  rfl

end PositionEvent

namespace Engine

/-- The counters of an accepted command, which leads to an evaluation unless its record is dropped. -/
def Command.counters : Command → Option Evaluation → List Counter
  | message _, some evaluation => .recordsProcessed :: evaluation.counters
  | message _, none => [.recordsDropped]
  | clearHalt, _ => []

def Command.isMessage : Command → Bool
  | message _ => true
  | clearHalt => false

variable {config : Config} {engine engine' : Engine} {trail : List Notice}

private theorem openDesk_leaves {instrument : String} {desk : Desk}
    (h : (openDesk instrument).Leaves engine desk engine' trail) :
    Accounted [] engine.account engine'.account trail := by
  simp only [openDesk, leaves_get_bind_iff] at h
  cases hdesk : engine.desk? instrument with
  | some desk =>
    rw [hdesk] at h
    obtain ⟨-, rfl, rfl⟩ := leaves_pure_iff.1 h
    exact .refl _
  | none =>
    simp only [hdesk, leaves_notify_bind_iff, leaves_lift_bind_iff, leaves_set_bind_iff,
      leaves_pure_iff] at h
    obtain ⟨_, ⟨_, -, -, rfl, rfl⟩, rfl⟩ := h
    exact .of_ungauged (by rfl) (by simp) engine.account

private theorem process_accounted {record : Record} {evaluation? : Option Evaluation}
    (hvalid : record.isValid = true)
    (h : (process record).Leaves engine evaluation? engine' trail) :
    ∃ evaluation, evaluation? = some evaluation ∧
      Accounted (.recordsProcessed :: evaluation.counters) engine.account engine'.account trail := by
  have hacceptance : acceptance record = [.count .recordsProcessed] := by
    rw [acceptance, Option.isNone_iff_eq_none.1 hvalid]
  rw [process, leaves_notify_bind_iff, if_pos hvalid, hacceptance] at h
  obtain ⟨work, h, rfl⟩ := h
  obtain ⟨desk, opened, first, rest, hopen, hrest, rfl⟩ := leaves_bind_iff.1 h
  rw [leaves_get_bind_iff] at hrest
  obtain ⟨evaluation, _, worked, _, hwork, hlast, rfl⟩ := leaves_bind_iff.1 hrest
  obtain ⟨rfl, rfl, rfl⟩ := leaves_pure_iff.1 hlast
  obtain ⟨⟨desk', account⟩, honRecord, rfl⟩ := leaves_focus_iff.1 hwork
  have hplan : (desk.recordPlan opened.composer record).run.Leaves (desk, opened.account) evaluation
    (desk', account) worked := honRecord
  refine ⟨evaluation, rfl, ?_⟩
  have haccepted : Accounted [.recordsProcessed] engine.account engine.account
      [.count .recordsProcessed] := .of_ungauged (by rfl) (by simp) _
  have hworked := haccepted.append ((openDesk_leaves hopen).append (Desk.recordPlan_accounted hplan))
  simpa using hworked

private theorem handle_accounted {command : Command} {evaluation? : Option Evaluation}
    (h : (handle command).Leaves engine evaluation? engine' trail) :
    Accounted (command.counters evaluation?) engine.account engine'.account trail := by
  cases command with
  | message text =>
    rw [handle] at h
    cases haccepted : Record.accepted? text with
    | none =>
      obtain ⟨line, hdropped⟩ := processMessage_of_dropped haccepted engine
      rw [Leaves, hdropped] at h
      cases h
      exact .of_ungauged (by rfl) (by simp [Ungauged]) engine.account
    | some record =>
      have hvalid := (Record.parse_ok_iff.1 (Record.accepted?_eq_some_iff.1 haccepted)).2
      rw [processMessage_of_accepted haccepted] at h
      obtain ⟨evaluation, rfl, hprocessed⟩ := process_accounted hvalid h
      exact hprocessed
  | clearHalt =>
    obtain ⟨_, _, first, _, hclear, hlast, rfl⟩ := leaves_bind_iff.1 h
    obtain ⟨rfl, rfl, rfl⟩ := leaves_pure_iff.1 hlast
    obtain ⟨account, haccount, rfl⟩ := leaves_focus_iff.1 hclear
    rw [List.append_nil]
    exact Account.clearHalt_accounted haccount

def composites (evaluations : List Evaluation) : List Composite :=
  evaluations.filterMap Evaluation.composite

/-- The counters of a run with some drops between its evaluations, in the order of their kinds. -/
def runCounters (dropped : Nat) (evaluations : List Evaluation) : List Counter :=
  List.replicate dropped .recordsDropped ++ (List.replicate evaluations.length .recordsProcessed ++
    ((composites evaluations).flatMap Composite.counters ++
      (events evaluations).map PositionEvent.counter))

section counts

variable (dropped : Nat) (evaluations : List Evaluation)

private theorem count_runCounters (counter : Counter) :
    (runCounters dropped evaluations).count counter =
      (if .recordsDropped = counter then dropped else 0) +
        ((if .recordsProcessed = counter then evaluations.length else 0) +
          (((composites evaluations).flatMap Composite.counters).count counter +
            (events evaluations).countP fun event => event.counter == counter)) := by
  rw [runCounters, List.count_append, List.count_append, List.count_append, List.count_replicate,
    List.count_replicate, PositionEvent.count_counter]
  simp only [beq_iff_eq]

private theorem count_composites_eq_zero {counter : Counter}
    (hfired : ∀ signal, counter ≠ .signalFired signal)
    (hcomposite : ∀ actionable, counter ≠ .composite actionable) :
    ((composites evaluations).flatMap Composite.counters).count counter = 0 := by
  rw [List.count_eq_zero, List.mem_flatMap]
  rintro ⟨composite, -, hmem⟩
  rcases composite.mem_counters hmem with ⟨signal, hsame⟩ | ⟨actionable, hsame⟩
  · exact hfired signal hsame
  · exact hcomposite actionable hsame

private theorem countP_events_eq_zero {counter : Counter} (hopened : counter ≠ .positionOpened)
    (hclosed : ∀ reason, counter ≠ .positionClosed reason) :
    ((events evaluations).countP fun event => event.counter == counter) = 0 := by
  rw [List.countP_eq_zero]
  intro event _ hsame
  rw [beq_iff_eq] at hsame
  cases event with
  | opened position => exact hopened hsame.symm
  | closed position reason => exact hclosed reason hsame.symm

private theorem count_recordsDropped :
    (runCounters dropped evaluations).count .recordsDropped = dropped := by
  simp [count_runCounters, count_composites_eq_zero, countP_events_eq_zero]

private theorem count_recordsProcessed :
    (runCounters dropped evaluations).count .recordsProcessed = evaluations.length := by
  simp [count_runCounters, count_composites_eq_zero, countP_events_eq_zero]

private theorem count_signalFired
    (h : ∀ composite ∈ composites evaluations, (composite.details.map Prod.fst).Nodup)
    (signal : SignalKind) : (runCounters dropped evaluations).count (.signalFired signal) =
      (composites evaluations).countP fun composite =>
        composite.details.any fun detail => detail.1 == signal && detail.2.score != 0.0 := by
  have hfired := count_flatMap_eq_countP fun composite hmem =>
    Composite.count_counters_signalFired composite (h composite hmem) signal
  simp [count_runCounters, countP_events_eq_zero, hfired]

private theorem count_composite (actionable : Bool) :
    (runCounters dropped evaluations).count (.composite actionable) =
      (composites evaluations).countP fun composite => composite.actionable == actionable := by
  have hcomposite := count_flatMap_eq_countP fun composite (_ : composite ∈ composites evaluations) =>
    Composite.count_counters_composite composite actionable
  simp [count_runCounters, countP_events_eq_zero, hcomposite]

private theorem count_positionOpened : (runCounters dropped evaluations).count .positionOpened =
    (events evaluations).countP fun event => event.reason?.isNone := by
  simp [count_runCounters, count_composites_eq_zero, PositionEvent.counter_beq_positionOpened]

private theorem count_positionClosed (reason : CloseReason) :
    (runCounters dropped evaluations).count (.positionClosed reason) =
      (events evaluations).countP fun event => event.reason? == some reason := by
  simp [count_runCounters, count_composites_eq_zero, PositionEvent.counter_beq_positionClosed]

end counts

private theorem runCounters_succ (dropped : Nat) (evaluations : List Evaluation) :
    runCounters (dropped + 1) evaluations = .recordsDropped :: runCounters dropped evaluations := rfl

private theorem runCounters_cons_perm (dropped : Nat) (evaluation : Evaluation)
    (evaluations : List Evaluation) :
    (.recordsProcessed :: evaluation.counters ++ runCounters dropped evaluations).Perm
      (runCounters dropped (evaluation :: evaluations)) := by
  have hcomposites : composites (evaluation :: evaluations) =
      evaluation.composite.toList ++ composites evaluations := by
    rw [composites, List.filterMap_cons]
    cases evaluation.composite <;> rfl
  rw [List.perm_iff_count]
  intro counter
  simp only [runCounters, Evaluation.counters, hcomposites, events, List.length_cons,
    List.replicate_succ, List.flatMap_append, List.flatMap_cons, List.map_append, List.count_append,
    List.count_cons]
  omega

private theorem handleAll_accounted {commands : List Command} {evaluations : List Evaluation}
    (h : (handleAll commands).Leaves engine evaluations engine' trail) :
    ∃ dropped, evaluations.length + dropped = commands.countP Command.isMessage ∧
      Accounted (runCounters dropped evaluations) engine.account engine'.account trail := by
  induction commands generalizing engine evaluations trail with
  | nil =>
    obtain ⟨rfl, rfl, rfl⟩ := leaves_pure_iff.1 h
    exact ⟨0, rfl, .refl _⟩
  | cons command commands ih =>
    obtain ⟨evaluation?, between, first, _, hfirst, hthen, rfl⟩ := leaves_bind_iff.1 h
    obtain ⟨later, _, rest, _, hrest, hlast, rfl⟩ := leaves_bind_iff.1 hthen
    obtain ⟨rfl, rfl, rfl⟩ := leaves_pure_iff.1 hlast
    obtain ⟨dropped, hmessages, hlater⟩ := ih hrest
    have hall := (handle_accounted hfirst).append hlater
    have hstep := handle_step hfirst.yields
    rw [List.append_nil]
    cases hstep with
    | dropped hnone =>
      refine ⟨dropped + 1, ?_, hall.perm ?_⟩
      · rw [List.countP_cons_of_pos rfl, ← hmessages, Option.toList_none, List.nil_append,
          Nat.add_assoc]
      · rw [runCounters_succ, Option.toList_none, List.nil_append]
        exact .rfl
    | @worked text record desk desk' evaluation account hrecord hdesk hworked =>
      refine ⟨dropped, ?_, hall.perm ?_⟩
      · rw [List.countP_cons_of_pos rfl, ← hmessages, Option.toList_some, List.singleton_append,
          List.length_cons, Nat.add_right_comm]
      · exact runCounters_cons_perm dropped evaluation later
    | cleared hclear =>
      refine ⟨dropped, ?_, hall⟩
      simpa [Command.isMessage] using hmessages

end Engine

/-- In one turn the portfolio gains or loses the position that the trader does. -/
theorem Trader.Turn.tallied {trader trader' : Trader} {account' : Account} {quote : Option Quote}
    {ts : Timestamp} {event : Option PositionEvent} {p : Portfolio}
    (h : Turn trader (.live p) quote ts event trader' account')
    (hopen : trader.held.isSome = true → 0 < p.openPositions) :
    ∃ p', account' = .live p' ∧
      p'.openPositions + trader.held.isSome.toNat = p.openPositions + trader'.held.isSome.toNat ∧
      (event.toList.countP fun event => event.reason?.isNone) + p.openPositions =
        p'.openPositions + event.toList.countP fun event => event.reason?.isSome := by
  cases h with
  | idle => exact ⟨p, rfl, rfl, Nat.add_comm _ _⟩
  | opened hfree hbook hprice hopened hreserve =>
    obtain ⟨p', hgranted, rfl⟩ := Account.within_live_yields hreserve
    rcases Portfolio.reserve_yields hgranted with ⟨⟨_, hrefused⟩, -⟩ | ⟨-, -, -, -, _, -, rfl⟩
    · cases hrefused
    · exact ⟨_, rfl, by simp [hfree], by simp [PositionEvent.reason?, Nat.add_comm]⟩
  | @closed held reason price pnl halt _ hheld hprice hpnl hsettle =>
    obtain ⟨p', hsettled, rfl⟩ := Account.within_live_yields hsettle
    obtain ⟨booked, tripped, hbook, -, rfl, -⟩ := Portfolio.settle_yields hsettled
    obtain ⟨_, _, _, -, -, -, rfl⟩ := Portfolio.book_ok hbook
    have hpos := hopen (by rw [hheld]; rfl)
    refine ⟨_, rfl, ?_, ?_⟩
    · simp [hheld]
      omega
    · simp [PositionEvent.reason?]
      omega

namespace Engine

/-- What is known of an engine of a configuration after some evaluations: each instrument has one desk
and each enabled signal one reading, and the live account counts the positions that were opened and
not closed, which are those that the desks hold. -/
structure Tallied (config : Config) (evaluations : List Evaluation) (engine : Engine) : Prop where
  sound : engine.Sound config
  names : (engine.desks.map Prod.fst).Nodup
  readings : ∀ composite ∈ composites evaluations, (composite.details.map Prod.fst).Nodup
  account : ∃ p, engine.account = .live p ∧
    p.openPositions = engine.desks.countP (fun entry => entry.2.isHolding) ∧
    ((events evaluations).countP fun event => event.reason?.isNone) =
      p.openPositions + (events evaluations).countP fun event => event.reason?.isSome

variable {config : Config} {engine engine' : Engine} {evaluations : List Evaluation}

private theorem ofConfig_tallied (h : ofConfig config = .ok engine) : Tallied config [] engine := by
  have hsound := ofConfig_sound h
  simp only [ofConfig, bind_ok_iff, pure_ok_iff] at h
  obtain ⟨account, haccount, rfl⟩ := h
  obtain ⟨p, hstart, rfl⟩ := Account.ofSettings_ok haccount
  obtain ⟨limit, -, rfl⟩ := Portfolio.ofSettings_ok hstart
  exact ⟨hsound, List.nodup_nil, by simp [composites], _, rfl, rfl, rfl⟩

theorem Tallied.step {command : Command} {evaluation? : Option Evaluation}
    (h : Tallied config evaluations engine) (hstep : Step engine command evaluation? engine') :
    Tallied config (evaluations ++ evaluation?.toList) engine' := by
  have hsound := h.sound.step hstep
  obtain ⟨p, hlive, hcount, hopened⟩ := h.account
  cases hstep with
  | dropped hnone => simpa using h
  | cleared hclear =>
    rw [hlive] at hclear
    obtain ⟨q, hcleared, rfl⟩ := Account.clearHalt_live_yields hclear
    obtain ⟨rfl, -⟩ := Portfolio.clearHalt_yields hcleared
    rw [Option.toList_none, List.append_nil]
    exact ⟨hsound, h.names, h.readings, _, rfl, hcount, hopened⟩
  | @worked text record desk desk' evaluation account hrecord hdesk hworked =>
    obtain ⟨event, hevents, hturn⟩ := hworked.turn
    have hput := Roster.countP_put engine.desks record.instrument desk' Desk.isHolding
    rw [lookup_isHolding hdesk] at hput
    rw [hlive] at hturn
    obtain ⟨p', rfl, hheld, hevent⟩ := hturn.tallied fun hholding => hcount ▸ holding_pos hdesk hholding
    have hcomposite : composites (evaluations ++ [evaluation]) =
        composites evaluations ++ evaluation.composite.toList := by
      rw [composites, List.filterMap_append, List.filterMap_cons]
      cases evaluation.composite <;> rfl
    have hall : events (evaluations ++ [evaluation]) = events evaluations ++ event.toList := by
      simp [events, hevents]
    refine ⟨hsound, Roster.nodup_put h.names _ _, ?_, p', rfl, ?_, ?_⟩
    · intro composite hmem
      rw [Option.toList_some, hcomposite, List.mem_append, Option.mem_toList] at hmem
      rcases hmem with hearlier | hnew
      · exact h.readings composite hearlier
      · have hevaluate := hworked.composite
        rw [h.sound.sameComposer, hnew] at hevaluate
        exact Composer.details_nodup hevaluate
    · simp only [Desk.isHolding] at hcount hput ⊢
      simp only [withDesk]
      omega
    · rw [Option.toList_some, hall, List.countP_append, List.countP_append]
      omega

private theorem Run.tallied {start : Engine} {commands : List Command}
    (hrun : Run start commands evaluations engine) (h : Tallied config [] start) :
    Tallied config evaluations engine := by
  induction hrun with
  | nil => exact h
  | snoc hrun hstep ih => exact ih.step hstep

private theorem Tallied.holders (h : Tallied config evaluations engine) :
    let holders := (engine.desks.filter fun entry => entry.2.isHolding).map Prod.fst
    holders.Nodup ∧ holders.length = engine.desks.countP (fun entry => entry.2.isHolding) ∧
      ∀ instrument, instrument ∈ holders ↔ (engine.held? instrument).isSome = true := by
  refine ⟨h.names.sublist (List.filter_sublist.map _), ?_, fun instrument => ?_⟩
  · rw [List.length_map, List.countP_eq_length_filter]
  · constructor
    · intro hholder
      obtain ⟨⟨name, desk⟩, hentry, rfl⟩ := List.mem_map.1 hholder
      obtain ⟨hmem, hholding⟩ := List.mem_filter.1 hentry
      rw [held?, desk?, (Roster.lookup_eq_some_iff_mem h.names).2 hmem, Option.bind_some]
      exact hholding
    · intro hheld
      cases hdesk : engine.desk? instrument with
      | none =>
        rw [held?, hdesk] at hheld
        cases hheld
      | some desk =>
        rw [held?, hdesk, Option.bind_some] at hheld
        have hmem := (Roster.lookup_eq_some_iff_mem h.names).1 hdesk
        exact List.mem_map.2 ⟨(instrument, desk), List.mem_filter.2 ⟨hmem, hheld⟩, rfl⟩

private theorem countP_isSome_reason? (events : List PositionEvent) :
    (events.countP fun event => event.reason?.isSome) =
      (events.countP fun event => event.reason? == some .takeProfit) +
        (events.countP fun event => event.reason? == some .stopLoss) +
          events.countP fun event => event.reason? == some .timeStop := by
  induction events with
  | nil => rfl
  | cons event events ih =>
    simp only [List.countP_cons, ih]
    rcases event.reason? with _ | _ | _ | _ <;> simp <;> omega

open Metrics in
/-- The metrics of a trail agree with the commands of a run, with its evaluations and with the engine
that it leaves. -/
structure Reconciled (commands : List Command) (evaluations : List Evaluation) (engine : Engine)
    (trail : List Notice) : Prop where
  messages : count .recordsProcessed trail + count .recordsDropped trail =
    commands.countP Command.isMessage
  processed : count .recordsProcessed trail = evaluations.length
  composite : ∀ actionable, count (.composite actionable) trail =
    (composites evaluations).countP fun composite => composite.actionable == actionable
  fired : ∀ signal, count (.signalFired signal) trail =
    (composites evaluations).countP fun composite =>
      composite.details.any fun detail => detail.1 == signal && detail.2.score != 0.0
  opened : count .positionOpened trail =
    (events evaluations).countP fun event => event.reason?.isNone
  closed : ∀ reason, count (.positionClosed reason) trail =
    (events evaluations).countP fun event => event.reason? == some reason
  portfolio : ∃ p, engine.account = .live p ∧
    count .positionOpened trail = p.openPositions + (count (.positionClosed .takeProfit) trail +
      count (.positionClosed .stopLoss) trail + count (.positionClosed .timeStop) trail) ∧
    (∃ holders : List String, holders.Nodup ∧ holders.length = p.openPositions ∧
      ∀ instrument, instrument ∈ holders ↔ (engine.held? instrument).isSome = true) ∧
    ((∃ gauge, .gauge gauge ∈ trail) → p.ShownBy trail)

/-- Whatever the configuration and the commands: the metrics of a run that is not given up count its
messages, evaluations, composites, readings and position events, the positions that are open are those
that were opened and not closed, and the gauges show the portfolio once they have been set. -/
theorem metrics_reconcile (hstart : ofConfig config = .ok engine) {commands : List Command}
    (hrun : (handleAll commands).Yields engine evaluations engine') :
    Reconciled commands evaluations engine' (handleAll commands engine).notices := by
  obtain ⟨dropped, hmessages, hcounters, hgauges⟩ := handleAll_accounted hrun.leaves
  have htallied := (handleAll_run hrun).tallied (ofConfig_tallied hstart)
  generalize (handleAll commands engine).notices = trail at hcounters hgauges
  have hcount (counter : Counter) :
      Metrics.count counter trail = (runCounters dropped evaluations).count counter :=
    hcounters.count_eq counter
  obtain ⟨p, hlive, hopen, hpositions⟩ := htallied.account
  obtain ⟨hnodup, hlength, hholders⟩ := htallied.holders
  constructor
  case messages => rw [hcount, hcount, count_recordsProcessed, count_recordsDropped, hmessages]
  case processed => rw [hcount, count_recordsProcessed]
  case composite =>
    intro actionable
    rw [hcount, count_composite]
  case fired =>
    intro signal
    rw [hcount, count_signalFired _ _ htallied.readings]
  case opened => rw [hcount, count_positionOpened]
  case closed =>
    intro reason
    rw [hcount, count_positionClosed]
  case portfolio =>
    refine ⟨p, hlive, ?_, ⟨_, hnodup, hlength.trans hopen.symm, hholders⟩, ?_⟩
    · rw [hcount, hcount, hcount, hcount, count_positionOpened, count_positionClosed,
        count_positionClosed, count_positionClosed, hpositions, countP_isSome_reason?]
    · rintro ⟨gauge, hgauge⟩
      rcases hgauges with ⟨hungauged, -⟩ | ⟨q, hq, hshown⟩
      · exact absurd hgauge (hungauged gauge)
      · rw [hlive] at hq
        cases hq
        exact hshown

/-- A position is opened and stopped out, a halt is cleared and a message is dropped. -/
theorem metrics_reconcile_of_loss :
    let config : Config := {
      activation := { dollarVolume := 0.0 }
      composer := { minSignals := 1 }
      signals := { tradeImbalance := { minTrades := 1 } } }
    let commands : List Command := [
      .message "[\"quote\", \"RAIN\", 0, 50, 49, 51, 0, 0]",
      .message "[\"trade\", \"RAIN\", 1000, \"yes\", 100, 51]", .clearHalt,
      .message "[\"quote\", \"RAIN\", 2000, 40, 39, 41, 0, 0]", .message "RAIN"]
    ∃ engine evaluations engine', ofConfig config = .ok engine ∧
      (handleAll commands).Yields engine evaluations engine' ∧ (events evaluations).length = 2 ∧
      Reconciled commands evaluations engine' (handleAll commands engine).notices := by
  intro config commands
  have hstart : ∃ engine, ofConfig config = .ok engine ∧
      (handleAll commands engine).outcome.toOption.any (fun evaluations =>
        (events evaluations).length = 2) = true := exists_ok_of_any (by decide +kernel)
  obtain ⟨engine, hstart, hrun⟩ := hstart
  obtain ⟨evaluations, hout, htwo⟩ := exists_ok_of_any hrun
  have hyields := Act.yields_of_outcome hout
  exact ⟨engine, evaluations, _, hstart, hyields, htwo, metrics_reconcile hstart hyields⟩

end Engine

end SignalDesk
