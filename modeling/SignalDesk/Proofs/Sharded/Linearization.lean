import Mathlib.Data.List.Forall2
import SignalDesk.Proofs.Engine
import SignalDesk.Proofs.Sharded.Schedule

/-!
# Linearization of the shards

Whatever the schedule, the shards do what the engine does when it processes the records one after the
other, each at the moment when the account serves it. A record asks the account at most once, so that
moment is a single one.
-/

namespace SignalDesk

namespace ShardedEngine

open Act

section ofInstrument

variable {α : Type} {name : α → String} {instrument : String} {item : α} {items : List α}

def ofInstrument (name : α → String) (instrument : String) (items : List α) : List α :=
  items.filter fun item => name item == instrument

private theorem ofInstrument_concat_self (h : name item = instrument) :
    ofInstrument name instrument (items ++ [item]) = ofInstrument name instrument items ++ [item] := by
  simp [ofInstrument, h]

private theorem ofInstrument_concat_of_ne (h : instrument ≠ name item) :
    ofInstrument name instrument (items ++ [item]) = ofInstrument name instrument items := by
  simp [ofInstrument, h.symm]

theorem count_ofInstrument [DecidableEq α] (name : α → String) (a : α) (items : List α) :
    (ofInstrument name (name a) items).count a = items.count a :=
  List.count_filter (beq_self_eq_true _)

private theorem perm_of_ofInstrument [DecidableEq α] {others : List α}
    (h : ∀ instrument, ofInstrument name instrument items = ofInstrument name instrument others) :
    items.Perm others := by
  refine List.perm_iff_count.2 fun a => ?_
  rw [← count_ofInstrument name a items, ← count_ofInstrument name a others, h]

end ofInstrument

def accepted (input : List Record) : List Record := input.filter Record.isValid

private theorem accepted_concat {record : Record} {input : List Record} (h : record.isValid = true) :
    accepted (input ++ [record]) = accepted input ++ [record] := by
  simp [accepted, h]

private theorem accepted_concat_of_invalid {record : Record} {input : List Record}
    (h : record.isValid = false) : accepted (input ++ [record]) = accepted input := by
  simp [accepted, h]

theorem accepted_of_waiting {instrument : String} {taken order queue : List Record} {record : Record}
    (htaken : ofInstrument Record.instrument instrument (accepted taken) =
      ofInstrument Record.instrument instrument order ++ record :: queue) :
    record.isValid = true ∧ record.instrument = instrument := by
  have hmem : record ∈ ofInstrument Record.instrument instrument (accepted taken) := by
    rw [htaken]
    simp
  simp only [ofInstrument, accepted, List.mem_filter, beq_iff_eq] at hmem
  exact ⟨hmem.1.2, hmem.2⟩

/-- How far a shard is ahead of or behind the engine: the records that it has taken in and the engine
has not, and the evaluations that the engine has made and the shard has not sent. -/
inductive Stage (engine : Engine) (instrument : String) :
    Option Shard → List Record → List Evaluation → Prop
  | absent (hdesk : engine.desk? instrument = none) : Stage engine instrument none [] []
  | idle {desk : Desk} {queue : List Record} (hdesk : engine.deskFor instrument = .ok desk) :
      Stage engine instrument (some ⟨desk, queue, none, false⟩) queue []
  /-- The record in progress counts as not taken in. -/
  | asking {desk : Desk} {queue : List Record} {record : Record} {plan : Plan Desk Evaluation}
      (hdesk : engine.deskFor instrument = .ok desk)
      (hplan : desk.recordPlan engine.composer record = plan) :
      Stage engine instrument (some ⟨desk, queue, some plan, false⟩) (record :: queue) []
  /-- The engine has processed the record in progress and has the desk that is to come of it. -/
  | served {desk : Desk} {queue : List Record} {attempt : Attempt Desk Evaluation}
      {evaluation : Evaluation} (hout : attempt.outcome = .ok evaluation)
      (hdesk : engine.deskFor instrument = .ok attempt.state)
      (hname : evaluation.instrument = instrument) :
      Stage engine instrument (some ⟨desk, queue, some (.done attempt), false⟩) queue [evaluation]

/-- An evaluation is about the instrument and the time of the record. -/
def Answers (record : Record) (evaluation : Evaluation) : Prop :=
  evaluation.instrument = record.instrument ∧ evaluation.ts = record.ts

/-- The engine has processed some records in an order that explains what the shards have done with
the records that they have taken in. -/
structure Linearised (opened : Engine) (taken : List Record) (shards : ShardedEngine)
    (order : List Record) (evaluations : List Evaluation) (engine : Engine) : Prop where
  processed : (Engine.processAll order).Yields opened evaluations engine
  config : engine.config = shards.config
  composer : engine.composer = shards.composer
  account : engine.account = shards.account
  labelled : engine.Labelled
  answers : List.Forall₂ Answers order evaluations
  stage : ∀ instrument, ∃ waiting unsent,
    Stage engine instrument (shards.shard? instrument) waiting unsent ∧
      ofInstrument Record.instrument instrument (accepted taken) =
        ofInstrument Record.instrument instrument order ++ waiting ∧
      ofInstrument Evaluation.instrument instrument evaluations =
        ofInstrument Evaluation.instrument instrument shards.output ++ unsent

/-- The engine has made one evaluation for a shard that the shard has not sent. -/
structure Ahead (taken : List Record) (output : List Evaluation) (order : List Record)
    (evaluations : List Evaluation) (engine : Engine) (instrument : String) (queue : List Record)
    (desk : Desk) (evaluation : Evaluation) : Prop where
  desk : engine.deskFor instrument = .ok desk
  name : evaluation.instrument = instrument
  taken : ofInstrument Record.instrument instrument (accepted taken) =
    ofInstrument Record.instrument instrument order ++ queue
  sent : ofInstrument Evaluation.instrument instrument evaluations =
    ofInstrument Evaluation.instrument instrument output ++ [evaluation]

variable {opened engine engine' : Engine} {taken order : List Record} {shards : ShardedEngine}
  {evaluations : List Evaluation} {instrument : String}

theorem Stage.congr {shard : Option Shard} {waiting : List Record} {unsent : List Evaluation}
    (h : Stage engine instrument shard waiting unsent) (hcomposer : engine'.composer = engine.composer)
    (hdesk? : engine'.desk? instrument = engine.desk? instrument)
    (hdeskFor : engine'.deskFor instrument = engine.deskFor instrument) :
    Stage engine' instrument shard waiting unsent := by
  cases h with
  | absent hdesk => exact .absent (hdesk?.trans hdesk)
  | idle hdesk => exact .idle (hdeskFor.trans hdesk)
  | asking hdesk hplan => exact .asking (hdeskFor.trans hdesk) (hcomposer ▸ hplan)
  | served hout hdesk hname => exact .served hout (hdeskFor.trans hdesk) hname

private theorem Stage.enqueue {desk : Desk} {queue waiting : List Record}
    {pending : Option (Plan Desk Evaluation)} {unsent : List Evaluation}
    (h : Stage engine instrument (some ⟨desk, queue, pending, false⟩) waiting unsent)
    (record : Record) :
    Stage engine instrument (some ⟨desk, queue ++ [record], pending, false⟩) (waiting ++ [record])
      unsent := by
  cases h with
  | idle hdesk => exact .idle hdesk
  | asking hdesk hplan => exact .asking hdesk hplan
  | served hout hdesk hname => exact .served hout hdesk hname

/-- A step of one shard that leaves the account alone is explained by the same order. -/
theorem Linearised.replace (h : Linearised opened taken shards order evaluations engine)
    {taken' : List Record} {shards' : ShardedEngine} (waiting : List Record)
    (unsent : List Evaluation) (hconfig : shards'.config = shards.config)
    (hcomposer : shards'.composer = shards.composer) (haccount : shards'.account = shards.account)
    (hothers : ∀ name, name ≠ instrument → shards'.shard? name = shards.shard? name ∧
      ofInstrument Record.instrument name (accepted taken') =
        ofInstrument Record.instrument name (accepted taken) ∧
      ofInstrument Evaluation.instrument name shards'.output =
        ofInstrument Evaluation.instrument name shards.output)
    (hstage : Stage engine instrument (shards'.shard? instrument) waiting unsent)
    (htaken : ofInstrument Record.instrument instrument (accepted taken') =
      ofInstrument Record.instrument instrument order ++ waiting)
    (hsent : ofInstrument Evaluation.instrument instrument evaluations =
      ofInstrument Evaluation.instrument instrument shards'.output ++ unsent) :
    Linearised opened taken' shards' order evaluations engine := by
  refine ⟨h.processed, h.config.trans hconfig.symm, h.composer.trans hcomposer.symm,
    h.account.trans haccount.symm, h.labelled, h.answers, fun name => ?_⟩
  by_cases hname : name = instrument
  · subst hname
    exact ⟨waiting, unsent, hstage, htaken, hsent⟩
  · obtain ⟨hshard, hrecords, houtput⟩ := hothers name hname
    rw [hshard, hrecords, houtput]
    exact h.stage name

theorem Linearised.drop (h : Linearised opened taken shards order evaluations engine)
    {record : Record} (hinvalid : record.isValid = false) :
    Linearised opened (taken ++ [record]) shards order evaluations engine := by
  refine ⟨h.processed, h.config, h.composer, h.account, h.labelled, h.answers, fun name => ?_⟩
  rw [accepted_concat_of_invalid hinvalid]
  exact h.stage name

private theorem Linearised.enqueue (h : Linearised opened taken shards order evaluations engine)
    {record : Record} (hvalid : record.isValid = true) {desk : Desk} {queue : List Record}
    {pending : Option (Plan Desk Evaluation)}
    (hshard : shards.shard? record.instrument = some ⟨desk, queue, pending, false⟩ ∨
      shards.shard? record.instrument = none ∧ queue = [] ∧ pending = none ∧
        Desk.ofConfig shards.composer shards.config record.instrument = .ok desk) :
    Linearised opened (taken ++ [record])
      (shards.withShard record.instrument ⟨desk, queue ++ [record], pending, false⟩)
      order evaluations engine := by
  obtain ⟨waiting, unsent, hstage, htaken, hsent⟩ := h.stage record.instrument
  have hopen : Stage engine record.instrument (some ⟨desk, queue, pending, false⟩) waiting unsent := by
    rcases hshard with hshard | ⟨hshard, rfl, rfl, hdesk⟩
    · rwa [hshard] at hstage
    · rw [hshard] at hstage
      cases hstage with
      | absent hnone =>
        refine .idle ?_
        rw [Engine.deskFor, hnone, h.composer, h.config]
        exact hdesk
  refine h.replace (waiting ++ [record]) unsent rfl rfl rfl
    (fun name hname => ⟨withShard_shard?_of_ne hname _ _, ?_, rfl⟩) ?_ ?_ hsent
  · rw [accepted_concat hvalid, ofInstrument_concat_of_ne hname]
  · rw [withShard_shard?_self]
    exact hopen.enqueue record
  · rw [accepted_concat hvalid, ofInstrument_concat_self rfl, htaken, List.append_assoc]

/-- The account serves a record: the engine processes it now. -/
theorem Linearised.serve (h : Linearised opened taken shards order evaluations engine)
    {desk : Desk} {queue : List Record} {record : Record} {plan : Plan Desk Evaluation}
    {evaluation : Evaluation} (hplan : desk.recordPlan engine.composer record = plan)
    (hdesk : engine.deskFor instrument = .ok desk)
    (htaken : ofInstrument Record.instrument instrument (accepted taken) =
      ofInstrument Record.instrument instrument order ++ record :: queue)
    (hsent : ofInstrument Evaluation.instrument instrument evaluations =
      ofInstrument Evaluation.instrument instrument shards.output)
    (hout : (plan.consult shards.account).1.outcome = .ok evaluation) :
    ∃ engine', Linearised opened taken (shards.served instrument desk queue plan)
        (order ++ [record]) (evaluations ++ [evaluation]) engine' ∧
      Ahead taken shards.output (order ++ [record]) (evaluations ++ [evaluation]) engine' instrument
        queue (plan.consult shards.account).1.state evaluation := by
  obtain ⟨hvalid, rfl⟩ := accepted_of_waiting htaken
  rw [← h.account] at hout
  rcases hserved : plan.consult engine.account with ⟨attempt, account⟩
  rw [hserved] at hout
  have hrun : plan.run.Yields (desk, engine.account) evaluation (attempt.state, account) := by
    refine ⟨?_, ?_⟩ <;> simp only [Plan.run, hserved]
    exact hout
  rw [← hplan] at hrun
  -- the engine carries the same plan out, on an equal desk and an equal account
  have hprocess := Engine.process_yields hvalid hdesk hrun
  obtain ⟨htape, hname, hts, -, -⟩ := Desk.recordPlan_worked hrun
  rw [h.labelled _ _ hdesk] at hname
  have hlabel : attempt.state.tape.instrument = record.instrument := by
    rw [htape]
    exact h.labelled _ _ hdesk
  have hahead : Ahead taken shards.output (order ++ [record]) (evaluations ++ [evaluation])
      (engine.withDesk record.instrument attempt.state account) record.instrument queue attempt.state
      evaluation := by
    refine ⟨Engine.withDesk_deskFor_self _ _ _ _, hname, ?_, ?_⟩
    · rw [htaken, ofInstrument_concat_self rfl, List.append_assoc, List.singleton_append]
    · rw [ofInstrument_concat_self hname, hsent]
  refine ⟨engine.withDesk record.instrument attempt.state account, ?_⟩
  rw [served, ← h.account, hserved]
  refine ⟨?_, hahead⟩
  refine ⟨Engine.processAll_concat h.processed hprocess, h.config, h.composer, rfl,
    h.labelled.withDesk hlabel account,
    List.rel_append h.answers (.cons ⟨hname, hts⟩ .nil), fun name => ?_⟩
  by_cases hother : name = record.instrument
  · subst hother
    refine ⟨queue, [evaluation], ?_, hahead.taken, hahead.sent⟩
    have hstage : Stage (engine.withDesk record.instrument attempt.state account)
        record.instrument (some ⟨desk, queue, some (.done attempt), false⟩) queue [evaluation] :=
      .served hout hahead.desk hname
    exact (withShard_shard?_self shards record.instrument _).symm ▸ hstage
  · obtain ⟨waiting, unsent, hstage, htaken', hsent'⟩ := h.stage name
    refine ⟨waiting, unsent, ?_, ?_, ?_⟩
    · have hkept : Stage (engine.withDesk record.instrument attempt.state account) name
          (shards.shard? name) waiting unsent :=
        hstage.congr rfl (Engine.withDesk_desk?_of_ne hother _ _ _)
          (Engine.withDesk_deskFor_of_ne hother _ _ _)
      exact (withShard_shard?_of_ne hother shards _).symm ▸ hkept
    · rw [ofInstrument_concat_of_ne hother, htaken']
    · rw [ofInstrument_concat_of_ne (hname ▸ hother), hsent']
      rfl

theorem Linearised.start (h : Linearised opened taken shards order evaluations engine)
    {desk : Desk} {record : Record} {queue : List Record}
    (hshard : shards.shard? instrument = some ⟨desk, record :: queue, none, false⟩) :
    Linearised opened taken (shards.withShard instrument
      ⟨desk, queue, some (desk.recordPlan shards.composer record), false⟩)
      order evaluations engine := by
  obtain ⟨waiting, unsent, hstage, htaken, hsent⟩ := h.stage instrument
  rw [hshard] at hstage
  cases hstage with
  | idle hdesk =>
    refine h.replace (record :: queue) [] rfl rfl rfl
      (fun name hname => ⟨withShard_shard?_of_ne hname _ _, rfl, rfl⟩) ?_ htaken hsent
    rw [withShard_shard?_self]
    exact .asking hdesk (by rw [h.composer])

/-- The account serves a shard, unless the rest of its work is given up. -/
theorem Linearised.consult (h : Linearised opened taken shards order evaluations engine)
    {desk : Desk} {queue : List Record} {plan : Plan Desk Evaluation}
    (hshard : shards.shard? instrument = some ⟨desk, queue, some plan, false⟩) :
    (∃ order evaluations engine,
      Linearised opened taken (shards.served instrument desk queue plan) order evaluations engine) ∨
        ∃ abort, (plan.consult shards.account).1.outcome = .error abort := by
  obtain ⟨waiting, unsent, hstage, htaken, hsent⟩ := h.stage instrument
  rw [hshard] at hstage
  have hserved : (shards.served instrument desk queue plan).shard? instrument =
      some ⟨desk, queue, some (.done (plan.consult shards.account).1), false⟩ :=
    withShard_shard?_self _ _ _
  cases hstage with
  | asking hdesk hplan =>
    cases hout : (plan.consult shards.account).1.outcome with
    | ok evaluation =>
      obtain ⟨engine', hnext, -⟩ := h.serve hplan hdesk htaken (by simpa using hsent) hout
      exact .inl ⟨_, _, engine', hnext⟩
    | error abort => exact .inr ⟨abort, rfl⟩
  | served hout hdesk hname =>
    refine .inl ⟨order, evaluations, engine, h.replace queue _ rfl rfl rfl
      (fun name hother => ⟨withShard_shard?_of_ne hother _ _, rfl, rfl⟩) ?_ htaken hsent⟩
    rw [hserved]
    exact .served hout hdesk hname

theorem Linearised.send (h : Linearised opened taken shards order evaluations engine)
    {queue : List Record} {desk : Desk} {evaluation : Evaluation}
    (hahead : Ahead taken shards.output order evaluations engine instrument queue desk evaluation) :
    Linearised opened taken
      { shards.withShard instrument ⟨desk, queue, none, false⟩ with
        output := shards.output ++ [evaluation] } order evaluations engine := by
  refine h.replace queue [] rfl rfl rfl
    (fun name hname => ⟨withShard_shard?_of_ne hname _ _, rfl, ?_⟩) ?_ hahead.taken ?_
  · exact ofInstrument_concat_of_ne (hahead.name ▸ hname)
  · have hstage : Stage engine instrument (some ⟨desk, queue, none, false⟩) queue [] :=
      .idle hahead.desk
    exact (withShard_shard?_self shards instrument _).symm ▸ hstage
  · rw [hahead.sent, List.append_nil]
    exact (ofInstrument_concat_self hahead.name).symm

/-- A shard sends an evaluation. The engine makes it at this moment if the record asked for nothing
and the account has not looked at it. -/
theorem Linearised.send_done (h : Linearised opened taken shards order evaluations engine)
    {desk : Desk} {queue : List Record} {attempt : Attempt Desk Evaluation} {evaluation : Evaluation}
    (hshard : shards.shard? instrument = some ⟨desk, queue, some (.done attempt), false⟩)
    (hout : attempt.outcome = .ok evaluation) :
    ∃ order evaluations engine, Linearised opened taken
      { shards.withShard instrument ⟨attempt.state, queue, none, false⟩ with
        output := shards.output ++ [evaluation] } order evaluations engine := by
  obtain ⟨waiting, unsent, hstage, htaken, hsent⟩ := h.stage instrument
  rw [hshard] at hstage
  cases hstage with
  | asking hdesk hplan =>
    obtain ⟨engine', hnext, hahead⟩ := h.serve hplan hdesk htaken (by simpa using hsent) hout
    have hsame : (shards.served instrument desk queue (.done attempt)).withShard instrument
        ⟨attempt.state, queue, none, false⟩ =
        shards.withShard instrument ⟨attempt.state, queue, none, false⟩ := by
      simp [ShardedEngine.served, withShard, Plan.consult]
    have hlast := hnext.send hahead
    rw [Plan.consult, hsame] at hlast
    exact ⟨_, _, engine', hlast⟩
  | served hout' hdesk hname =>
    rw [hout, Except.ok.injEq] at hout'
    subst hout'
    exact ⟨order, evaluations, engine, h.send ⟨hdesk, hname, htaken, hsent⟩⟩

/-- Some order explains what the shards have done with the part of the input that is dispatched. -/
def Explained (opened : Engine) (input : List Record) (now : Configuration) : Prop :=
  ∃ taken order evaluations engine, input = taken ++ now.2 ∧
    Linearised opened taken now.1 order evaluations engine

/-- What some shard has in progress would be given up if the account served it now. -/
def Failing (engine : ShardedEngine) : Prop :=
  ∃ instrument desk queue plan abort, engine.shard? instrument = some ⟨desk, queue, some plan, false⟩ ∧
    (plan.consult engine.account).1.outcome = .error abort

theorem step_explained {input : List Record} {before after : Configuration}
    (hstep : Step before after) (h : Explained opened input before) :
    Explained opened input after ∨ before.1.Failing ∧ after.1.Lost := by
  cases hstep with
  | @dispatch shards record rest hout =>
    obtain ⟨taken, order, evaluations, engine, hinput, hlin⟩ := h
    have hnext : input = (taken ++ [record]) ++ rest := by
      rw [hinput, List.append_assoc, List.singleton_append]
    refine .inl ⟨taken ++ [record], order, evaluations, engine, hnext, ?_⟩
    rcases dispatch_cases hout with ⟨hinvalid, hsame⟩ | ⟨hvalid, desk, queue, pending, hqueued, hshard⟩
    · rw [hsame]
      exact hlin.drop hinvalid
    · rw [hqueued]
      exact hlin.enqueue hvalid hshard
  | start shards rest instrument =>
    rcases start_cases shards instrument with hsame | ⟨desk, record, queue, hshard, hnext⟩
    · rw [hsame]
      exact .inl h
    · obtain ⟨taken, order, evaluations, engine, hinput, hlin⟩ := h
      rw [hnext]
      exact .inl ⟨taken, order, evaluations, engine, hinput, hlin.start hshard⟩
  | consult shards rest instrument =>
    rcases consult_cases shards instrument with hsame | ⟨desk, queue, plan, hshard, hnext⟩
    · rw [hsame]
      exact .inl h
    · obtain ⟨taken, order, evaluations, engine, hinput, hlin⟩ := h
      rw [hnext]
      refine (hlin.consult hshard).imp ?_ ?_
      · rintro ⟨order', evaluations', engine', hlin'⟩
        exact ⟨taken, order', evaluations', engine', hinput, hlin'⟩
      · rintro ⟨abort, hout⟩
        exact ⟨⟨instrument, desk, queue, plan, abort, hshard, hout⟩, instrument, _,
          withShard_shard?_self _ _ _, .inr ⟨_, abort, rfl, hout⟩⟩
  | send shards rest instrument =>
    rcases send_cases shards instrument with hsame | ⟨desk, queue, attempt, hshard, hnext⟩
    · rw [hsame]
      exact .inl h
    · obtain ⟨taken, order, evaluations, engine, hinput, hlin⟩ := h
      rcases hnext with ⟨evaluation, hout, hnext⟩ | ⟨abort, hout, hnext⟩
      · obtain ⟨order', evaluations', engine', hlin'⟩ := hlin.send_done hshard hout
        rw [hnext]
        exact .inl ⟨taken, order', evaluations', engine', hinput, hlin'⟩
      · rw [hnext]
        exact .inr ⟨⟨instrument, desk, queue, _, abort, hshard, hout⟩, instrument, _,
          withShard_shard?_self _ _ _, .inl rfl⟩

private theorem run_explained {input : List Record} {before after : Configuration}
    (hrun : Relation.ReflTransGen Step before after) (h : Explained opened input before) :
    Explained opened input after ∨ after.1.Lost := by
  induction hrun with
  | refl => exact .inl h
  | tail _ hstep ih =>
    rcases ih with hexplained | hlost
    · exact (step_explained hstep hexplained).imp_right And.right
    · exact .inr (step_lost hstep hlost)

theorem ofConfig_linearised {config : Config} {shards : ShardedEngine}
    (h : ofConfig config = .ok shards) :
    ∃ opened, Engine.ofConfig config = .ok opened ∧ Linearised opened [] shards [] [] opened := by
  simp only [ofConfig, bind_ok_iff, pure_ok_iff] at h
  obtain ⟨_, -, account, haccount, rfl⟩ := h
  refine ⟨⟨config, .ofConfig config, account, []⟩, ?_,
    ⟨yields_pure_iff.2 ⟨rfl, rfl⟩, rfl, rfl, rfl, ?_, .nil, fun instrument => ?_⟩⟩
  · simp only [Engine.ofConfig, bind_ok_iff, pure_ok_iff]
    exact ⟨account, haccount, rfl⟩
  · intro instrument desk hdesk
    exact Desk.ofConfig_instrument hdesk
  · exact ⟨[], [], .absent rfl, rfl, rfl⟩

def Finished (engine : ShardedEngine) : Prop :=
  ∀ entry ∈ engine.shards, entry.2.queue = [] ∧ entry.2.pending.isNone ∧ entry.2.stopped = false

instance (engine : ShardedEngine) : Decidable engine.Finished :=
  inferInstanceAs (Decidable (∀ entry ∈ engine.shards, _))

private theorem mem_of_shard? {engine : ShardedEngine} {shard : Shard}
    (h : engine.shard? instrument = some shard) : (instrument, shard) ∈ engine.shards := by
  obtain ⟨before, after, hshards, -⟩ := List.lookup_eq_some_iff.1 h
  rw [hshards]
  exact List.mem_append_right _ List.mem_cons_self

/-- A schedule that takes all records in and finishes without giving up does what the engine does on
the accepted records in some order that keeps the order within each instrument: the account ends up
the same, and so do the evaluations of each instrument, of which there is one for each accepted
record, in the order of the input. -/
theorem schedules_linearise {config : Config} {shards final : ShardedEngine} {input : List Record}
    (hopen : ofConfig config = .ok shards)
    (hrun : Relation.ReflTransGen Step (shards, input) (final, [])) (hfinished : final.Finished) :
    ∃ order evaluations opened engine,
      order.Perm (input.filter Record.isValid) ∧
      (∀ instrument, order.filter (·.instrument == instrument) =
        (input.filter Record.isValid).filter (·.instrument == instrument)) ∧
      Engine.ofConfig config = .ok opened ∧
      (Engine.processAll order).Yields opened evaluations engine ∧
      (∀ instrument, evaluations.filter (·.instrument == instrument) =
        final.output.filter (·.instrument == instrument)) ∧
      engine.account = final.account ∧
      ∀ instrument, List.Forall₂
        (fun record evaluation => evaluation.instrument = record.instrument ∧ evaluation.ts = record.ts)
        ((input.filter Record.isValid).filter (·.instrument == instrument))
        (final.output.filter (·.instrument == instrument)) := by
  obtain ⟨opened, hopened, hinit⟩ := ofConfig_linearised hopen
  have hstart : Explained opened input (shards, input) := ⟨[], [], [], opened, rfl, hinit⟩
  have hlookup (instrument : String) (shard : Shard) (h : final.shard? instrument = some shard) :=
    hfinished _ (mem_of_shard? h)
  rcases run_explained hrun hstart with ⟨taken, order, evaluations, engine, hinput, h⟩ | hlost
  · rw [List.append_nil] at hinput
    subst hinput
    have hdone (instrument : String) :
        ofInstrument Record.instrument instrument order =
          ofInstrument Record.instrument instrument (accepted input) ∧
        ofInstrument Evaluation.instrument instrument evaluations =
          ofInstrument Evaluation.instrument instrument final.output := by
      obtain ⟨waiting, unsent, hstage, htaken, hsent⟩ := h.stage instrument
      have hnone : waiting = [] ∧ unsent = [] := by
        cases hshard : final.shard? instrument with
        | none =>
          rw [hshard] at hstage
          cases hstage with
          | absent => exact ⟨rfl, rfl⟩
        | some shard =>
          obtain ⟨hqueue, hpending, -⟩ := hlookup instrument shard hshard
          rw [hshard] at hstage
          cases hstage with
          | idle => exact ⟨hqueue, rfl⟩
          | asking => cases hpending
          | served => cases hpending
      rw [hnone.1, List.append_nil] at htaken
      rw [hnone.2, List.append_nil] at hsent
      exact ⟨htaken.symm, hsent⟩
    refine ⟨order, evaluations, opened, engine, perm_of_ofInstrument fun name => (hdone name).1,
      fun name => (hdone name).1, hopened, h.processed, fun name => (hdone name).2, h.account,
      fun name => ?_⟩
    change List.Forall₂ Answers (ofInstrument Record.instrument name (accepted input))
      (ofInstrument Evaluation.instrument name final.output)
    rw [← (hdone name).1, ← (hdone name).2]
    refine List.rel_filter (fun record evaluation hanswers => ?_) h.answers
    simp only [hanswers.1]
  · obtain ⟨instrument, shard, hshard, hlost⟩ := hlost
    obtain ⟨hqueue, hpending, hstopped⟩ := hlookup instrument shard hshard
    rcases hlost with hlost | ⟨attempt, abort, hlost, -⟩
    · rw [hlost] at hstopped
      cases hstopped
    · rw [hlost] at hpending
      cases hpending

/-- Two shards want the same capital, and the one that was dispatched last is served first. -/
theorem schedules_linearise_of_overtaking :
    let config : Config :=
      { portfolio := { startingBalance := .ofInt64 150 }
        activation := { dollarVolume := 0.0 }
        composer := { minSignals := 1 } }
    let quote (name : String) : Record := .quote ⟨name, 0, 50, 49, 51, 0, 0⟩
    let trade (name : String) (second : Int) : Record := .trade ⟨name, second * 1000, .yes, 10, 51⟩
    let early : List Record := [quote "KXA", quote "KXB", quote ""] ++
      [1, 2, 3, 4].flatMap fun second => [trade "KXA" second, trade "KXB" second]
    ∃ shards final, ofConfig config = .ok shards ∧
      Relation.ReflTransGen Step (shards, early ++ [trade "KXA" 5, trade "KXB" 5]) (final, []) ∧
      (final.output.flatMap Evaluation.events).map (·.position.instrument) = ["KXB"] ∧
      ∃ order evaluations opened engine, Engine.ofConfig config = .ok opened ∧
        (Engine.processAll order).Yields opened evaluations engine ∧
        engine.account = final.account := by
  intro config quote trade early
  let fed (shards : ShardedEngine) := (feed early shards).state
  let taken (shards : ShardedEngine) := (dispatch (trade "KXA" 5) (fed shards)).state
  let started (shards : ShardedEngine) :=
    ((dispatch (trade "KXB" 5) (taken shards)).state.start "KXA").start "KXB"
  let served (shards : ShardedEngine) := ((started shards).consult "KXB").consult "KXA"
  let final (shards : ShardedEngine) := (send "KXB" (send "KXA" (served shards)).state).state
  have hrun : ∃ shards, ofConfig config = .ok shards ∧ (feed early shards).outcome = .ok true ∧
      (dispatch (trade "KXA" 5) (fed shards)).outcome = .ok true ∧
      (dispatch (trade "KXB" 5) (taken shards)).outcome = .ok true ∧ (final shards).Finished ∧
      ((final shards).output.flatMap Evaluation.events).map (·.position.instrument) = ["KXB"] :=
    exists_ok_of_any (by decide +kernel)
  obtain ⟨shards, hopen, hfed, hfirst, hsecond, hfinished, hevents⟩ := hrun
  have hsteps : Relation.ReflTransGen Step (shards, early ++ [trade "KXA" 5, trade "KXB" 5])
      (final shards, []) :=
    (feed_steps (yields_of_outcome hfed)).tail (.dispatch hfirst) |>.tail (.dispatch hsecond)
      |>.tail (.start _ _ "KXA") |>.tail (.start _ _ "KXB") |>.tail (.consult _ _ "KXB")
      |>.tail (.consult _ _ "KXA") |>.tail (.send _ _ "KXA") |>.tail (.send _ _ "KXB")
  obtain ⟨order, evaluations, opened, engine, -, -, hopened, hprocessed, -, haccount, -⟩ :=
    schedules_linearise hopen hsteps hfinished
  exact ⟨shards, final shards, hopen, hsteps, hevents, order, evaluations, opened, engine, hopened,
    hprocessed, haccount⟩

end ShardedEngine

end SignalDesk
