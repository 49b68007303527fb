import Mathlib.Logic.Relation
import SignalDesk.Engine.Sharded
import SignalDesk.Proofs.Plan

/-!
# Schedules of the shards

A schedule dispatches the records of an input in order and lets the shards work in between, in any
order. A shard takes a record from its queue, has the account serve it and sends the evaluation, and
other shards may do anything between two of these steps. A queue takes any number of records here, so
the schedules of bounded queues are among these.
-/

namespace SignalDesk

namespace ShardedEngine

open Act

variable {engine : ShardedEngine} {instrument : String}

@[simp] theorem withShard_shard?_self (engine : ShardedEngine) (instrument : String) (shard : Shard) :
    (engine.withShard instrument shard).shard? instrument = some shard :=
  Roster.lookup_put_self _ _ _

theorem withShard_shard?_of_ne {name : String} (h : name ≠ instrument) (engine : ShardedEngine)
    (shard : Shard) : (engine.withShard instrument shard).shard? name = engine.shard? name :=
  Roster.lookup_put_of_ne h _ _

@[simp] theorem withShard_withShard (engine : ShardedEngine) (instrument : String)
    (first second : Shard) : (engine.withShard instrument first).withShard instrument second =
      engine.withShard instrument second := by
  simp [withShard]

/-- An engine and the records that are still to be dispatched. -/
abbrev Configuration : Type := ShardedEngine × List Record

/-- One step of a schedule. A record that is refused because its shard has given up ends it. -/
inductive Step : Configuration → Configuration → Prop
  | dispatch {engine : ShardedEngine} {record : Record} {input : List Record}
      (h : (dispatch record engine).outcome = .ok true) :
      Step (engine, record :: input) ((dispatch record engine).state, input)
  | start (engine : ShardedEngine) (input : List Record) (instrument : String) :
      Step (engine, input) (engine.start instrument, input)
  | consult (engine : ShardedEngine) (input : List Record) (instrument : String) :
      Step (engine, input) (engine.consult instrument, input)
  | send (engine : ShardedEngine) (input : List Record) (instrument : String) :
      Step (engine, input) ((send instrument engine).state, input)

private theorem openShard_yields {shard : Shard} {engine' : ShardedEngine}
    (h : (openShard instrument).Yields engine shard engine') :
    (engine.shard? instrument = some shard ∧ engine' = engine) ∨
      (engine.shard? instrument = none ∧ engine' = engine.withShard instrument shard ∧
        ∃ desk, Desk.ofConfig engine.composer engine.config instrument = .ok desk ∧
          shard = ⟨desk, [], none, false⟩) := by
  rw [openShard, yields_bind_iff] at h
  obtain ⟨_, _, hget, h⟩ := h
  obtain ⟨hsame, hsame'⟩ := yields_get_iff.1 hget
  rw [hsame, hsame'] at h
  cases hshard : engine.shard? instrument with
  | some old =>
    rw [hshard] at h
    obtain ⟨rfl, rfl⟩ := yields_pure_iff.1 h
    exact .inl ⟨rfl, rfl⟩
  | none =>
    simp only [hshard, yields_bind_iff, yields_lift_iff, yields_set_iff, yields_notify_iff,
      yields_pure_iff] at h
    obtain ⟨_, _, ⟨-, rfl⟩, desk, _, ⟨hdesk, rfl⟩, _, _, rfl, _, _, rfl, rfl, rfl⟩ := h
    exact .inr ⟨rfl, rfl, desk, hdesk, rfl⟩

/-- A dispatch that is taken care of appends a valid record to the queue of its shard, which may be
new, and drops an invalid one. -/
theorem dispatch_cases {record : Record} (h : (dispatch record engine).outcome = .ok true) :
    (record.isValid = false ∧ (dispatch record engine).state = engine) ∨
      (record.isValid = true ∧ ∃ desk queue pending,
        (dispatch record engine).state =
          engine.withShard record.instrument ⟨desk, queue ++ [record], pending, false⟩ ∧
        (engine.shard? record.instrument = some ⟨desk, queue, pending, false⟩ ∨
          engine.shard? record.instrument = none ∧ queue = [] ∧ pending = none ∧
            Desk.ofConfig engine.composer engine.config record.instrument = .ok desk)) := by
  have hyields := yields_of_outcome h
  generalize (dispatch record engine).state = engine' at hyields
  rw [dispatch, yields_bind_iff] at hyields
  obtain ⟨_, _, hnotify, hyields⟩ := hyields
  obtain rfl := yields_notify_iff.1 hnotify
  cases hvalid : record.isValid with
  | false =>
    rw [hvalid, if_neg (by decide)] at hyields
    exact .inl ⟨rfl, (yields_pure_iff.1 hyields).2⟩
  | true =>
    rw [hvalid, if_pos rfl, yields_bind_iff] at hyields
    obtain ⟨⟨desk, queue, pending, stopped⟩, opened, hopen, hyields⟩ := hyields
    cases stopped with
    | true =>
      rw [if_pos rfl] at hyields
      cases (yields_pure_iff.1 hyields).1
    | false =>
      rw [if_neg Bool.false_ne_true] at hyields
      simp only [yields_bind_iff, yields_modify_iff, yields_pure_iff] at hyields
      obtain ⟨_, _, rfl, -, rfl⟩ := hyields
      refine .inr ⟨rfl, desk, queue, pending, ?_⟩
      rcases openShard_yields hopen with ⟨hshard, rfl⟩ | ⟨hshard, rfl, desk', hdesk, hnew⟩
      · exact ⟨rfl, .inl hshard⟩
      · cases hnew
        exact ⟨withShard_withShard _ _ _ _, .inr ⟨hshard, rfl, rfl, hdesk⟩⟩

theorem start_cases (engine : ShardedEngine) (instrument : String) :
    engine.start instrument = engine ∨ ∃ desk record queue,
      engine.shard? instrument = some ⟨desk, record :: queue, none, false⟩ ∧
      engine.start instrument = engine.withShard instrument
        ⟨desk, queue, some (desk.recordPlan engine.composer record), false⟩ := by
  unfold start
  split
  · rename_i desk record queue hshard
    exact .inr ⟨desk, record, queue, hshard, rfl⟩
  · exact .inl rfl

def served (engine : ShardedEngine) (instrument : String) (desk : Desk) (queue : List Record)
    (plan : Plan Desk Evaluation) : ShardedEngine :=
  { engine.withShard instrument
      ⟨desk, queue, some (.done (plan.consult engine.account).1), false⟩ with
    account := (plan.consult engine.account).2 }

theorem consult_cases (engine : ShardedEngine) (instrument : String) :
    engine.consult instrument = engine ∨ ∃ desk queue plan,
      engine.shard? instrument = some ⟨desk, queue, some plan, false⟩ ∧
      engine.consult instrument = engine.served instrument desk queue plan := by
  unfold consult
  split
  · rename_i desk queue plan hshard
    exact .inr ⟨desk, queue, plan, hshard, rfl⟩
  · exact .inl rfl

theorem send_cases (engine : ShardedEngine) (instrument : String) :
    (send instrument engine).state = engine ∨ ∃ desk queue attempt,
      engine.shard? instrument = some ⟨desk, queue, some (.done attempt), false⟩ ∧
      ((∃ evaluation, attempt.outcome = .ok evaluation ∧ (send instrument engine).state =
          { engine.withShard instrument ⟨attempt.state, queue, none, false⟩ with
            output := engine.output ++ [evaluation] }) ∨
        ∃ abort, attempt.outcome = .error abort ∧ (send instrument engine).state =
          engine.withShard instrument ⟨attempt.state, [], none, true⟩) := by
  unfold send
  split
  · rename_i desk queue evaluation desk' notices hshard
    exact .inr ⟨desk, queue, _, hshard, .inl ⟨evaluation, rfl, rfl⟩⟩
  · rename_i desk queue abort desk' notices hshard
    exact .inr ⟨desk, queue, _, hshard, .inr ⟨abort, rfl, rfl⟩⟩
  · exact .inl rfl

end ShardedEngine

/-- The shard has given up or is about to. -/
def Shard.Lost (shard : Shard) : Prop :=
  shard.stopped = true ∨ ∃ attempt abort, shard.pending = some (.done attempt) ∧
    attempt.outcome = .error abort

namespace ShardedEngine

open Act

variable {engine : ShardedEngine} {instrument : String}

def Lost (engine : ShardedEngine) : Prop :=
  ∃ instrument shard, engine.shard? instrument = some shard ∧ shard.Lost

private theorem lost_withShard {shard : Shard} (h : engine.Lost)
    (hshard : ∀ old, engine.shard? instrument = some old → old.Lost → shard.Lost) :
    (engine.withShard instrument shard).Lost := by
  obtain ⟨name, old, hold, hlost⟩ := h
  by_cases hname : name = instrument
  · subst hname
    exact ⟨name, shard, withShard_shard?_self _ _ _, hshard old hold hlost⟩
  · exact ⟨name, old, by rw [withShard_shard?_of_ne hname, hold], hlost⟩

theorem step_lost {before after : Configuration} (hstep : Step before after)
    (h : before.1.Lost) : after.1.Lost := by
  cases hstep with
  | @dispatch engine record input hout =>
    rcases dispatch_cases hout with ⟨-, hsame⟩ | ⟨-, desk, queue, pending, hnext, hshard⟩
    · rwa [hsame]
    · rw [hnext]
      refine lost_withShard h fun old hold hlost => ?_
      rcases hshard with hshard | ⟨hshard, -⟩
      · rw [hshard] at hold
        cases hold
        exact hlost
      · rw [hshard] at hold
        cases hold
  | start engine input instrument =>
    rcases start_cases engine instrument with hsame | ⟨desk, record, queue, hshard, hnext⟩
    · rwa [hsame]
    · rw [hnext]
      refine lost_withShard h fun old hold hlost => ?_
      rw [hshard] at hold
      cases hold
      rcases hlost with hstopped | ⟨attempt, abort, hpending, -⟩
      · cases hstopped
      · cases hpending
  | consult engine input instrument =>
    rcases consult_cases engine instrument with hsame | ⟨desk, queue, plan, hshard, hnext⟩
    · rwa [hsame]
    · rw [hnext]
      refine lost_withShard h fun old hold hlost => ?_
      rw [hshard] at hold
      cases hold
      rcases hlost with hstopped | ⟨attempt, abort, hpending, hout⟩
      · cases hstopped
      · cases hpending
        exact .inr ⟨attempt, abort, rfl, hout⟩
  | send engine input instrument =>
    rcases send_cases engine instrument with hsame | ⟨desk, queue, attempt, hshard, hnext⟩
    · rwa [hsame]
    · rcases hnext with ⟨evaluation, hout, hnext⟩ | ⟨abort, -, hnext⟩
      · rw [hnext]
        refine lost_withShard h fun old hold hlost => ?_
        rw [hshard] at hold
        cases hold
        rcases hlost with hstopped | ⟨other, abort, hpending, herror⟩
        · cases hstopped
        · cases hpending
          rw [hout] at herror
          cases herror
      · rw [hnext]
        exact lost_withShard h fun _ _ _ => .inl rfl

/-- Feeding records is a schedule of any input that starts with them. -/
theorem feed_steps {records rest : List Record} {engine engine' : ShardedEngine}
    (h : (feed records).Yields engine true engine') :
    Relation.ReflTransGen Step (engine, records ++ rest) (engine', rest) := by
  induction records generalizing engine with
  | nil =>
    obtain ⟨-, rfl⟩ := yields_pure_iff.1 h
    exact .refl
  | cons record records ih =>
    rw [feed, yields_bind_iff] at h
    obtain ⟨taken, dispatched, hdispatch, h⟩ := h
    cases taken with
    | false =>
      rw [if_neg Bool.false_ne_true] at h
      cases (yields_pure_iff.1 h).1
    | true =>
      rw [if_pos rfl] at h
      simp only [serve, finish, yields_bind_iff, yields_modify_iff, yields_pure_iff] at h
      obtain ⟨_, _, ⟨_, _, rfl, _, served, ⟨_, _, rfl, hsend⟩, -, rfl⟩, hrest⟩ := h
      have hfirst : Step (engine, record :: (records ++ rest)) (dispatched, records ++ rest) := by
        rw [← hdispatch.2]
        exact .dispatch hdispatch.1
      refine .head hfirst (.head (.start _ _ record.instrument)
        (.head (.consult _ _ record.instrument) (.head (.send _ _ record.instrument) ?_)))
      rw [hsend.2]
      exact ih hrest

end ShardedEngine

end SignalDesk
