import SignalDesk.Proofs.Engine.Range
import SignalDesk.Proofs.Sharded.Linearization

/-!
# Shards that do not give up

Whatever the schedule, the shards do what the engine does on their records in some order. The engine
does not give up while its amounts stay in range, and so no shard does: none is lost, and every record
that is dispatched is taken care of.
-/

namespace SignalDesk

namespace ShardedEngine

open Act

variable {config : Config} {opened engine : Engine} {taken order : List Record}
  {shards : ShardedEngine} {evaluations : List Evaluation} {instrument : String}

/-- While a record waits for the account, the engine has processed fewer records than there are. -/
theorem Linearised.length_lt (h : Linearised opened taken shards order evaluations engine)
    {record : Record} {queue : List Record}
    (htaken : ofInstrument Record.instrument record.instrument (accepted taken) =
      ofInstrument Record.instrument record.instrument order ++ record :: queue) :
    order.length < taken.length := by
  have hsub : (order ++ [record]).Subperm (accepted taken) := by
    refine List.subperm_iff_count.2 fun a => ?_
    rw [List.count_append, ← count_ofInstrument Record.instrument a order,
      ← count_ofInstrument Record.instrument a (accepted taken)]
    by_cases hname : a.instrument = record.instrument
    · rw [hname, htaken, List.count_append]
      simp only [List.count_cons, List.count_nil]
      omega
    · obtain ⟨waiting, _, -, hwaiting, -⟩ := h.stage a.instrument
      have hne : a ≠ record := fun heq => hname (congrArg Record.instrument heq)
      rw [hwaiting, List.count_append, List.count_singleton, if_neg (by simpa using Ne.symm hne)]
      omega
  have hlength := hsub.length_le
  rw [List.length_append, List.length_singleton] at hlength
  exact hlength.trans (List.length_filter_le _ _)

private theorem Linearised.consult_ok (h : Linearised opened taken shards order evaluations engine)
    (hvalid : config.fault? = none) (hopened : opened.InReach config 0)
    (hm : config.Endures taken.length) {desk : Desk} {queue : List Record}
    {plan : Plan Desk Evaluation}
    (hshard : shards.shard? instrument = some ⟨desk, queue, some plan, false⟩) :
    ∃ evaluation, (plan.consult shards.account).1.outcome = .ok evaluation := by
  obtain ⟨waiting, unsent, hstage, htaken, -⟩ := h.stage instrument
  rw [hshard] at hstage
  cases hstage with
  | served hout hdesk hname => exact ⟨_, hout⟩
  | @asking _ _ record _ hdesk hplan =>
    obtain ⟨hrecord, rfl⟩ := accepted_of_waiting htaken
    have hreach := hopened.processAll hvalid h.processed
    rw [Nat.zero_add] at hreach
    obtain ⟨p, hlive, hp⟩ := hreach.account
    have htotal := Desk.recordPlan_total hvalid (hreach.sound.deskFor hdesk) hrecord hp
      (hm.mono hvalid (h.length_lt htaken))
    rw [← hlive, h.account, ← hreach.sound.sameComposer, hplan] at htotal
    exact total_iff.1 htotal

private theorem Linearised.not_failing (h : Linearised opened taken shards order evaluations engine)
    (hvalid : config.fault? = none) (hopened : opened.InReach config 0)
    (hm : config.Endures taken.length) : ¬ shards.Failing := by
  rintro ⟨instrument, desk, queue, plan, abort, hshard, herror⟩
  obtain ⟨evaluation, hout⟩ := h.consult_ok hvalid hopened hm hshard
  rw [herror] at hout
  cases hout

private theorem Linearised.not_stopped (h : Linearised opened taken shards order evaluations engine)
    {shard : Shard} (hshard : shards.shard? instrument = some shard) : shard.stopped = false := by
  obtain ⟨_, _, hstage, -, -⟩ := h.stage instrument
  rw [hshard] at hstage
  cases hstage <;> rfl

private theorem Linearised.not_lost (h : Linearised opened taken shards order evaluations engine)
    (hvalid : config.fault? = none) (hopened : opened.InReach config 0)
    (hm : config.Endures taken.length) : ¬ shards.Lost := by
  rintro ⟨instrument, ⟨desk, queue, pending, stopped⟩, hshard, hlost⟩
  obtain rfl : stopped = false := h.not_stopped hshard
  rcases hlost with hstopped | ⟨attempt, abort, hpending, herror⟩
  · cases hstopped
  · simp only at hpending
    subst hpending
    exact h.not_failing hvalid hopened hm ⟨instrument, desk, queue, _, abort, hshard, herror⟩

private theorem openShard_running (instrument : String) (hvalid : config.fault? = none)
    (hcapacity : checkCapacity config.engine.channelCapacity = .ok ())
    (hconfig : shards.config = config) (hcomposer : shards.composer = .ofConfig config)
    (hrunning : ∀ shard, shards.shard? instrument = some shard → shard.stopped = false) :
    ∃ shard shards', (openShard instrument).Yields shards shard shards' ∧ shard.stopped = false := by
  simp only [openShard, yields_bind_iff, yields_get_iff]
  cases hshard : shards.shard? instrument with
  | some shard =>
    refine ⟨shard, shards, ⟨shards, shards, ⟨rfl, rfl⟩, ?_⟩, hrunning shard hshard⟩
    rw [hshard]
    exact yields_pure_iff.2 ⟨rfl, rfl⟩
  | none =>
    obtain ⟨desk, hdesk⟩ : ∃ desk,
        Desk.ofConfig shards.composer shards.config instrument = .ok desk := by
      obtain ⟨_, _, -, -, -, -, hdesk⟩ := Desk.ofConfig_of_valid hvalid instrument
      rw [hcomposer, hconfig]
      exact ⟨_, hdesk⟩
    rw [← hconfig] at hcapacity
    refine ⟨⟨desk, [], none, false⟩, shards.withShard instrument ⟨desk, [], none, false⟩,
      ⟨shards, shards, ⟨rfl, rfl⟩, ?_⟩, rfl⟩
    simp only [hshard, yields_bind_iff, yields_lift_iff, yields_set_iff, yields_notify_iff,
      yields_pure_iff]
    exact ⟨(), shards, ⟨hcapacity, rfl⟩, desk, shards, ⟨hdesk, rfl⟩, (), _, rfl, (), _, rfl, rfl, rfl⟩

private theorem Linearised.dispatch_ok (h : Linearised opened taken shards order evaluations engine)
    (hvalid : config.fault? = none) (hsound : engine.Sound config)
    (hcapacity : checkCapacity config.engine.channelCapacity = .ok ()) (record : Record) :
    (dispatch record shards).outcome = .ok true := by
  have hconfig : shards.config = config := h.config.symm.trans hsound.sameConfig
  have hcomposer : shards.composer = .ofConfig config := h.composer.symm.trans hsound.sameComposer
  obtain ⟨shard, shards', hopen, hrunning⟩ := openShard_running record.instrument hvalid
    hcapacity hconfig hcomposer fun _ hshard => h.not_stopped hshard
  suffices hyields : ∃ final, Act.Yields (dispatch record) shards true final from
    hyields.elim fun _ hyields => hyields.1
  simp only [dispatch, yields_bind_iff, yields_notify_iff]
  cases record.isValid with
  | false => exact ⟨shards, (), shards, rfl, yields_pure_iff.2 ⟨rfl, rfl⟩⟩
  | true =>
    refine ⟨shards'.withShard record.instrument { shard with queue := shard.queue ++ [record] }, (),
      shards, rfl, ?_⟩
    rw [if_pos rfl, yields_bind_iff]
    refine ⟨shard, shards', hopen, ?_⟩
    rw [if_neg (by rw [hrunning]; exact Bool.false_ne_true)]
    simp only [yields_bind_iff, yields_modify_iff, yields_pure_iff]
    exact ⟨(), _, rfl, trivial, rfl⟩

private theorem step_explained_of_endures {input : List Record} {before after : Configuration}
    (hvalid : config.fault? = none) (hopened : opened.InReach config 0)
    (hm : config.Endures input.length) (hstep : Step before after)
    (h : Explained opened input before) : Explained opened input after := by
  refine (step_explained hstep h).resolve_right fun hfailing => ?_
  obtain ⟨taken, order, evaluations, engine, hinput, hlin⟩ := h
  refine hlin.not_failing hvalid hopened (hm.mono hvalid ?_) hfailing.1
  rw [hinput, List.length_append]
  exact Nat.le_add_right _ _

private theorem run_explained_of_endures {input : List Record} {before after : Configuration}
    (hvalid : config.fault? = none) (hopened : opened.InReach config 0)
    (hm : config.Endures input.length) (hrun : Relation.ReflTransGen Step before after)
    (h : Explained opened input before) : Explained opened input after := by
  induction hrun with
  | refl => exact h
  | tail _ hstep ih => exact step_explained_of_endures hvalid hopened hm hstep ih

end ShardedEngine

private theorem checkCapacity_of_le {config : Config} (hvalid : config.fault? = none)
    (h : config.engine.channelCapacity.toNat ≤ maxQueueCapacity) :
    checkCapacity config.engine.channelCapacity = .ok () :=
  if_pos ⟨Config.count_pos_of_mem hvalid "engine.channelCapacity" (by simp [Config.checks]), h⟩

namespace Config

open Act

/-- Apart from the capacity of queues and the range of amounts, a valid configuration leaves nothing to
be given up: queues, engines and shards can be made, the engine handles all commands and, under every
schedule, every record is taken care of and no shard gives up. -/
theorem nothing_given_up {config : Config} (hvalid : config.fault? = none)
    (hcapacity : config.engine.channelCapacity.toNat ≤ maxQueueCapacity) {count : Nat}
    (hm : config.Endures count) :
    checkCapacity config.engine.channelCapacity = .ok () ∧
    (∃ engine, Engine.ofConfig config = .ok engine ∧ ∀ commands : List Engine.Command,
      commands.length ≤ count →
        ∃ evaluations engine', (Engine.handleAll commands).Yields engine evaluations engine') ∧
    ∃ shards, ShardedEngine.ofConfig config = .ok shards ∧ ∀ input : List Record,
      input.length ≤ count → ∀ now : ShardedEngine.Configuration,
        Relation.ReflTransGen ShardedEngine.Step (shards, input) now → ¬ now.1.Lost ∧
          ∀ record rest, now.2 = record :: rest →
            (ShardedEngine.dispatch record now.1).outcome = .ok true := by
  have hqueue := checkCapacity_of_le hvalid hcapacity
  obtain ⟨engine, hengine, hreach⟩ := Engine.ofConfig_inReach hvalid
  refine ⟨hqueue, ⟨engine, hengine, fun commands hle => ?_⟩, ?_⟩
  · exact Engine.handleAll_total hvalid hreach (hm.mono hvalid (by omega))
  · obtain ⟨shards, hshards⟩ : ∃ shards, ShardedEngine.ofConfig config = .ok shards := by
      have hopen := hengine
      simp only [Engine.ofConfig, bind_ok_iff] at hopen
      obtain ⟨account, haccount, -⟩ := hopen
      rw [ShardedEngine.ofConfig, hqueue, haccount]
      exact ⟨_, rfl⟩
    refine ⟨shards, hshards, fun input hle now hrun => ?_⟩
    obtain ⟨opened, hopened, hinit⟩ := ShardedEngine.ofConfig_linearised hshards
    rw [hengine, Except.ok.injEq] at hopened
    subst hopened
    obtain ⟨taken, order, evaluations, last, hinput, hlin⟩ :=
      ShardedEngine.run_explained_of_endures hvalid hreach (hm.mono hvalid hle) hrun
        ⟨[], [], [], engine, rfl, hinit⟩
    have htaken : taken.length ≤ count := by
      rw [hinput, List.length_append] at hle
      omega
    exact ⟨hlin.not_lost hvalid hreach (hm.mono hvalid htaken), fun record rest _ =>
      hlin.dispatch_ok hvalid (hreach.processAll hvalid hlin.processed).sound hqueue record⟩

theorem nothing_given_up_of_defaults :
    let config : Config := {}
    config.fault? = none ∧ config.Endures (10 ^ 15) ∧ (∃ engine, Engine.ofConfig config = .ok engine ∧
      ∀ commands : List Engine.Command, commands.length ≤ 10 ^ 15 →
        ∃ evaluations engine', (Engine.handleAll commands).Yields engine evaluations engine') ∧
    ∃ shards, ShardedEngine.ofConfig config = .ok shards := by
  intro config
  have hvalid : config.fault? = none := by decide +kernel
  have hm : config.Endures (10 ^ 15) :=
    ⟨by norm_num, by decide +kernel, by decide +kernel⟩
  obtain ⟨-, hengine, shards, hshards, -⟩ := nothing_given_up hvalid (by decide) hm
  exact ⟨hvalid, hm, hengine, shards, hshards⟩

/-- The checks leave both open: a capacity for which no queue can be made, and a trade size of which a
hundred do not fit. -/
theorem given_up_although_valid :
    let queues : Config := { engine := { channelCapacity := 18446744073709551615 } }
    let amounts : Config := {
      portfolio := {
        startingBalance := ⟨false, 79228162514264337593543950335, 0, by decide, by decide⟩
        tradeSize := ⟨false, 79228162514264337593543950335, 0, by decide, by decide⟩ }
      activation := { dollarVolume := 0.0 }
      composer := { minSignals := 1 }
      signals := { tradeImbalance := { minTrades := 1 } } }
    let commands : List Engine.Command := [
      .message "[\"quote\", \"RAIN\", 0, 3, 2, 3, 0, 0]",
      .message "[\"trade\", \"RAIN\", 1000, \"yes\", 100, 3]"]
    (queues.fault? = none ∧ checkCapacity queues.engine.channelCapacity = .error .queueCapacity ∧
      ShardedEngine.ofConfig queues = .error .queueCapacity) ∧
    amounts.fault? = none ∧ ∃ engine, Engine.ofConfig amounts = .ok engine ∧
      ¬ (Engine.handleAll commands).Total engine := by
  intro queues amounts commands
  have hcapacity : checkCapacity queues.engine.channelCapacity = .error .queueCapacity := by
    decide
  have hrun : ∃ engine, Engine.ofConfig amounts = .ok engine ∧
      (Engine.handleAll commands engine).outcome.toOption.isNone = true :=
    exists_ok_of_any (by decide +kernel)
  obtain ⟨engine, hengine, hnone⟩ := hrun
  refine ⟨⟨by decide +kernel, hcapacity, ?_⟩, by decide +kernel, engine, hengine, fun htotal => ?_⟩
  · rw [ShardedEngine.ofConfig, hcapacity]
    rfl
  · obtain ⟨evaluations, hout⟩ := total_iff.1 htotal
    rw [hout] at hnone
    cases hnone

end Config

end SignalDesk
