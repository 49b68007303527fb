import SignalDesk.Engine.Engine

/-!
# The sharded engine

Each instrument has a shard that works through its own queue. A shard may wait for the account while
others proceed; the account serves one request at a time, and it is all that shards share.
-/

namespace SignalDesk

structure Shard where
  desk : Desk
  queue : List Record
  /-- The record in progress, as far as it has come without the account. -/
  pending : Option (Plan Desk Evaluation)
  stopped : Bool

structure ShardedEngine where
  config : Config
  composer : Composer
  account : Account
  shards : Roster Shard
  output : List Evaluation

def maxQueueCapacity : Nat := UInt64.size / 8 - 1

def checkCapacity (capacity : UInt64) : Except Abort Unit :=
  if 0 < capacity.toNat ∧ capacity.toNat ≤ maxQueueCapacity then .ok () else .error .queueCapacity

namespace ShardedEngine

def ofConfig (config : Config) : Except Abort ShardedEngine := do
  checkCapacity config.engine.channelCapacity
  return {
    config
    composer := .ofConfig config
    account := ← Account.ofSettings config.portfolio
    shards := []
    output := [] }

def shard? (engine : ShardedEngine) (instrument : String) : Option Shard :=
  engine.shards.lookup instrument

def withShard (engine : ShardedEngine) (instrument : String) (shard : Shard) : ShardedEngine :=
  { engine with shards := engine.shards.put instrument shard }

def openShard (instrument : String) : Act ShardedEngine Shard := do
  let engine ← Act.get
  match engine.shard? instrument with
  | some shard => return shard
  | none =>
    Act.lift (checkCapacity engine.config.engine.channelCapacity)
    let desk ← Act.lift (Desk.ofConfig engine.composer engine.config instrument)
    let shard : Shard := ⟨desk, [], none, false⟩
    Act.set (engine.withShard instrument shard)
    Act.notify [.logging .debug .sharded "Spawning instrument shard"
      [("instrument", .text instrument)]]
    return shard

/-- Queues a record with the shard of its instrument; an invalid one is dropped. Answers whether the
record has been taken care of, which a shard that has stopped does not. -/
def dispatch (record : Record) : Act ShardedEngine Bool := do
  Act.notify (Engine.acceptance record)
  if record.isValid then
    let shard ← openShard record.instrument
    if shard.stopped then return false
    else
      Act.modify fun engine =>
        engine.withShard record.instrument { shard with queue := shard.queue ++ [record] }
      return true
  else return true

/-- Takes the next record of a shard as far as it goes without the account. -/
def start (engine : ShardedEngine) (instrument : String) : ShardedEngine :=
  match engine.shard? instrument with
  | some ⟨desk, record :: queue, none, false⟩ =>
    engine.withShard instrument
      ⟨desk, queue, some (desk.recordPlan engine.composer record), false⟩
  | _ => engine

/-- Has the account serve the record in progress of a shard. -/
def consult (engine : ShardedEngine) (instrument : String) : ShardedEngine :=
  match engine.shard? instrument with
  | some ⟨desk, queue, some plan, false⟩ =>
    let (attempt, account) := plan.consult engine.account
    { engine.withShard instrument ⟨desk, queue, some (.done attempt), false⟩ with account }
  | _ => engine

/-- Sends the evaluation of a record that does not wait for the account, or gives the shard up. -/
def send (instrument : String) : Act ShardedEngine Unit := fun engine =>
  match engine.shard? instrument with
  | some ⟨_, queue, some (.done ⟨.ok evaluation, desk, notices⟩), false⟩ =>
    ⟨.ok (), { engine.withShard instrument ⟨desk, queue, none, false⟩ with
      output := engine.output ++ [evaluation] }, notices⟩
  | some ⟨_, _, some (.done ⟨.error _, desk, notices⟩), false⟩ =>
    ⟨.ok (), engine.withShard instrument ⟨desk, [], none, true⟩, notices⟩
  | _ => ⟨.ok (), engine, []⟩

/-- Carries out the rest of the record in progress and sends its evaluation. -/
def finish (instrument : String) : Act ShardedEngine Unit := do
  Act.modify fun engine => engine.consult instrument
  send instrument

def serve (instrument : String) : Nat → Act ShardedEngine Unit
  | 0 => pure ()
  | count + 1 => do
    Act.modify fun engine => engine.start instrument
    finish instrument
    serve instrument count

/-- Dispatches records one after the other, each shard working as soon as it can. Answers whether
all of them have been taken care of. -/
def feed : List Record → Act ShardedEngine Bool
  | [] => pure true
  | record :: records => do
    if ← dispatch record then
      serve record.instrument 1
      feed records
    else return false

def hasStopped (engine : ShardedEngine) : Bool := engine.shards.any fun (_, shard) => shard.stopped

/-- Waits for the shards one after the other, up to the first that has given up. -/
def shutdown : Act ShardedEngine Bool := do
  let engine ← Act.get
  let finished := engine.shards.takeWhile fun (_, shard) => !shard.stopped
  Act.notify <| finished.map fun (instrument, _) =>
    .logging .debug .sharded "Shard stopped" [("instrument", .text instrument)]
  return !engine.hasStopped

end ShardedEngine

end SignalDesk
