import SignalDesk.Proofs.Engine.Run

/-!
# The life of a position

The position events of an instrument take turns: a position is opened while none is held, and the next
event closes it. In between the desk of the instrument holds the position as it was opened.
-/

namespace SignalDesk

def PositionEvent.opened? : PositionEvent → Option Position
  | opened position => some position
  | closed _ _ => none

/-- What an exit at `ts` for a reason makes of an open position. -/
structure Position.Closes (entered : Position) (ts : Timestamp) (reason : CloseReason)
    (position : Position) : Prop where
  id : position.id = entered.id
  instrument : position.instrument = entered.instrument
  side : position.side = entered.side
  entryPrice : position.entryPrice = entered.entryPrice
  entryTs : position.entryTs = entered.entryTs
  size : position.size = entered.size
  contracts : position.contracts = entered.contracts
  status : position.status = .closed
  closeReason : position.closeReason = some reason
  exitTs : position.exitTs = some (.ofTimestamp ts)
  realizedPnl : ∃ price pnl, position.exitPrice = some price ∧
    position.pnlAt price = .ok pnl ∧ position.realizedPnl = some pnl

private theorem Position.closes_closedAt {entered : Position} {price : Int64} {pnl : Decimal}
    (h : entered.pnlAt price = .ok pnl) (ts : Timestamp) (reason : CloseReason) :
    entered.Closes ts reason (entered.closedAt price ts reason pnl) where
  id := rfl
  instrument := rfl
  side := rfl
  entryPrice := rfl
  entryTs := rfl
  size := rfl
  contracts := rfl
  status := rfl
  closeReason := rfl
  exitTs := rfl
  realizedPnl := ⟨price, pnl, rfl, h, rfl⟩

def eventsOf (instrument : String) (evaluations : List Evaluation) :
    List (Timestamp × PositionEvent) :=
  (evaluations.filter fun evaluation => evaluation.instrument == instrument).flatMap
    fun evaluation => evaluation.events.map fun event => (evaluation.ts, event)

private theorem eventsOf_concat (instrument : String) (evaluations : List Evaluation)
    (evaluation : Evaluation) : eventsOf instrument (evaluations ++ [evaluation]) =
      eventsOf instrument evaluations ++
        if evaluation.instrument = instrument then
          evaluation.events.map fun event => (evaluation.ts, event)
        else [] := by
  rw [eventsOf, List.filter_append, List.flatMap_append, eventsOf]
  by_cases h : evaluation.instrument = instrument <;> simp [h]

/-- The events of an instrument that holds `held` after them. -/
inductive Lifecycle : List (Timestamp × PositionEvent) → Option Position → Prop
  | unused : Lifecycle [] none
  | opened {history : List (Timestamp × PositionEvent)} {ts : Timestamp} {position : Position}
      (h : Lifecycle history none) (hopen : position.isOpen = true) :
      Lifecycle (history ++ [(ts, .opened position)]) (some position)
  | closed {history : List (Timestamp × PositionEvent)} {ts : Timestamp} {reason : CloseReason}
      {entered position : Position} (h : Lifecycle history (some entered))
      (hcloses : entered.Closes ts reason position) :
      Lifecycle (history ++ [(ts, .closed position reason)]) none

namespace Lifecycle

variable {history : List (Timestamp × PositionEvent)} {held : Option Position}

private theorem held_eq (h : Lifecycle history held) :
    held = history.getLast?.bind fun entry => entry.2.opened? := by
  cases h <;> simp [PositionEvent.opened?]

private theorem isOpen_of_held (h : Lifecycle history held) :
    ∀ position ∈ held, position.isOpen = true := by
  cases h <;> simp_all

private theorem getElem?_concat_cases {α : Type} {items : List α} {last a : α} {i : Nat}
    (h : (items ++ [last])[i]? = some a) :
    items[i]? = some a ∨ i = items.length ∧ a = last := by
  rcases Nat.lt_trichotomy i items.length with hlt | rfl | hgt
  · rw [List.getElem?_append_left hlt] at h
    exact .inl h
  · rw [List.getElem?_concat_length, Option.some.injEq] at h
    exact .inr ⟨rfl, h.symm⟩
  · rw [List.getElem?_eq_none (by simpa using Nat.succ_le_of_lt hgt)] at h
    cases h

/-- The first event opens a position, and so does every other one. -/
theorem alternates (h : Lifecycle history held) :
    (held.isSome = true ↔ history.length % 2 = 1) ∧ ∀ (i : Nat) (entry : Timestamp × PositionEvent),
      history[i]? = some entry → (entry.2.opened?.isSome = true ↔ i % 2 = 0) := by
  induction h with
  | unused => simp
  | opened h hopen ih =>
    obtain ⟨hparity, hevents⟩ := ih
    refine ⟨by simp at hparity ⊢; omega, fun i entry hentry => ?_⟩
    rcases getElem?_concat_cases hentry with hearlier | ⟨rfl, rfl⟩
    · exact hevents i entry hearlier
    · simp at hparity ⊢
      simpa [PositionEvent.opened?] using hparity
  | closed h hcloses ih =>
    obtain ⟨hparity, hevents⟩ := ih
    refine ⟨by simp at hparity ⊢; omega, fun i entry hentry => ?_⟩
    rcases getElem?_concat_cases hentry with hearlier | ⟨rfl, rfl⟩
    · exact hevents i entry hearlier
    · simp at hparity ⊢
      simp [PositionEvent.opened?, hparity]

/-- A close follows the opening of the position that it closes. -/
theorem closes (h : Lifecycle history held) (i : Nat) {ts : Timestamp} {position : Position}
    {reason : CloseReason} (hclosed : history[i + 1]? = some (ts, .closed position reason)) :
    ∃ entryTs entered, history[i]? = some (entryTs, .opened entered) ∧
      entered.Closes ts reason position := by
  induction h with
  | unused => cases hclosed
  | opened h hopen ih =>
    rcases getElem?_concat_cases hclosed with hearlier | ⟨-, hlast⟩
    · obtain ⟨entryTs, entered, hentry, hcloses⟩ := ih hearlier
      exact ⟨entryTs, entered, by grind, hcloses⟩
    · cases hlast
  | @closed history last reason' entered position' h hcloses ih =>
    rcases getElem?_concat_cases hclosed with hearlier | ⟨hi, hlast⟩
    · obtain ⟨entryTs, entered, hentry, hcloses⟩ := ih hearlier
      exact ⟨entryTs, entered, by grind, hcloses⟩
    · cases hlast
      have hheld := h.held_eq
      rw [List.getLast?_eq_getElem?, ← hi, Nat.add_sub_cancel, eq_comm,
        Option.bind_eq_some_iff] at hheld
      obtain ⟨⟨entryTs, event⟩, hentry, hopened⟩ := hheld
      cases event with
      | opened _ =>
        cases hopened
        exact ⟨entryTs, entered, by grind, hcloses⟩
      | closed _ _ => cases hopened

end Lifecycle

namespace Engine

def held? (engine : Engine) (instrument : String) : Option Position :=
  (engine.desk? instrument).bind fun desk => desk.trader.held

private theorem held?_of_deskFor {engine : Engine} {instrument : String} {desk : Desk}
    (h : engine.deskFor instrument = .ok desk) : engine.held? instrument = desk.trader.held := by
  rw [held?]
  rcases deskFor_cases h with hdesk | ⟨hnone, hopen⟩
  · rw [hdesk, Option.bind_some]
  · simp only [Desk.ofConfig, bind_ok_iff, pure_ok_iff] at hopen
    obtain ⟨_, -, _, -, _, -, rfl⟩ := hopen
    rw [hnone, Option.bind_none]
    rfl

private theorem withDesk_held?_self (engine : Engine) (instrument : String) (desk : Desk)
    (account : Account) : (engine.withDesk instrument desk account).held? instrument =
      desk.trader.held := by
  rw [held?, withDesk_desk?_self, Option.bind_some]

private theorem withDesk_held?_of_ne {instrument name : String} (h : name ≠ instrument)
    (engine : Engine) (desk : Desk) (account : Account) :
    (engine.withDesk instrument desk account).held? name = engine.held? name := by
  rw [held?, withDesk_desk?_of_ne h, held?]

/-- What is known of the desks and of the events after some evaluations. -/
structure Alive (evaluations : List Evaluation) (engine : Engine) : Prop where
  labelled : engine.Labelled
  atMostOne : ∀ evaluation ∈ evaluations, evaluation.events.length ≤ 1
  lifecycle : ∀ instrument, Lifecycle (eventsOf instrument evaluations) (engine.held? instrument)

theorem alive_of_start {config : Config} {engine : Engine} (h : ofConfig config = .ok engine) :
    Alive [] engine := by
  simp only [ofConfig, bind_ok_iff, pure_ok_iff] at h
  obtain ⟨account, -, rfl⟩ := h
  refine ⟨fun instrument desk hdesk => ?_, by simp, fun instrument => .unused⟩
  exact Desk.ofConfig_instrument hdesk

/-- One turn of a trader continues the life of its position. -/
theorem lifecycle_turn {trader trader' : Trader} {account account' : Account} {quote : Option Quote}
    {ts : Timestamp} {event : Option PositionEvent} {history : List (Timestamp × PositionEvent)}
    (h : Trader.Turn trader account quote ts event trader' account')
    (hlife : Lifecycle history trader.held) :
    Lifecycle (history ++ event.toList.map fun event => (ts, event)) trader'.held := by
  cases h with
  | idle => simpa using hlife
  | opened hfree hbook hprice hopen hreserve =>
    rw [hfree] at hlife
    refine hlife.opened ?_
    simp only [Position.openAt, bind_ok_iff, pure_ok_iff] at hopen
    obtain ⟨contracts, -, rfl⟩ := hopen
    rfl
  | closed hheld hprice hpnl hsettle =>
    rw [hheld] at hlife
    exact hlife.closed (Position.closes_closedAt hpnl ts _)

theorem Alive.step {evaluations : List Evaluation} {engine engine' : Engine} {command : Command}
    {evaluation? : Option Evaluation} (h : Alive evaluations engine)
    (hstep : Step engine command evaluation? engine') :
    Alive (evaluations ++ evaluation?.toList) engine' := by
  cases hstep with
  | dropped hnone => simpa using h
  | cleared hclear => simpa using ⟨h.labelled, h.atMostOne, h.lifecycle⟩
  | @worked text record desk desk' evaluation account hrecord hdesk hworked =>
    obtain ⟨event, hevents, hturn⟩ := hworked.turn
    have hlabel := h.labelled _ _ hdesk
    have hname : evaluation.instrument = record.instrument := hworked.instrument.trans hlabel
    refine ⟨h.labelled.withDesk ?_ account, ?_, fun instrument => ?_⟩
    · rw [hworked.tape]
      exact hlabel
    · simp only [Option.toList_some, List.mem_append, List.mem_singleton]
      rintro other (hother | rfl)
      · exact h.atMostOne other hother
      · rw [hevents]
        cases event <;> simp
    · rw [Option.toList_some, eventsOf_concat, hname]
      have hlife := h.lifecycle instrument
      by_cases hinstrument : record.instrument = instrument
      · subst hinstrument
        rw [held?_of_deskFor hdesk] at hlife
        rw [if_pos rfl, withDesk_held?_self, hevents, hworked.ts]
        exact lifecycle_turn hturn hlife
      · rw [if_neg hinstrument, List.append_nil, withDesk_held?_of_ne (Ne.symm hinstrument)]
        exact hlife

private theorem Run.alive {start engine : Engine} {commands : List Command}
    {evaluations : List Evaluation}
    (hrun : Run start commands evaluations engine) (h : Alive [] start) : Alive evaluations engine := by
  induction hrun with
  | nil => exact h
  | snoc hrun hstep ih => exact ih.step hstep

private theorem Run.evaluations_eq {start engine : Engine} {commands : List Command}
    {evaluations : List Evaluation} (hrun : Run start commands evaluations engine)
    (h : Alive [] start) : (evaluations.map fun evaluation => (evaluation.instrument, evaluation.ts)) =
      (commands.filterMap Command.record?).map fun record => (record.instrument, record.ts) := by
  induction hrun with
  | nil => rfl
  | snoc hrun hstep ih =>
    rw [List.map_append, List.filterMap_append, List.map_append, ih]
    congr 1
    cases hstep with
    | dropped hnone => simp [hnone]
    | cleared hclear => rfl
    | worked hrecord hdesk hworked =>
      have hlabel := (hrun.alive h).labelled _ _ hdesk
      simp [hrecord, hworked.instrument, hlabel, hworked.ts]

/-- The position events of an instrument strictly alternate, at most one for each record. A close
books the position of the opening before it, and the desk holds a position exactly after an opening. -/
theorem positions_alternate {config : Config} {engine engine' : Engine}
    (hstart : ofConfig config = .ok engine) {commands : List Command} {evaluations : List Evaluation}
    (hrun : (handleAll commands).Yields engine evaluations engine') (instrument : String) :
    let history := eventsOf instrument evaluations
    ((evaluations.map fun evaluation => (evaluation.instrument, evaluation.ts)) =
      (commands.filterMap Command.record?).map fun record => (record.instrument, record.ts)) ∧
    (∀ evaluation ∈ evaluations, evaluation.events.length ≤ 1) ∧
    (∀ (i : Nat) (entry : Timestamp × PositionEvent), history[i]? = some entry →
      (entry.2.opened?.isSome = true ↔ i % 2 = 0)) ∧
    (∀ (i : Nat) (ts : Timestamp) (position : Position) (reason : CloseReason),
      history[i + 1]? = some (ts, .closed position reason) →
        ∃ entryTs entered, history[i]? = some (entryTs, .opened entered) ∧
          entered.Closes ts reason position) ∧
    (engine'.held? instrument = history.getLast?.bind fun entry => entry.2.opened?) ∧
    ∀ position ∈ engine'.held? instrument, position.isOpen = true := by
  have hopening := alive_of_start hstart
  have halive := (handleAll_run hrun).alive hopening
  have hlife := halive.lifecycle instrument
  exact ⟨(handleAll_run hrun).evaluations_eq hopening, halive.atMostOne, hlife.alternates.2,
    fun i _ _ _ hclosed => hlife.closes i hclosed, hlife.held_eq, hlife.isOpen_of_held⟩

theorem positions_alternate_of_loss :
    let config : Config := {
      activation := { dollarVolume := 0.0 }
      composer := { minSignals := 1 }
      signals := { tradeImbalance := { minTrades := 1 } } }
    let commands : List Command := [
      .message "[\"quote\", \"RAIN\", 0, 50, 49, 51, 0, 0]",
      .message "[\"trade\", \"RAIN\", 1000, \"yes\", 100, 51]", .clearHalt,
      .message "[\"quote\", \"RAIN\", 2000, 40, 39, 41, 0, 0]", .message "RAIN"]
    ∃ engine evaluations engine', ofConfig config = .ok engine ∧
      (handleAll commands).Yields engine evaluations engine' ∧
      ∃ entryTs entered ts position reason,
        eventsOf "RAIN" evaluations = [(entryTs, .opened entered), (ts, .closed position reason)] ∧
        entered.Closes ts reason position ∧ engine'.held? "RAIN" = none := by
  intro config commands
  have hstart : ∃ engine, ofConfig config = .ok engine ∧
      (handleAll commands engine).outcome.toOption.any (fun evaluations =>
        (eventsOf "RAIN" evaluations).length = 2) = true := exists_ok_of_any (by decide +kernel)
  obtain ⟨engine, hstart, hrun⟩ := hstart
  obtain ⟨evaluations, hout, htwo⟩ := exists_ok_of_any hrun
  have hyields := Act.yields_of_outcome hout
  obtain ⟨-, -, halternate, hcloses, hheld, -⟩ := positions_alternate hstart hyields "RAIN"
  refine ⟨engine, evaluations, _, hstart, hyields, ?_⟩
  obtain ⟨⟨entryTs, first⟩, ⟨ts, second⟩, hhistory⟩ := List.length_eq_two.1 htwo
  rw [hhistory] at halternate hcloses hheld ⊢
  cases second with
  | opened position => exact absurd ((halternate 1 _ rfl).1 rfl) (by decide)
  | closed position reason =>
    obtain ⟨_, entered, hentry, hclose⟩ := hcloses 0 ts position reason rfl
    obtain ⟨rfl, rfl⟩ := Prod.mk.inj (Option.some.inj hentry)
    exact ⟨_, entered, ts, position, reason, rfl, hclose, hheld⟩

end Engine

end SignalDesk
