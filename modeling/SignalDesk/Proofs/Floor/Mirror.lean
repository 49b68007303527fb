import SignalDesk.Proofs.Correspondence
import SignalDesk.Proofs.Float.Negation
import SignalDesk.Proofs.Floor.Basic
import SignalDesk.Proofs.Tape.Mirror

/-!
# The floor in the mirror

Traders treat YES and NO alike. If every book is mirrored and every score is negated, the same calls
get the same answers on the other side, and the account goes through the same states.
-/

namespace SignalDesk

open FloatValue

def Position.mirror (position : Position) : Position :=
  { position with side := position.side.opposite }

def PositionEvent.mirror : PositionEvent → PositionEvent
  | opened position => opened position.mirror
  | closed position reason => closed position.mirror reason

private theorem Position.openAt_mirror (id : Uuid) (instrument : String) (side : Side) (price : Int64)
    (ts : Timestamp) (size : Decimal) :
    openAt id instrument side.opposite price ts size =
      (openAt id instrument side price ts size).map mirror := by
  unfold openAt
  cases contractsFor size price <;> rfl

def Composite.mirror (composite : Composite) : Composite :=
  { composite with score := -composite.score }

private theorem Composite.direction_mirror (composite : Composite) :
    composite.mirror.direction = composite.direction.map Side.opposite := by
  simp only [direction, mirror, zero_lt_neg_iff, neg_lt_zero_iff]
  by_cases hpos : 0.0 < composite.score
  · rw [if_neg (float_not_lt_of_le (float_le_of_lt hpos)), if_pos hpos, if_pos hpos]
    rfl
  · rw [if_neg hpos, if_neg hpos]
    split <;> rfl

namespace Trader

def mirror (trader : Trader) : Trader := { trader with held := trader.held.map Position.mirror }

def mirrorReply : Except Refusal (Option PositionEvent) → Except Refusal (Option PositionEvent) :=
  Except.map (Option.map PositionEvent.mirror)

def mirrorEntry (entry : Entry) : Entry := { entry with side := entry.side.opposite }

private theorem calledSide?_mirror (settings : PositionSettings) (composite : Composite) :
    calledSide? settings composite.mirror = (calledSide? settings composite).map Side.opposite := by
  simp only [calledSide?, Composite.direction_mirror]
  simp only [Composite.mirror, abs_float_neg]
  split <;> rfl

private theorem entryOn_mirror (trader : Trader) (side : Side) (quote : Option Quote) :
    trader.mirror.entryOn side.opposite (quote.map Quote.mirrorBook) =
      (trader.entryOn side quote).map mirrorEntry := by
  simp only [entryOn, mirror, Option.isSome_map]
  by_cases hheld : trader.held.isSome
  · rw [if_pos hheld, if_pos hheld]
    rfl
  · rw [if_neg hheld, if_neg hheld]
    cases quote with
    | none => rfl
    | some book =>
      simp only [Option.map_some, Quote.askFor_mirrorBook]
      split <;> rfl

/-- Work on a mirrored trader that mirrors the work on the trader. -/
abbrev MirrorPlan {α : Type} (image : α → α) (plan plan' : Plan Trader α) : Prop :=
  plan.Corresponds (fun trader trader' => trader' = trader.mirror) (fun a a' => a' = image a) plan'

private theorem closePlan_mirror (trader : Trader) (position : Position) (price : Int64)
    (ts : Timestamp) (reason : CloseReason) :
    MirrorPlan (Option.map PositionEvent.mirror) (trader.closePlan position price ts reason)
      (trader.mirror.closePlan position.mirror price ts reason) := by
  have hpnl : position.mirror.pnlAt price = position.pnlAt price := rfl
  simp only [closePlan, hpnl]
  cases position.pnlAt price with
  | error abort => exact .done ⟨.gaveUp abort, rfl⟩
  | ok pnl => exact .ask rfl fun halt => ⟨.ok rfl, rfl⟩

private theorem exitPlan_mirror (quote : Option Quote) (ts : Timestamp) (trader : Trader) :
    MirrorPlan (Option.map PositionEvent.mirror) (exitPlan quote ts trader)
      (exitPlan (quote.map Quote.mirrorBook) ts trader.mirror) := by
  cases hheld : trader.held with
  | none =>
    have hheld' : trader.mirror.held = none := by rw [mirror, hheld]; rfl
    rw [exitPlan, exitPlan, hheld, hheld']
    exact .done ⟨.ok rfl, rfl⟩
  | some position =>
    have hheld' : trader.mirror.held = some position.mirror := by rw [mirror, hheld]; rfl
    have hmark : (quote.map Quote.mirrorBook).map (fun book => book.bidFor position.mirror.side) =
        quote.map fun book => book.bidFor position.side := by
      rw [Option.map_map]
      exact Option.map_congr fun book _ => book.bidFor_mirrorBook position.side
    have hreason (mark : Option Int64) :
        trader.mirror.settings.exitReason? position.mirror mark ts =
          trader.settings.exitReason? position mark ts := rfl
    rw [exitPlan, exitPlan, hheld, hheld']
    simp only [hmark, hreason]
    cases trader.settings.exitReason? position (quote.map fun book => book.bidFor position.side) ts with
    | error abort => exact .done ⟨.gaveUp abort, rfl⟩
    | ok reason =>
      cases reason with
      | none => exact .done ⟨.ok rfl, rfl⟩
      | some reason => exact closePlan_mirror trader position _ ts reason

private theorem enter_mirror (composite : Composite) (entry : Entry) (trader : Trader) :
    (enter composite entry trader).Corresponds (fun trader trader' => trader' = trader.mirror)
      (fun reply reply' => reply' = mirrorReply reply)
      (enter composite.mirror (mirrorEntry entry) trader.mirror) := by
  simp only [enter, mirrorEntry, mirror, Composite.mirror, Position.openAt_mirror]
  cases Position.openAt _ trader.instrument entry.side entry.price composite.ts trader.tradeSize with
  | error abort => exact ⟨.gaveUp abort, rfl⟩
  | ok position => exact ⟨.ok rfl, rfl⟩

private theorem entryPlan_mirror (composite : Composite) (quote : Option Quote) (trader : Trader) :
    MirrorPlan mirrorReply (entryPlan composite quote trader)
      (entryPlan composite.mirror (quote.map Quote.mirrorBook) trader.mirror) := by
  have hcalled : calledSide? trader.mirror.settings composite.mirror =
      (calledSide? trader.settings composite).map Side.opposite := calledSide?_mirror _ _
  rw [entryPlan, entryPlan, hcalled]
  cases calledSide? trader.settings composite with
  | none => exact .done ⟨.ok rfl, rfl⟩
  | some side =>
    simp only [Option.map_some, entryOn_mirror]
    cases trader.entryOn side quote with
    | error refusal => exact .done ⟨.ok rfl, rfl⟩
    | ok entry =>
      refine .ask rfl fun reply => ?_
      cases reply with
      | error refusal => exact ⟨.ok rfl, rfl⟩
      | ok granted => exact enter_mirror composite entry trader

end Trader

namespace Call

def mirror : Call → Call
  | enter composite quote => enter composite.mirror (quote.map Quote.mirrorBook)
  | exit quote ts => exit (quote.map Quote.mirrorBook) ts

private theorem plan_mirror (call : Call) (trader : Trader) :
    Trader.MirrorPlan Trader.mirrorReply (call.plan trader) (call.mirror.plan trader.mirror) := by
  cases call with
  | enter composite quote => exact Trader.entryPlan_mirror composite quote trader
  | exit quote ts =>
    refine (Trader.exitPlan_mirror quote ts trader).andThen fun event event' t t' hevent ht => ?_
    subst hevent
    exact Attempt.corresponds_pure rfl ht

end Call

namespace Floor

def Move.mirror : Move → Move
  | .call seat work => .call seat work.mirror
  | .answer seat => .answer seat
  | .clearHalt => .clearHalt

def Report.mirror : Report → Report
  | answered seat outcome => answered seat (outcome.map Trader.mirrorReply)
  | cleared outcome => cleared outcome

end Floor

section

variable {α β : Type} {R : α → β → Prop} {as : List α} {bs : List β}

private theorem forall₂_getElem? (h : List.Forall₂ R as bs) (i : Nat) :
    Option.Rel R as[i]? bs[i]? := by
  induction h generalizing i with
  | nil => exact .none
  | cons hab hrest ih =>
    cases i with
    | zero => exact .some hab
    | succ i => exact ih i

private theorem forall₂_set (h : List.Forall₂ R as bs) {a : α} {b : β} (hab : R a b) (i : Nat) :
    List.Forall₂ R (as.set i a) (bs.set i b) := by
  induction h generalizing i with
  | nil => exact .nil
  | cons hfirst hrest ih =>
    cases i with
    | zero => exact .cons hab hrest
    | succ i => exact .cons hfirst (ih i)

end

/-- The trader of a seat mirrored, and at work on the mirror image of a call. -/
structure Seat.Mirrors (seat seat' : Seat) : Prop where
  trader : seat'.trader = seat.trader.mirror
  pending : Option.Rel (Trader.MirrorPlan Trader.mirrorReply) seat.pending seat'.pending

namespace Floor

/-- The same account, and a mirrored trader on every seat. -/
structure Mirrors (floor floor' : Floor) : Prop where
  seats : List.Forall₂ Seat.Mirrors floor.seats floor'.seats
  account : floor'.account = floor.account

variable {floor floor' : Floor}

theorem Mirrors.traders (h : floor.Mirrors floor') :
    floor'.traders = floor.traders.map Trader.mirror := by
  unfold Floor.traders
  rw [← List.forall₂_eq_eq_eq, List.map_map, List.forall₂_map_left_iff, List.forall₂_map_right_iff]
  exact h.seats.flip.imp fun _ _ hseat => hseat.trader

private theorem opening_mirrors (traders : List Trader) (account : Account) :
    (opening traders account).Mirrors (opening (traders.map Trader.mirror) account) := by
  refine ⟨?_, rfl⟩
  unfold opening
  simp only [List.map_map, List.forall₂_map_left_iff, List.forall₂_map_right_iff, List.forall₂_same]
  exact fun trader _ => ⟨rfl, .none⟩

theorem Mirrors.seat (h : floor.Mirrors floor') (i : Nat) :
    Option.Rel Seat.Mirrors floor.seats[i]? floor'.seats[i]? :=
  forall₂_getElem? h.seats i

theorem Mirrors.set (h : floor.Mirrors floor') (i : Nat) {seat seat' : Seat}
    (hseat : seat.Mirrors seat') {account account' : Account} (haccount : account' = account) :
    (⟨floor.seats.set i seat, account⟩ : Floor).Mirrors ⟨floor'.seats.set i seat', account'⟩ :=
  ⟨forall₂_set h.seats hseat i, haccount⟩

/-- A mirrored move keeps the mirror image and is reported as the mirror image of the move. -/
theorem Mirrors.step (h : floor.Mirrors floor') (move : Move) :
    (floor.step move).1.Mirrors (floor'.step move.mirror).1 ∧
      (floor'.step move.mirror).2 = (floor.step move).2.map Report.mirror := by
  cases move with
  | call i call =>
    have hseat := h.seat i
    simp only [Floor.step, Move.mirror]
    generalize floor.seats[i]? = seat? at hseat
    generalize floor'.seats[i]? = seat'? at hseat
    cases hseat with
    | none => exact ⟨h, rfl⟩
    | @some seat seat' hmirrors =>
      obtain ⟨trader, pending⟩ := seat
      obtain ⟨trader', pending'⟩ := seat'
      obtain ⟨htrader, hpending⟩ := hmirrors
      cases hpending with
      | some hplan => exact ⟨h, rfl⟩
      | none =>
        obtain rfl : trader' = trader.mirror := htrader
        exact ⟨h.set i ⟨rfl, .some (call.plan_mirror trader)⟩ h.account, rfl⟩
  | answer i =>
    have hseat := h.seat i
    simp only [Floor.step, Move.mirror]
    generalize floor.seats[i]? = seat? at hseat
    generalize floor'.seats[i]? = seat'? at hseat
    cases hseat with
    | none => exact ⟨h, rfl⟩
    | @some seat seat' hmirrors =>
      obtain ⟨trader, pending⟩ := seat
      obtain ⟨trader', pending'⟩ := seat'
      obtain ⟨htrader, hpending⟩ := hmirrors
      cases hpending with
      | none => exact ⟨h, rfl⟩
      | @some plan plan' hplan =>
        obtain ⟨hout, hstate, haccount⟩ := hplan.run trader trader' floor.account
        simp only [h.account]
        refine ⟨h.set i ⟨hstate, .none⟩ haccount, ?_⟩
        rw [Agree.map_iff.1 hout]
        rfl
  | clearHalt =>
    simp only [Floor.step, Move.mirror, h.account]
    exact ⟨⟨h.seats, rfl⟩, rfl⟩

theorem Mirrors.run (h : floor.Mirrors floor') (moves : List Move) :
    (floor.run moves).1.Mirrors (floor'.run (moves.map Move.mirror)).1 ∧
      (floor'.run (moves.map Move.mirror)).2 = (floor.run moves).2.map Report.mirror := by
  induction moves generalizing floor floor' with
  | nil => exact ⟨h, rfl⟩
  | cons move moves ih =>
    obtain ⟨hnext, hreport⟩ := h.step move
    obtain ⟨hlast, hreports⟩ := ih hnext
    refine ⟨hlast, ?_⟩
    simp only [List.map_cons, Floor.run, hreport, hreports, List.map_append]
    congr 1
    cases (floor.step move).2 <;> rfl

/-- While no position is held, the floor is its own mirror image. -/
theorem map_mirror_of_free {traders : List Trader} (hfree : ∀ trader ∈ traders, trader.held = none) :
    traders.map Trader.mirror = traders := by
  refine (List.map_congr_left fun trader htrader => ?_).trans (List.map_id traders)
  have hheld := hfree trader htrader
  cases trader
  simp only at hheld
  subst hheld
  rfl

/-- If no position is held at first, the mirrored calls are answered alike but for the side of every
position, and the account is the same. Both hold after each move, as the moves may end anywhere. -/
theorem mirrored_calls_mirror {traders : List Trader} (hfree : ∀ trader ∈ traders, trader.held = none)
    (account : Account) (moves : List Move) :
    let floor := (opening traders account).run moves
    let mirrored := (opening traders account).run (moves.map Move.mirror)
    mirrored.2 = floor.2.map Report.mirror ∧ mirrored.1.account = floor.1.account ∧
      mirrored.1.traders = floor.1.traders.map Trader.mirror := by
  intro floor mirrored
  have hopening : (opening traders account).Mirrors (opening traders account) := by
    have h := opening_mirrors traders account
    rwa [map_mirror_of_free hfree] at h
  obtain ⟨hmirrors, hreports⟩ := hopening.run moves
  exact ⟨hreports, hmirrors.account, hmirrors.traders⟩

/-- One trader loses on YES while another waits to buy; in the mirror both trade NO. -/
theorem mirrored_calls_mirror_of_loss :
    let traders := ["KXA", "KXB"].map fun instrument => Trader.idle instrument {} (.ofInt64 100)
    let composite : Composite := ⟨"KXA", 0, 0.5, 0.5, 2, true, []⟩
    let before : Quote := ⟨"KXA", 0, 49, 48, 50, 0, 0⟩
    let after : Quote := ⟨"KXA", 60000, 45, 44, 46, 0, 0⟩
    let moves : List Move := [.call 0 (.enter composite before), .answer 0,
      .call 1 (.enter composite before), .call 0 (.exit after 60000), .answer 0, .answer 1]
    let sides (floor : Floor) := floor.traders.map fun trader => trader.held.map Position.side
    ∃ account, Account.ofSettings {} = .ok account ∧
      let floor := (opening traders account).run moves
      let mirrored := (opening traders account).run (moves.map Move.mirror)
      sides floor.1 = [none, some .yes] ∧ sides mirrored.1 = [none, some .no] ∧
        floor.1.account ≠ account ∧ mirrored.1.account = floor.1.account ∧
        mirrored.2 = floor.2.map Report.mirror := by
  intro traders composite before after moves sides
  have hrun : ∃ account, Account.ofSettings {} = .ok account ∧
      let floor := (opening traders account).run moves
      let mirrored := (opening traders account).run (moves.map Move.mirror)
      sides floor.1 = [none, some .yes] ∧ sides mirrored.1 = [none, some .no] ∧
        floor.1.account ≠ account :=
    exists_ok_of_any (by decide +kernel)
  obtain ⟨account, hstart, hsides, hmirrored, hmoved⟩ := hrun
  have hfree : ∀ trader ∈ traders, trader.held = none := by simp [traders, Trader.idle]
  obtain ⟨hreports, hsame, -⟩ := mirrored_calls_mirror hfree account moves
  exact ⟨account, hstart, hsides, hmirrored, hmoved, hsame, hreports⟩

end Floor

end SignalDesk
