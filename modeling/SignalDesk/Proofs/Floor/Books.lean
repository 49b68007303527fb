import Mathlib.Algebra.BigOperators.Group.List.Basic
import Mathlib.Algebra.Order.BigOperators.Group.List
import SignalDesk.Proofs.Config
import SignalDesk.Proofs.Floor.Basic

/-!
# The books of the account

The account is the result of the reported entries, exits and clears, in the order of their reports,
and of nothing else. It counts the open positions, and the capital it has committed is theirs as long
as no sum had to be rounded.
-/

namespace SignalDesk

namespace Floor

namespace Report

def isCompleted : Report → Bool
  | answered _ (.ok _) => true
  | cleared (.ok _) => true
  | _ => false

private theorem answered_isCompleted {i : Nat}
    {outcome : Except Abort (Except Refusal (Option PositionEvent))}
    (h : (answered i outcome).isCompleted = true) : ∃ reply, outcome = .ok reply := by
  cases outcome with
  | error abort => cases h
  | ok reply => exact ⟨reply, rfl⟩

private theorem cleared_isCompleted {outcome : Except Abort Unit}
    (h : (cleared outcome).isCompleted = true) : outcome = .ok () := by
  cases outcome with
  | error abort => cases h
  | ok _ => rfl

def movements : Report → List Movement
  | answered _ (.ok (.ok (some (.opened position)))) => [.reserve position.size]
  | answered _ (.ok (.ok (some (.closed position _)))) =>
    [.settle position.size (position.realizedPnl.getD .zero)]
  | answered _ _ => []
  | cleared _ => [.clearHalt]

end Report

def holding (traders : List Trader) : Nat := traders.countP fun trader => trader.held.isSome

def exposure (traders : List Trader) : ℚ :=
  (traders.map fun trader => trader.held.elim 0 fun position => position.size.toRat).sum

end Floor

/-- The movement's change of the committed capital, if it has one, is not rounded. -/
def Movement.CommitsExactly (p : Portfolio) : Movement → Prop
  | reserve size => ∀ committed, p.committed.add size = .ok committed →
      committed.toRat = p.committed.toRat + size.toRat
  | settle size _ => ∀ committed, p.committed.sub size = .ok committed →
      committed.toRat = p.committed.toRat - size.toRat
  | clearHalt => True

namespace Portfolio

open Act

/-- No movement of a run rounds the committed capital. -/
def CommitsExactly (p : Portfolio) : List Movement → Prop
  | [] => True
  | movement :: movements =>
    movement.CommitsExactly p ∧ (movement.act p).state.CommitsExactly movements

private theorem commitsExactly_append {before after : List Movement} {p q : Portfolio}
    (h : (replay before).Yields p () q) (hexact : p.CommitsExactly (before ++ after)) :
    p.CommitsExactly before ∧ q.CommitsExactly after := by
  induction before generalizing p with
  | nil =>
    obtain ⟨-, rfl⟩ := yields_pure_iff.1 h
    exact ⟨trivial, hexact⟩
  | cons movement before ih =>
    obtain ⟨-, hrest⟩ := replay_cons_yields h
    obtain ⟨hbefore, hafter⟩ := ih hrest hexact.2
    exact ⟨⟨hexact.1, hbefore⟩, hafter⟩

private theorem replay_one_yields {movement : Movement} {p q : Portfolio}
    (h : movement.act.Yields p () q) : (replay [movement]).Yields p () q := by
  rw [replay, yields_bind_iff]
  exact ⟨(), q, h, rfl, rfl⟩

end Portfolio

namespace Floor

open Act Portfolio

private theorem holding_split (before after : List Trader) (trader : Trader) :
    holding (before ++ trader :: after) =
      holding (before ++ after) + if trader.held.isSome then 1 else 0 := by
  simp only [holding, List.countP_append, List.countP_cons]
  omega

private theorem exposure_split (before after : List Trader) (trader : Trader) :
    exposure (before ++ trader :: after) =
      exposure (before ++ after) + trader.held.elim 0 fun position => position.size.toRat := by
  simp only [exposure, List.map_append, List.map_cons, List.sum_append, List.sum_cons]
  ring

private theorem exposure_nonneg {traders : List Trader}
    (h : ∀ trader ∈ traders, ∀ position ∈ trader.held, 0 ≤ position.size.toRat) :
    0 ≤ exposure traders := by
  refine List.sum_nonneg fun amount hamount => ?_
  obtain ⟨trader, htrader, rfl⟩ := List.mem_map.1 hamount
  cases hheld : trader.held with
  | none => exact le_rfl
  | some position => exact h trader htrader position hheld

def Sized (size : Decimal) (traders : List Trader) : Prop :=
  ∀ trader ∈ traders, trader.tradeSize = size ∧ ∀ position ∈ trader.held, position.size = size

private theorem sized_replace {size : Decimal} {before after : List Trader} {trader trader' : Trader}
    (h : Sized size (before ++ trader :: after))
    (hsame : trader'.tradeSize = size ∧ ∀ position ∈ trader'.held, position.size = size) :
    Sized size (before ++ trader' :: after) := by
  intro other hother
  simp only [List.mem_append, List.mem_cons] at hother
  rcases hother with hbefore | rfl | hafter
  · exact h other (by simp [hbefore])
  · exact hsame
  · exact h other (by simp [hafter])

private theorem exposure_nonneg_of_sized {size : Decimal} {before after : List Trader}
    {trader : Trader} (hsize : 0 ≤ size.toRat) (h : Sized size (before ++ trader :: after)) :
    0 ≤ exposure (before ++ after) := by
  refine exposure_nonneg fun other hother position hposition => ?_
  simp only [List.mem_append] at hother
  have hmem : other ∈ before ++ trader :: after := by
    simp only [List.mem_append, List.mem_cons]
    tauto
  rw [(h other hmem).2 position hposition]
  exact hsize

private theorem movements_of_idle {reply : Except Refusal (Option PositionEvent)}
    (h : ∀ event, reply ≠ .ok (some event)) (i : Nat) :
    (Report.answered i (.ok reply)).movements = [] := by
  cases reply with
  | error refusal => rfl
  | ok event =>
    cases event with
    | none => rfl
    | some event => exact absurd rfl (h event)

private theorem reserve_books {p q : Portfolio} {size : Decimal} {reply : Except Refusal Unit}
    (h : (reserve size).Yields p reply q) (hreply : reply = .ok ()) :
    q.openPositions = p.openPositions + 1 ∧ (Movement.reserve size).act.Yields p () q ∧
      ((Movement.reserve size).CommitsExactly p →
        q.committed.toRat = p.committed.toRat + size.toRat) := by
  have hact : (Movement.reserve size).act.Yields p () q := by
    rw [Movement.act, yields_bind_iff]
    exact ⟨reply, q, h, rfl, rfl⟩
  rcases reserve_yields h with ⟨⟨refusal, herror⟩, -⟩ | ⟨-, -, -, -, committed, hadd, rfl⟩
  · rw [herror] at hreply
    cases hreply
  · exact ⟨rfl, hact, fun hexact => hexact committed hadd⟩

private theorem settle_books {p q : Portfolio} {size pnl : Decimal} {halt : Option HaltReason}
    (h : (settle size pnl).Yields p halt q) :
    q.openPositions = p.openPositions - 1 ∧ (Movement.settle size pnl).act.Yields p () q ∧
      ((Movement.settle size pnl).CommitsExactly p → size.toRat ≤ p.committed.toRat →
        q.committed.toRat = p.committed.toRat - size.toRat) := by
  have hact : (Movement.settle size pnl).act.Yields p () q := by
    rw [Movement.act, yields_bind_iff]
    exact ⟨halt, q, h, rfl, rfl⟩
  obtain ⟨booked, tripped, hbook, -, rfl, -, -⟩ := settle_yields h
  obtain ⟨committed, balance, realizedPnl, hsub, -, -, rfl⟩ := book_ok hbook
  refine ⟨rfl, hact, fun hexact hle => ?_⟩
  have hvalue := hexact committed hsub
  change (committed.max .zero).toRat = _
  rw [Decimal.toRat_max, Decimal.toRat_zero, hvalue]
  exact max_eq_left (sub_nonneg.2 hle)

private theorem answered_books {size : Decimal} (hsize : 0 ≤ size.toRat)
    {before after : List Trader} {trader trader' : Trader} {p : Portfolio} {account : Account}
    {reply : Except Refusal (Option PositionEvent)} (i : Nat)
    (hcount : p.openPositions = holding (before ++ trader :: after))
    (hsized : Sized size (before ++ trader :: after))
    (h : Call.Answered trader (.live p) reply trader' account) :
    ∃ q, account = .live q ∧ q.openPositions = holding (before ++ trader' :: after) ∧
      Sized size (before ++ trader' :: after) ∧
      (replay (Report.answered i (.ok reply)).movements).Yields p () q ∧
      (p.CommitsExactly (Report.answered i (.ok reply)).movements →
        p.committed.toRat = exposure (before ++ trader :: after) →
        q.committed.toRat = exposure (before ++ trader' :: after)) := by
  have hown := hsized trader (by simp)
  cases h with
  | idle hreply =>
    rw [movements_of_idle hreply]
    exact ⟨p, rfl, hcount, hsized, ⟨rfl, rfl⟩, fun _ hcommitted => hcommitted⟩
  | @opened position _ hfree hposition hreserve =>
    obtain ⟨q, hlive, rfl⟩ := Account.within_live_yields hreserve
    obtain ⟨hopen, hact, hexact⟩ := reserve_books hlive rfl
    have hmovements : (Report.answered i (.ok (.ok (some (.opened position))))).movements =
        [.reserve trader.tradeSize] := by rw [Report.movements, hposition]
    rw [hmovements]
    refine ⟨q, rfl, ?_, sized_replace hsized ⟨hown.1, ?_⟩, replay_one_yields hact, ?_⟩
    · rw [hopen, hcount, holding_split, holding_split, hfree]
      rfl
    · rintro _ ⟨rfl⟩
      exact hposition.trans hown.1
    · intro hexactly hcommitted
      rw [hexact hexactly.1, hcommitted, exposure_split, exposure_split, hfree, ← hposition]
      simp
  | @closed held position reason pnl halt _ hheld hposition hpnl hsettle =>
    obtain ⟨q, hlive, rfl⟩ := Account.within_live_yields hsettle
    obtain ⟨hopen, hact, hexact⟩ := settle_books hlive
    have hmovements : (Report.answered i (.ok (.ok (some (.closed position reason))))).movements =
        [.settle held.size pnl] := by rw [Report.movements, hposition, hpnl, Option.getD_some]
    rw [hmovements]
    refine ⟨q, rfl, ?_, sized_replace hsized ⟨hown.1, ?_⟩, replay_one_yields hact, ?_⟩
    · rw [hopen, hcount, holding_split, holding_split, hheld]
      rfl
    · rintro _ ⟨⟩
    · intro hexactly hcommitted
      have hrest := exposure_nonneg_of_sized hsize hsized
      rw [exposure_split, hheld, Option.elim_some] at hcommitted
      rw [hexact hexactly.1 (by linarith), hcommitted, exposure_split]
      simp

/-- The books of a floor of which nothing has been given up. -/
structure Balanced (size : Decimal) (floor : Floor) (p : Portfolio) : Prop where
  account : floor.account = .live p
  fresh : floor.PendingFresh
  openPositions : p.openPositions = holding floor.traders
  sized : Sized size floor.traders

/-- A move changes the books by what is reported of it. -/
theorem step_books {size : Decimal} (hsize : 0 ≤ size.toRat) {floor : Floor} {p : Portfolio}
    (h : Balanced size floor p) (move : Move)
    (hdone : ∀ report ∈ (floor.step move).2, report.isCompleted) :
    let movements := (floor.step move).2.toList.flatMap Report.movements
    ∃ q, Balanced size (floor.step move).1 q ∧ (replay movements).Yields p () q ∧
      (p.CommitsExactly movements → p.committed.toRat = exposure floor.traders →
        q.committed.toRat = exposure (floor.step move).1.traders) := by
  have hfresh := step_pendingFresh h.fresh move
  cases hreport : (floor.step move).2 with
  | none =>
    have hsame := step_silent hreport
    refine ⟨p, ⟨hsame.1.trans h.account, hfresh, ?_, ?_⟩, ⟨rfl, rfl⟩, fun _ hcommitted => ?_⟩
    · rw [hsame.2]
      exact h.openPositions
    · rw [hsame.2]
      exact h.sized
    · rw [hsame.2]
      exact hcommitted
  | some report =>
    have hcompleted := hdone report hreport
    cases report with
    | answered i outcome =>
      obtain ⟨reply, rfl⟩ := Report.answered_isCompleted hcompleted
      obtain ⟨seat, trader, account, hseat, hanswered, hnext⟩ := step_answered h.fresh hreport
      obtain ⟨before, after, hold, hnew⟩ := set_traders hseat ⟨trader, none⟩ account
      rw [h.account] at hanswered
      obtain ⟨q, hlive, hcount, hsized, hreplay, hexact⟩ :=
        answered_books hsize i (hold ▸ h.openPositions) (hold ▸ h.sized) hanswered
      rw [hnext] at hfresh ⊢
      rw [hnew]
      simp only [Option.toList_some, List.flatMap_singleton]
      refine ⟨q, ⟨hlive, hfresh, ?_, ?_⟩, hreplay, ?_⟩
      · rw [hnew]
        exact hcount
      · rw [hnew]
        exact hsized
      · rw [hold]
        exact hexact
    | cleared outcome =>
      obtain ⟨hclear, hnext⟩ := step_cleared hreport
      have hyields : Act.Yields Account.clearHalt (.live p) () (floor.step move).1.account := by
        rw [hnext, ← h.account]
        exact ⟨hclear.symm.trans (Report.cleared_isCompleted hcompleted), rfl⟩
      obtain ⟨q, hact, hlive⟩ := Account.clearHalt_live_yields hyields
      have hq := (clearHalt_yields hact).1
      have htraders : (floor.step move).1.traders = floor.traders := by rw [hnext]; rfl
      simp only [Option.toList_some, List.flatMap_singleton, Report.movements]
      refine ⟨q, ⟨hlive, hfresh, ?_, ?_⟩, replay_one_yields hact, fun _ hcommitted => ?_⟩
      · rw [htraders, hq]
        exact h.openPositions
      · rw [htraders]
        exact h.sized
      · rw [htraders, hq]
        exact hcommitted

/-- The books agree with the reports of a whole run. -/
theorem run_books {size : Decimal} (hsize : 0 ≤ size.toRat) {floor : Floor} {p : Portfolio}
    (h : Balanced size floor p) (moves : List Move)
    (hdone : ∀ report ∈ (floor.run moves).2, report.isCompleted) :
    let movements := (floor.run moves).2.flatMap Report.movements
    ∃ q, Balanced size (floor.run moves).1 q ∧ (replay movements).Yields p () q ∧
      (p.CommitsExactly movements → p.committed.toRat = exposure floor.traders →
        q.committed.toRat = exposure (floor.run moves).1.traders) := by
  -- the books after the first move are the start of the rest of the run
  induction moves generalizing floor p with
  | nil => exact ⟨p, h, ⟨rfl, rfl⟩, fun _ hcommitted => hcommitted⟩
  | cons move moves ih =>
    simp only [run, List.mem_append, Option.mem_toList] at hdone
    obtain ⟨r, hnext, hfirst, hexact⟩ :=
      step_books hsize h move fun report hreport => hdone report (.inl hreport)
    obtain ⟨q, hlast, hrest, hexact'⟩ := ih hnext fun report hreport => hdone report (.inr hreport)
    simp only [run, List.flatMap_append]
    refine ⟨q, hlast, replay_append_yields_iff.2 ?_, fun hexactly hcommitted => ?_⟩
    · rw [hfirst.2]
      exact ⟨hfirst, hrest⟩
    · obtain ⟨hbefore, hafter⟩ := commitsExactly_append hfirst hexactly
      exact hexact' hafter (hexact hbefore hcommitted)

/-- On a floor of traders that start without positions under a valid configuration, the account is at
any moment the start with the reported entries, exits and clears carried out in the order of their
reports, as long as nothing has been given up. It counts the positions held, and if no sum was rounded
it has committed the capital in them. -/
theorem account_agrees_with_reports {config : Config} (hvalid : config.fault? = none)
    {start : Portfolio} (hstart : Portfolio.ofSettings config.portfolio = .ok start)
    (instruments : List String) (moves : List Move) :
    let traders := instruments.map fun instrument =>
      Trader.idle instrument config.positions config.portfolio.tradeSize
    let now := ((opening traders (.live start)).run moves).1
    let reports := ((opening traders (.live start)).run moves).2
    (∀ report ∈ reports, report.isCompleted) → ∃ p, now.account = .live p ∧
      p.openPositions = holding now.traders ∧
      (replay (reports.flatMap Report.movements)).Yields start () p ∧
      (start.CommitsExactly (reports.flatMap Report.movements) →
        p.committed.toRat = exposure now.traders) := by
  intro traders now reports hdone
  obtain ⟨limit, -, hinit⟩ := ofSettings_ok hstart
  have hidle : ∀ trader ∈ traders, trader.held = none ∧
      trader.tradeSize = config.portfolio.tradeSize := by
    intro trader htrader
    obtain ⟨instrument, -, rfl⟩ := List.mem_map.1 htrader
    exact ⟨rfl, rfl⟩
  have hholding : holding traders = 0 := by
    refine List.countP_eq_zero.2 fun trader htrader => ?_
    rw [(hidle trader htrader).1]
    exact Bool.false_ne_true
  have hexposure : exposure traders = 0 := by
    refine List.sum_eq_zero fun amount hamount => ?_
    obtain ⟨trader, htrader, rfl⟩ := List.mem_map.1 hamount
    rw [(hidle trader htrader).1]
    rfl
  have hbalanced : Balanced config.portfolio.tradeSize (opening traders (.live start)) start := by
    refine ⟨rfl, opening_pendingFresh _ _, ?_, ?_⟩
    · rw [opening_traders, hholding, hinit]
    · rw [opening_traders]
      intro trader htrader
      refine ⟨(hidle trader htrader).2, fun position hposition => ?_⟩
      rw [(hidle trader htrader).1] at hposition
      cases hposition
  obtain ⟨p, hnow, hreplay, hexact⟩ :=
    run_books (Config.tradeSize_pos hvalid).le hbalanced moves hdone
  refine ⟨p, hnow.account, hnow.openPositions, hreplay, fun hexactly => hexact hexactly ?_⟩
  rw [opening_traders, hexposure, hinit, Decimal.toRat_zero]

/-- Two traders enter, a clear comes between the call for an exit and its answer, and one position
is left. -/
theorem account_agrees_with_reports_of_two_traders :
    let traders := ["KXA", "KXB"].map fun instrument =>
      Trader.idle instrument {} (.ofInt64 100)
    let composite : Composite := ⟨"KXA", 0, 0.5, 0.5, 2, true, []⟩
    let before : Quote := ⟨"KXA", 0, 49, 48, 50, 0, 0⟩
    let after : Quote := ⟨"KXA", 60000, 57, 56, 58, 0, 0⟩
    let moves : List Move := [.call 0 (.enter composite before), .call 1 (.enter composite before),
      .answer 1, .answer 0, .call 0 (.exit after 60000), .clearHalt, .answer 0]
    ∃ start p, Portfolio.ofSettings {} = .ok start ∧
      ((opening traders (.live start)).run moves).1.account = .live p ∧ p.openPositions = 1 := by
  intro traders composite before after moves
  have hrun : ∃ start, Portfolio.ofSettings {} = .ok start ∧
      (∀ report ∈ ((opening traders (.live start)).run moves).2, report.isCompleted) ∧
      holding ((opening traders (.live start)).run moves).1.traders = 1 :=
    exists_ok_of_any (by decide +kernel)
  obtain ⟨start, hstart, hcompleted, hholding⟩ := hrun
  have hvalid : ({} : Config).fault? = none := Option.isNone_iff_eq_none.1 (by decide +kernel)
  obtain ⟨p, hlive, hopen, -, -⟩ :=
    account_agrees_with_reports hvalid hstart ["KXA", "KXB"] moves hcompleted
  exact ⟨start, p, hstart, hlive, hopen.trans hholding⟩

end Floor

end SignalDesk
