import Mathlib.Data.List.DropRight
import SignalDesk.Proofs.Act
import SignalDesk.Risk.Portfolio

/-!
# Movements of capital

The three operations of a portfolio, each with the one thing it can do when it is not given up, and
runs of them.
-/

namespace SignalDesk

namespace Portfolio

open Act

theorem ofSettings_ok {settings : PortfolioSettings} {start : Portfolio}
    (h : ofSettings settings = .ok start) :
    ∃ limit, settings.drawdownHaltPercent.div .hundred = .ok limit ∧
      start = {
        startingBalance := settings.startingBalance
        balance := settings.startingBalance
        peakBalance := settings.startingBalance
        realizedPnl := .zero
        openPositions := 0
        committed := .zero
        haltedForDrawdown := false
        haltBasis := settings.startingBalance
        maxDrawdown := limit } := by
  simp only [ofSettings, bind_ok_iff, pure_ok_iff] at h
  obtain ⟨limit, hlimit, rfl⟩ := h
  exact ⟨limit, hlimit, rfl⟩

private theorem publish_yields {p p' : Portfolio} {a : Unit} (h : publish.Yields p a p') :
    p' = p ∧ ∃ loss, p.drawdown = .ok loss := by
  simp only [publish, yields_bind_iff, yields_get_iff, yields_notify_iff, yields_lift_iff] at h
  obtain ⟨_, _, ⟨rfl, rfl⟩, _, _, rfl, percent, _, ⟨hd, rfl⟩, _, _, rfl, halt, _, ⟨-, rfl⟩, rfl⟩ := h
  refine ⟨rfl, ?_⟩
  cases hloss : p'.drawdown with
  | error abort =>
    rw [hloss] at hd
    cases hd
  | ok loss => exact ⟨loss, rfl⟩

/-- A granted reservation commits the capital; a refused one leaves everything as it was. -/
theorem reserve_yields {size : Decimal} {p p' : Portfolio} {reply : Except Refusal Unit}
    (h : (reserve size).Yields p reply p') :
    ((∃ refusal, reply = .error refusal) ∧ p' = p) ∨
      (reply = .ok () ∧ p.haltReason? = .ok none ∧
        (∃ available, p.available = .ok available ∧ ¬ available < size) ∧
        (∃ loss, p'.drawdown = .ok loss) ∧ ∃ committed, p.committed.add size = .ok committed ∧
          p' = { p with committed, openPositions := p.openPositions + 1 }) := by
  simp only [reserve, yields_bind_iff, yields_get_iff, yields_lift_iff] at h
  obtain ⟨_, _, ⟨rfl, rfl⟩, halt, _, ⟨hhalt, rfl⟩, h⟩ := h
  cases halt with
  | some reason =>
    rw [yields_pure_iff] at h
    exact .inl ⟨⟨_, h.1⟩, h.2⟩
  | none =>
    simp only [yields_bind_iff, yields_lift_iff] at h
    obtain ⟨available, _, ⟨havailable, rfl⟩, h⟩ := h
    split at h
    · rw [yields_pure_iff] at h
      exact .inl ⟨⟨_, h.1⟩, h.2⟩
    · rename_i hshort
      simp only [yields_bind_iff, yields_lift_iff, yields_set_iff, yields_pure_iff] at h
      obtain ⟨committed, _, ⟨hadd, rfl⟩, _, _, rfl, _, _, hpub, rfl, rfl⟩ := h
      obtain ⟨rfl, hloss⟩ := publish_yields hpub
      exact .inr ⟨rfl, hhalt, ⟨available, havailable, hshort⟩, hloss, committed, hadd, rfl⟩

theorem reserve_refused {size : Decimal} {p p' : Portfolio} {refusal : Refusal}
    (h : (reserve size).Yields p (.error refusal) p') :
    (∃ reason, p.haltReason? = .ok (some reason) ∧ refusal = .tradingHalted reason) ∨
      ∃ available, p.available = .ok available ∧ available < size ∧
        refusal = .insufficientCapital size available := by
  simp only [reserve, yields_bind_iff, yields_get_iff, yields_lift_iff] at h
  obtain ⟨_, _, ⟨rfl, rfl⟩, halt, _, ⟨hhalt, rfl⟩, h⟩ := h
  cases halt with
  | some reason =>
    obtain ⟨hrefusal, -⟩ := yields_pure_iff.1 h
    exact .inl ⟨reason, hhalt, Except.error.inj hrefusal⟩
  | none =>
    simp only [yields_bind_iff, yields_lift_iff] at h
    obtain ⟨available, _, ⟨havailable, rfl⟩, h⟩ := h
    split at h
    · rename_i hshort
      obtain ⟨hrefusal, -⟩ := yields_pure_iff.1 h
      exact .inr ⟨available, havailable, hshort, Except.error.inj hrefusal⟩
    · simp only [yields_bind_iff, yields_pure_iff] at h
      obtain ⟨_, _, -, _, _, -, _, _, -, hok, -⟩ := h
      cases hok

theorem book_ok {size pnl : Decimal} {p q : Portfolio} (h : p.book size pnl = .ok q) :
    ∃ committed balance realizedPnl, p.committed.sub size = .ok committed ∧
      p.balance.add pnl = .ok balance ∧ p.realizedPnl.add pnl = .ok realizedPnl ∧
      q = { p with
        committed := committed.max .zero
        openPositions := p.openPositions - 1
        balance, realizedPnl
        peakBalance := p.peakBalance.max balance
        haltBasis := p.haltBasis.max balance } := by
  simp only [book, bind_ok_iff, pure_ok_iff] at h
  obtain ⟨committed, hc, balance, hb, realizedPnl, hr, rfl⟩ := h
  exact ⟨committed, balance, realizedPnl, hc, hb, hr, rfl⟩

/-- A settlement books the close, trips the halt if the loss calls for it and tells why if it did. -/
theorem settle_yields {size pnl : Decimal} {p p' : Portfolio} {reply : Option HaltReason}
    (h : (settle size pnl).Yields p reply p') :
    ∃ booked tripped, p.book size pnl = .ok booked ∧ booked.trips = .ok tripped ∧
      p' = { booked with haltedForDrawdown := booked.haltedForDrawdown || tripped } ∧
      (∃ loss, p'.drawdown = .ok loss) ∧
      if tripped then p'.haltReason? = .ok reply else reply = none := by
  simp only [settle, yields_bind_iff, yields_get_iff, yields_lift_iff, yields_set_iff] at h
  obtain ⟨_, _, ⟨rfl, rfl⟩, booked, _, ⟨hbook, rfl⟩, tripped, _, ⟨htrips, rfl⟩, _, _, rfl,
    _, _, hpub, h⟩ := h
  obtain ⟨rfl, hloss⟩ := publish_yields hpub
  refine ⟨booked, tripped, hbook, htrips, ?_⟩
  cases tripped with
  | false =>
    rw [if_neg (by decide), yields_pure_iff] at h
    obtain ⟨rfl, rfl⟩ := h
    exact ⟨rfl, hloss, rfl⟩
  | true =>
    rw [if_pos rfl, yields_lift_iff] at h
    obtain ⟨hreason, rfl⟩ := h
    exact ⟨rfl, hloss, hreason⟩

theorem clearHalt_yields {p p' : Portfolio} {a : Unit} (h : clearHalt.Yields p a p') :
    p' = { p with haltedForDrawdown := false, haltBasis := p.balance } ∧
      ∃ loss, p'.drawdown = .ok loss := by
  simp only [clearHalt, yields_bind_iff, yields_modify_iff] at h
  obtain ⟨_, _, rfl, hpub⟩ := h
  obtain ⟨rfl, hloss⟩ := publish_yields hpub
  exact ⟨rfl, hloss⟩

end Portfolio

inductive Movement where
  | reserve (size : Decimal)
  | settle (size pnl : Decimal)
  | clearHalt
  deriving DecidableEq

namespace Movement

def act : Movement → Act Portfolio Unit
  | reserve size => do let _ ← Portfolio.reserve size
  | settle size pnl => do let _ ← Portfolio.settle size pnl
  | clearHalt => Portfolio.clearHalt

def isSettlement : Movement → Bool
  | settle _ _ => true
  | _ => false

/-- A history up to its last clear. -/
def untilClear (movements : List Movement) : List Movement :=
  movements.rdropWhile fun movement => movement != clearHalt

/-- A history since its last clear, or all of it if there is none. -/
def sinceClear (movements : List Movement) : List Movement :=
  movements.rtakeWhile fun movement => movement != clearHalt

theorem untilClear_append_sinceClear (movements : List Movement) :
    untilClear movements ++ sinceClear movements = movements :=
  List.rdropWhile_append_rtakeWhile

theorem clearHalt_not_mem_sinceClear (movements : List Movement) :
    clearHalt ∉ sinceClear movements := by
  intro hmem
  have hne := List.mem_rtakeWhile_imp hmem
  simp at hne

theorem untilClear_cases (movements : List Movement) :
    untilClear movements = [] ∨ ∃ earlier, untilClear movements = earlier ++ [clearHalt] := by
  by_cases hnil : untilClear movements = []
  · exact .inl hnil
  · have hlast := List.rdropWhile_last_not (fun movement => movement != clearHalt) movements hnil
    simp only [bne_iff_ne, ne_eq, not_not] at hlast
    refine .inr ⟨(untilClear movements).dropLast, ?_⟩
    rw [← hlast]
    exact (List.dropLast_append_getLast hnil).symm

end Movement

namespace Portfolio

open Act

def replay : List Movement → Act Portfolio Unit
  | [] => pure ()
  | movement :: movements => do
    movement.act
    replay movements

def settlements (p : Portfolio) : List Movement → List Portfolio
  | [] => []
  | movement :: movements =>
    let next := (movement.act p).state
    if movement.isSettlement then next :: next.settlements movements
    else next.settlements movements

theorem replay_cons_yields {movement : Movement} {movements : List Movement} {p q : Portfolio}
    (h : (replay (movement :: movements)).Yields p () q) :
    (movement.act.Yields p () (movement.act p).state) ∧
      (replay movements).Yields (movement.act p).state () q := by
  rw [replay, yields_bind_iff] at h
  obtain ⟨_, r, hact, h⟩ := h
  rw [hact.2]
  exact ⟨hact, h⟩

/-- What every movement of a run preserves, the run preserves. -/
theorem replay_preserves (holds : Portfolio → Prop) {movements : List Movement} {p q : Portfolio}
    (hstep : ∀ movement ∈ movements, ∀ r r', movement.act.Yields r () r' → holds r → holds r')
    (h : (replay movements).Yields p () q) (hp : holds p) : holds q := by
  induction movements generalizing p with
  | nil =>
    obtain ⟨-, rfl⟩ := yields_pure_iff.1 h
    exact hp
  | cons movement movements ih =>
    obtain ⟨hact, hrest⟩ := replay_cons_yields h
    exact ih (fun m hm => hstep m (List.mem_cons_of_mem _ hm)) hrest
      (hstep movement List.mem_cons_self _ _ hact hp)

theorem replay_append_yields_iff {before after : List Movement} {p q : Portfolio} :
    (replay (before ++ after)).Yields p () q ↔
      (replay before).Yields p () (replay before p).state ∧
        (replay after).Yields (replay before p).state () q := by
  induction before generalizing p with
  | nil => exact ⟨fun h => ⟨⟨rfl, rfl⟩, h⟩, And.right⟩
  | cons movement before ih =>
    constructor
    · intro h
      obtain ⟨hact, h⟩ := replay_cons_yields h
      obtain ⟨hb, ha⟩ := ih.1 h
      have hs : (replay (movement :: before)).Yields p ()
          (replay before (movement.act p).state).state := by
        rw [replay, yields_bind_iff]
        exact ⟨(), _, hact, hb⟩
      rw [hs.2]
      exact ⟨hs, ha⟩
    · rintro ⟨hb, ha⟩
      obtain ⟨hact, hrest⟩ := replay_cons_yields hb
      rw [List.cons_append, replay, yields_bind_iff]
      refine ⟨(), _, hact, ih.2 ?_⟩
      rw [hrest.2]
      exact ⟨hrest, ha⟩

end Portfolio

end SignalDesk
