import SignalDesk.Proofs.Decimal.Operations
import SignalDesk.Proofs.Portfolio.Movements

/-!
# Solvency

Capital is committed only as far as the balance covers it, and a close loses what it committed at
most. Both hold up to rounding: after some openings and closes the balance may lie below what is
committed by an amount that they have added up.
-/

namespace SignalDesk

/-- What roundings can add up to over a number of openings and closes, for a balance that never
exceeded `peak`. -/
def slack (events : Nat) (peak : ℚ) : ℚ := ((1 + 1 / 10 ^ 26) ^ events - 1) * (1 + peak)

private theorem slack_nonneg (events : Nat) {peak : ℚ} (h : 0 ≤ peak) : 0 ≤ slack events peak := by
  have hone : (1 : ℚ) ≤ (1 + 1 / 10 ^ 26) ^ events := one_le_pow₀ (by norm_num)
  exact mul_nonneg (by linarith) (by linarith)

private theorem slack_succ (events : Nat) {peak peak' : ℚ} (h : 0 ≤ peak) (hle : peak ≤ peak') :
    slack events peak + 50 * ulp * (1 + peak + slack events peak) + 50 * ulp * (1 + peak') ≤
      slack (events + 1) peak' := by
  have hone : (1 : ℚ) ≤ (1 + 1 / 10 ^ 26) ^ events := one_le_pow₀ (by norm_num)
  unfold slack
  rw [pow_succ _ events]
  generalize ((1 : ℚ) + 1 / 10 ^ 26) ^ events = growth at hone ⊢
  have hgrowth := mul_le_mul_of_nonneg_left hle (by linarith : 0 ≤ growth - 1)
  have hulp : ulp = 1 / 10 ^ 28 := rfl
  rw [hulp]
  norm_num
  nlinarith

namespace Portfolio

open Act

/-- The balance covers the open positions of one size and what is committed, up to the slack. -/
structure Backed (size : ℚ) (events : Nat) (p : Portfolio) : Prop where
  committed_nonneg : 0 ≤ p.committed.toRat
  peak_nonneg : 0 ≤ p.peakBalance.toRat
  balance_le : p.balance.toRat ≤ p.peakBalance.toRat
  booked : p.openPositions * size - p.committed.toRat ≤ slack events p.peakBalance.toRat
  covered : p.openPositions * size - p.balance.toRat ≤ slack events p.peakBalance.toRat
  available : p.committed.toRat - p.balance.toRat ≤ slack events p.peakBalance.toRat

variable {size : Decimal} {events : Nat} {p p' : Portfolio}

theorem ofSettings_backed {settings : PortfolioSettings} {start : Portfolio} (size : ℚ)
    (hbalance : 0 < settings.startingBalance.toRat) (h : ofSettings settings = .ok start) :
    start.Backed size 0 := by
  obtain ⟨limit, -, rfl⟩ := ofSettings_ok h
  refine ⟨?_, hbalance.le, le_rfl, ?_, ?_, ?_⟩ <;> simp [slack, hbalance.le]

theorem clearHalt_backed {a : Unit} {size : ℚ} (hp : p.Backed size events)
    (h : clearHalt.Yields p a p') : p'.Backed size events := by
  obtain ⟨rfl, -⟩ := clearHalt_yields h
  exact ⟨hp.committed_nonneg, hp.peak_nonneg, hp.balance_le, hp.booked, hp.covered, hp.available⟩

/-- A granted reservation is covered by what was available. -/
theorem reserve_backed (hsize : 0 < size.toRat) (hp : p.Backed size.toRat events)
    (h : (reserve size).Yields p (.ok ()) p') :
    p'.Backed size.toRat (events + 1) ∧ p'.openPositions = p.openPositions + 1 := by
  rcases reserve_yields h with ⟨⟨refusal, hrefused⟩, -⟩ |
    ⟨-, -, ⟨available, havailable, henough⟩, -, committed, hadd, rfl⟩
  · cases hrefused
  · have hfree := Decimal.sub_error havailable
    have hsum := Decimal.add_error hadd
    rw [Decimal.lt_iff_toRat, not_lt] at henough
    have hslack := slack_succ events hp.peak_nonneg (le_refl p.peakBalance.toRat)
    have hnonneg := slack_nonneg events hp.peak_nonneg
    have ⟨hc, hpeak, hbalance, hbooked, hcovered, havail⟩ := hp
    have hulp : ulp = 1 / 10 ^ 28 := rfl
    rw [hulp] at hfree hsum hslack
    have hgap : 0 ≤ p.balance.toRat - p.committed.toRat := by
      by_contra hshort
      rw [abs_of_neg (not_le.1 hshort), abs_le] at hfree
      linarith
    rw [abs_of_nonneg hgap, abs_le] at hfree
    rw [abs_of_nonneg (by linarith : 0 ≤ p.committed.toRat + size.toRat), abs_le] at hsum
    refine ⟨⟨?_, hpeak, hbalance, ?_, ?_, ?_⟩, rfl⟩
    · simp only; linarith
    · simp only; push_cast; linarith
    · simp only; push_cast; linarith
    · simp only; linarith

/-- A settlement releases what was committed and books a loss of the size at most, up to rounding. -/
theorem settle_backed {pnl : Decimal} {reply : Option HaltReason} (hsize : 0 < size.toRat)
    (hloss : -(size.toRat + 10 * ulp * (1 + size.toRat)) ≤ pnl.toRat) (hopen : 0 < p.openPositions)
    (hp : p.Backed size.toRat events) (h : (settle size pnl).Yields p reply p') :
    p'.Backed size.toRat (events + 1) ∧ p'.openPositions + 1 = p.openPositions := by
  obtain ⟨booked, tripped, hbook, -, rfl, -, -⟩ := settle_yields h
  obtain ⟨committed, balance, realizedPnl, hsub, hadd, -, rfl⟩ := book_ok hbook
  have hreleased := Decimal.sub_error hsub
  have hsum := Decimal.add_error hadd
  have ⟨hc, hpeak, hbalance, hbooked, hcovered, havail⟩ := hp
  have hnonneg := slack_nonneg events hpeak
  have hpeak' : p.peakBalance.toRat ≤ (p.peakBalance.max balance).toRat := by
    rw [Decimal.toRat_max]
    exact le_sup_left
  have hbalance' : balance.toRat ≤ (p.peakBalance.max balance).toRat := by
    rw [Decimal.toRat_max]
    exact le_sup_right
  have hslack := slack_succ events hpeak hpeak'
  -- the other open positions are not worth less than nothing
  have hothers : (p.openPositions : ℚ) * size.toRat = (p.openPositions - 1 : Nat) * size.toRat + size.toRat := by
    rw [Nat.cast_sub hopen]
    push_cast
    ring
  have hothers' : (0 : ℚ) ≤ (p.openPositions - 1 : Nat) * size.toRat := by positivity
  rw [hothers] at hbooked hcovered
  have hulp : ulp = 1 / 10 ^ 28 := rfl
  rw [hulp] at hloss hreleased hsum hslack
  have hstake : |p.committed.toRat - size.toRat| ≤
      p.peakBalance.toRat + slack events p.peakBalance.toRat := by
    rw [abs_le]
    constructor <;> linarith
  have hreleased' : |committed.toRat - (p.committed.toRat - size.toRat)| ≤
      1 / 10 ^ 28 * (p.peakBalance.toRat + slack events p.peakBalance.toRat) :=
    hreleased.trans (by gcongr)
  rw [abs_le] at hreleased'
  have hkept : p.balance.toRat + pnl.toRat - 1 / 10 ^ 28 *
      (2 * (1 + p.peakBalance.toRat + slack events p.peakBalance.toRat) +
        2 * (p.peakBalance.max balance).toRat) ≤ balance.toRat := by
    rcases le_total 0 (p.balance.toRat + pnl.toRat) with hgain | hshort
    · rw [abs_of_nonneg hgain, abs_le] at hsum
      linarith
    · rw [abs_of_nonpos hshort, abs_le] at hsum
      linarith
  have hcommitted : (committed.max .zero).toRat = max committed.toRat 0 := by
    rw [Decimal.toRat_max, Decimal.toRat_zero]
  have hopened : (p.openPositions - 1 : Nat) + 1 = p.openPositions := by omega
  refine ⟨⟨?_, hpeak.trans hpeak', hbalance', ?_, ?_, ?_⟩, hopened⟩
  · rw [hcommitted]
    exact le_max_right _ _
  · have hle := le_max_left committed.toRat 0
    simp only [hcommitted]
    linarith
  · simp only
    linarith
  · simp only [hcommitted]
    rw [sub_le_iff_le_add]
    refine max_le ?_ ?_ <;> linarith

end Portfolio

end SignalDesk
