import SignalDesk.Proofs.Decimal.Operations
import SignalDesk.Risk.Position

/-!
# The worst loss of a position

A position bought above zero and marked at zero or above cannot lose more than its size. The contracts
are a rounded quotient, so that a loss can exceed the size by what four roundings add to it.
-/

namespace SignalDesk

theorem isCents_iff {price : Int64} : isCents price = true ↔ 0 ≤ price.toInt ∧ price.toInt ≤ 100 := by
  rw [isCents, Bool.and_eq_true, decide_eq_true_iff, decide_eq_true_iff, Int64.le_iff_toInt_le,
    Int64.le_iff_toInt_le]
  rfl

theorem toInt_sub_of_nonneg {a b : Int64} (ha : 0 ≤ a.toInt) (hb : 0 ≤ b.toInt) :
    (a - b).toInt = a.toInt - b.toInt := by
  have ha' := a.toInt_lt
  have hb' := b.toInt_lt
  rw [Int64.toInt_sub]
  exact Int.bmod_eq_of_le (by omega) (by omega)

theorem toInt_sub_of_isCents {a b : Int64} (ha : isCents a = true) (hb : isCents b = true) :
    (a - b).toInt = a.toInt - b.toInt :=
  toInt_sub_of_nonneg (isCents_iff.1 ha).1 (isCents_iff.1 hb).1

theorem toInt_neg_sub_of_isCents {a b : Int64} (ha : isCents a = true) (hb : isCents b = true) :
    (-(a - b)).toInt = b.toInt - a.toInt := by
  rw [Int64.neg_sub]
  exact toInt_sub_of_isCents hb ha

theorem toInt_add_of_isCents {a b : Int64} (ha : isCents a = true) (hb : isCents b = true) :
    (a + b).toInt = a.toInt + b.toInt := by
  rw [isCents_iff] at ha hb
  rw [Int64.toInt_add]
  exact Int.bmod_eq_of_le (by omega) (by omega)

theorem Quote.isCents_bidFor {quote : Quote} (h : (Record.quote quote).isValid = true) (side : Side) :
    isCents (quote.bidFor side) = true := by
  have hbook : isCents quote.yesBid = true ∧ isCents quote.yesAsk = true := by
    rw [Record.isValid, Option.isNone_iff_eq_none, Record.fault?] at h
    split at h
    · cases h
    · simp only [Quote.fault?] at h
      split at h
      · cases h
      · rename_i hbook
        simpa using hbook
  cases side with
  | yes => exact hbook.1
  | no =>
    have hhundred : isCents 100 = true := by decide
    rw [Quote.bidFor, isCents_iff, toInt_sub_of_isCents hhundred hbook.2]
    have hask := isCents_iff.1 hbook.2
    change 0 ≤ 100 - quote.yesAsk.toInt ∧ 100 - quote.yesAsk.toInt ≤ 100
    omega

private theorem rounded_loss_le {s p q cents contracts move loss : ℚ} (hs : 0 ≤ s) (hp : 0 < p)
    (hp' : p ≤ 100) (hq : 0 ≤ q) (hcontracts : 0 ≤ contracts)
    (h₁ : |cents - s * 100| ≤ ulp * |s * 100|)
    (h₂ : |contracts - cents / p| ≤ ulp * (1 + |cents / p|))
    (h₃ : |move - contracts * (q - p)| ≤ ulp * |contracts * (q - p)|)
    (h₄ : |loss - move / 100| ≤ ulp * (1 + |move / 100|)) :
    -(s + 10 * ulp * (1 + s)) ≤ loss := by
  have hulp : ulp = 1 / 10 ^ 28 := rfl
  rw [abs_of_nonneg (by positivity : 0 ≤ s * 100), abs_le, hulp] at h₁
  have hcents : 0 ≤ cents := by linarith
  have hstake : contracts * p ≤ cents + ulp * (p + cents) := by
    rw [abs_of_nonneg (by positivity : 0 ≤ cents / p), abs_le] at h₂
    have hmul := mul_le_mul_of_nonneg_right h₂.2 hp.le
    rw [sub_mul, div_mul_cancel₀ _ hp.ne', mul_assoc, add_mul, one_mul,
      div_mul_cancel₀ _ hp.ne'] at hmul
    linarith
  have hmove : -move ≤ (1 + ulp) * (contracts * p) := by
    have hpaid : 0 ≤ contracts * p := by positivity
    have hworst : -(contracts * (q - p)) ≤ contracts * p := by
      have := mul_nonneg hcontracts hq
      linarith
    rw [hulp] at h₃ ⊢
    rcases le_total 0 (contracts * (q - p)) with hgain | hloss
    · rw [abs_of_nonneg hgain, abs_le] at h₃
      linarith
    · rw [abs_of_nonpos hloss, abs_le] at h₃
      linarith
  have hloss : -loss ≤ (1 + ulp) * ((1 + ulp) * (contracts * p) / 100) + ulp := by
    have hpaid : 0 ≤ contracts * p := by positivity
    rw [hulp] at h₄ hmove ⊢
    rcases le_total 0 (move / 100) with hgain | hloss
    · rw [abs_of_nonneg hgain, abs_le] at h₄
      linarith
    · rw [abs_of_nonpos hloss, abs_le] at h₄
      linarith
  rw [hulp] at hstake hloss ⊢
  linarith

namespace Position

/-- A position as it is opened at a price of one to ninety-nine cents. -/
structure Opened (position : Position) : Prop where
  entryPrice : 0 < position.entryPrice.toInt ∧ position.entryPrice.toInt < 100
  contracts : contractsFor position.size position.entryPrice = .ok position.contracts

theorem Opened.contracts_nonneg {position : Position} (h : position.Opened)
    (hsize : 0 ≤ position.size.toRat) : 0 ≤ position.contracts.toRat := by
  obtain ⟨cents, hcents, hdiv⟩ := bind_ok_iff.1 h.contracts
  have hcents' := Decimal.mul_error hcents rfl
  have hprice : (0 : ℚ) < position.entryPrice.toInt := by exact_mod_cast h.entryPrice.1
  refine Decimal.div?_nonneg (orAbort_ok_iff.1 hdiv) ?_ (by rwa [Decimal.toRat_ofInt64])
  have hulp : ulp = 1 / 10 ^ 28 := rfl
  rw [Decimal.toRat_hundred, abs_of_nonneg (by positivity : 0 ≤ position.size.toRat * 100), abs_le,
    hulp] at hcents'
  linarith

/-- A close at a price in cents loses the size and what is rounded on the way, at most. -/
theorem Opened.pnlAt_ge {position : Position} (h : position.Opened) (hsize : 0 ≤ position.size.toRat)
    {price : Int64} (hprice : isCents price = true) {pnl : Decimal}
    (hpnl : position.pnlAt price = .ok pnl) :
    -(position.size.toRat + 10 * ulp * (1 + position.size.toRat)) ≤ pnl.toRat := by
  obtain ⟨cents, hcents, hdiv⟩ := bind_ok_iff.1 h.contracts
  obtain ⟨move, hmove, hlast⟩ := bind_ok_iff.1 hpnl
  obtain ⟨hlow, hhigh⟩ := h.entryPrice
  have hentry : isCents position.entryPrice = true := isCents_iff.2 ⟨hlow.le, hhigh.le⟩
  have hcents' := Decimal.mul_error hcents rfl
  have hdiv' := Decimal.div_error hdiv
  have hmove' := Decimal.mul_error hmove rfl
  have hlast' := Decimal.div_error hlast
  rw [Decimal.toRat_ofInt64] at hdiv' hmove'
  rw [toInt_sub_of_isCents hprice hentry] at hmove'
  rw [Decimal.toRat_hundred] at hcents' hlast'
  rw [isCents_iff] at hprice
  have hp : (1 : ℚ) ≤ position.entryPrice.toInt := by exact_mod_cast hlow
  have hp' : (position.entryPrice.toInt : ℚ) ≤ 100 := by exact_mod_cast hhigh.le
  have hq : (0 : ℚ) ≤ price.toInt := by exact_mod_cast hprice.1
  push_cast at hmove'
  exact rounded_loss_le hsize (by linarith) hp' hq (h.contracts_nonneg hsize) hcents' hdiv' hmove' hlast'

theorem contractsFor_ok {size : Decimal} {price : Int64} (hprice : 0 < price.toInt)
    (hsize : |size.toRat| ≤ 10 ^ 22) : ∃ contracts, contractsFor size price = .ok contracts := by
  have hproduct : |size.toRat * Decimal.hundred.toRat| ≤ 10 ^ 24 := by
    rw [Decimal.toRat_hundred, abs_mul, abs_of_pos (by norm_num : (0 : ℚ) < 100)]
    linarith
  obtain ⟨cents, hcents⟩ := Decimal.mul_ok (hproduct.trans (by norm_num))
  have hprice' : (1 : ℚ) ≤ price.toInt := by exact_mod_cast hprice
  have hcents' : |cents.toRat| ≤ 10 ^ 28 := by
    refine (Decimal.abs_le_of_mul hcents rfl).trans ?_
    unfold ulp
    linarith
  obtain ⟨contracts, hcontracts⟩ := Decimal.div_ok (a := cents) (b := .ofInt64 price)
    (by rw [Decimal.toRat_ofInt64]; linarith) (by
      rw [Decimal.toRat_ofInt64, abs_div, abs_of_pos (by linarith : (0 : ℚ) < price.toInt)]
      exact (div_le_self (abs_nonneg _) hprice').trans hcents')
  exact ⟨contracts, bind_ok_iff.2 ⟨cents, hcents, hcontracts⟩⟩

namespace Opened

variable {position : Position} {price : Int64}

/-- A dollar buys a hundred contracts at most, and the roundings add less than two. -/
theorem abs_contracts_le (h : position.Opened) (hsize : 0 < position.size.toRat) :
    |position.contracts.toRat| ≤ 102 * position.size.toRat := by
  obtain ⟨cents, hcents, hdiv⟩ := bind_ok_iff.1 h.contracts
  have hulp := Decimal.ulp_le_of_pos hsize
  have hprice : (1 : ℚ) ≤ position.entryPrice.toInt := by exact_mod_cast h.entryPrice.1
  have hcents' := Decimal.abs_le_of_mul hcents rfl
  rw [Decimal.toRat_hundred, abs_of_pos (by linarith : 0 < position.size.toRat * 100)] at hcents'
  have hquotient : |cents.toRat / (Decimal.ofInt64 position.entryPrice).toRat| ≤ |cents.toRat| := by
    rw [Decimal.toRat_ofInt64, abs_div, abs_of_pos (by linarith : (0 : ℚ) < position.entryPrice.toInt)]
    exact div_le_self (abs_nonneg _) hprice
  have hcontracts := Decimal.abs_le_of_div hdiv
  have hlast : ulp = 1 / 10 ^ 28 := rfl
  rw [hlast] at hcontracts hcents' hulp
  linarith

private theorem abs_move_le (h : position.Opened) (hsize : 0 < position.size.toRat)
    (hprice : isCents price = true) :
    |position.contracts.toRat * (Decimal.ofInt64 (price - position.entryPrice)).toRat| ≤
      10200 * position.size.toRat := by
  have hentry : isCents position.entryPrice = true :=
    isCents_iff.2 ⟨h.entryPrice.1.le, h.entryPrice.2.le⟩
  rw [Decimal.toRat_ofInt64, toInt_sub_of_isCents hprice hentry, abs_mul]
  have hmove : |(price.toInt - position.entryPrice.toInt : Int)| ≤ 100 := by
    rw [isCents_iff] at hprice hentry
    rw [abs_le]
    omega
  have hmove' : |((price.toInt - position.entryPrice.toInt : Int) : ℚ)| ≤ 100 := by exact_mod_cast hmove
  have hcontracts := h.abs_contracts_le hsize
  have := mul_le_mul hcontracts hmove' (abs_nonneg _) (by linarith)
  linarith

theorem pnlAt_ok (h : position.Opened) (hsize : 0 < position.size.toRat)
    (hle : position.size.toRat ≤ 10 ^ 22) (hprice : isCents price = true) :
    ∃ pnl, position.pnlAt price = .ok pnl := by
  have hproduct := h.abs_move_le hsize hprice
  obtain ⟨move, hmove⟩ := Decimal.mul_ok (hproduct.trans (by linarith))
  have hmove' := Decimal.abs_le_of_mul hmove rfl
  obtain ⟨pnl, hpnl⟩ := Decimal.div_ok (a := move) (b := .hundred)
    (by rw [Decimal.toRat_hundred]; norm_num) (by
      rw [Decimal.toRat_hundred, abs_div, abs_of_pos (by norm_num : (0 : ℚ) < 100)]
      unfold ulp at hmove'
      linarith)
  exact ⟨pnl, bind_ok_iff.2 ⟨move, hmove, hpnl⟩⟩

theorem abs_pnlAt_le (h : position.Opened) (hsize : 0 < position.size.toRat)
    (hprice : isCents price = true) {pnl : Decimal} (hpnl : position.pnlAt price = .ok pnl) :
    |pnl.toRat| ≤ 200 * position.size.toRat := by
  obtain ⟨move, hmove, hlast⟩ := bind_ok_iff.1 hpnl
  have hproduct := h.abs_move_le hsize hprice
  have hmove' := Decimal.abs_le_of_mul hmove rfl
  have hlast' := Decimal.abs_le_of_div hlast
  rw [Decimal.toRat_hundred, abs_div, abs_of_pos (by norm_num : (0 : ℚ) < 100)] at hlast'
  have hsmall := Decimal.ulp_le_of_pos hsize
  have hulp : ulp = 1 / 10 ^ 28 := rfl
  rw [hulp] at hmove' hlast' hsmall
  linarith

end Opened

end Position

end SignalDesk
