import SignalDesk.Proofs.Decimal.Monotone
import SignalDesk.Proofs.Position

/-!
# Profits and prices

The profit of a position follows the price at which it is closed, in spite of the two roundings: it
does not fall as the price rises, it is nothing at the entry price, and equal moves up and down are
opposite in profit.
-/

namespace SignalDesk.Position

open Decimal

variable {position : Position} {price p q : Int64} {pnl a b : Decimal}

private theorem pnlAt_ok_iff : position.pnlAt price = .ok pnl ↔
    ∃ product, position.contracts.mul? (.ofInt64 (price - position.entryPrice)) = some product ∧
      product.div? .hundred = some pnl := by
  unfold pnlAt
  simp only [bind_ok_iff, Decimal.mul, Decimal.div, orAbort_ok_iff]

private theorem scale_product_le (position : Position) (move : Int64) :
    position.contracts.scale + (Decimal.ofInt64 move).scale ≤ maxScale :=
  position.contracts.scale_le

theorem pnlAt_nonneg (hcontracts : 0 ≤ position.contracts.toRat)
    (hmove : 0 ≤ (price - position.entryPrice).toInt) (h : position.pnlAt price = .ok pnl) :
    0 ≤ pnl.toRat := by
  obtain ⟨product, hproduct, hpnl⟩ := pnlAt_ok_iff.1 h
  have hmove' : 0 ≤ (Decimal.ofInt64 (price - position.entryPrice)).toRat := by
    rw [toRat_ofInt64]
    exact_mod_cast hmove
  exact div?_nonneg hpnl (mul?_nonneg (scale_product_le position _) hproduct hcontracts hmove')
    (by norm_num)

theorem pnlAt_nonpos (hcontracts : 0 ≤ position.contracts.toRat)
    (hmove : (price - position.entryPrice).toInt ≤ 0) (h : position.pnlAt price = .ok pnl) :
    pnl.toRat ≤ 0 := by
  obtain ⟨product, hproduct, hpnl⟩ := pnlAt_ok_iff.1 h
  have hmove' : (Decimal.ofInt64 (price - position.entryPrice)).toRat ≤ 0 := by
    rw [toRat_ofInt64]
    exact_mod_cast hmove
  exact div?_nonpos hpnl (mul?_nonpos (scale_product_le position _) hproduct hcontracts hmove')
    (by norm_num)

private theorem abs_pnlAt_mono
    (hmove : (p - position.entryPrice).toInt.natAbs ≤ (q - position.entryPrice).toInt.natAbs)
    (ha : position.pnlAt p = .ok a) (hb : position.pnlAt q = .ok b) : |a.toRat| ≤ |b.toRat| := by
  obtain ⟨first, hfirst, ha⟩ := pnlAt_ok_iff.1 ha
  obtain ⟨second, hsecond, hb⟩ := pnlAt_ok_iff.1 hb
  exact div?_hundred_abs_mono (mul?_abs_mono hmove hfirst hsecond) ha hb

/-- The move from the entry price to a price is a machine integer. -/
def Reaches (position : Position) (price : Int64) : Prop :=
  -2 ^ 63 ≤ price.toInt - position.entryPrice.toInt ∧
    price.toInt - position.entryPrice.toInt < 2 ^ 63

theorem Reaches.toInt_sub (h : position.Reaches price) :
    (price - position.entryPrice).toInt = price.toInt - position.entryPrice.toInt := by
  obtain ⟨hlow, hhigh⟩ := h
  rw [Int64.toInt_sub]
  exact Int.bmod_eq_of_le (by omega) (by omega)

/-- What the profits of a position have in common at all prices that it reaches. -/
structure ProfitFollowsPrice (position : Position) : Prop where
  mono : ∀ {p q : Int64} {a b : Decimal}, position.Reaches p → position.Reaches q → p ≤ q →
    position.pnlAt p = .ok a → position.pnlAt q = .ok b → a ≤ b
  atEntry : position.pnlAt position.entryPrice = .ok .zero
  above : ∀ {p : Int64} {a : Decimal}, position.Reaches p → position.entryPrice ≤ p →
    position.pnlAt p = .ok a → .zero ≤ a
  below : ∀ {p : Int64} {a : Decimal}, position.Reaches p → p ≤ position.entryPrice →
    position.pnlAt p = .ok a → a ≤ .zero
  /-- Equal moves up and down; where one cannot be counted, neither can the other. -/
  mirror : ∀ (k : Int) {up down : Int64}, up.toInt = position.entryPrice.toInt + k →
    down.toInt = position.entryPrice.toInt - k →
    position.pnlAt up = (position.pnlAt down).map Neg.neg

private theorem pnlAt_mono (hcontracts : 0 ≤ position.contracts.toRat) (hp : position.Reaches p)
    (hq : position.Reaches q) (hle : p ≤ q) (ha : position.pnlAt p = .ok a)
    (hb : position.pnlAt q = .ok b) : a ≤ b := by
  rw [Int64.le_iff_toInt_le] at hle
  rw [le_iff_toRat]
  have hmove := hp.toInt_sub
  have hmove' := hq.toInt_sub
  rcases le_total 0 (p - position.entryPrice).toInt with hup | hdown
  · -- both prices are above the entry price
    have hfirst := pnlAt_nonneg hcontracts hup ha
    have hsecond := pnlAt_nonneg hcontracts (by omega) hb
    have habs := abs_pnlAt_mono (by omega) ha hb
    rwa [abs_of_nonneg hfirst, abs_of_nonneg hsecond] at habs
  · rcases le_total 0 (q - position.entryPrice).toInt with hup' | hdown'
    · exact (pnlAt_nonpos hcontracts hdown ha).trans (pnlAt_nonneg hcontracts hup' hb)
    · -- both prices are below the entry price, the lower one further away from it
      have hfirst := pnlAt_nonpos hcontracts hdown ha
      have hsecond := pnlAt_nonpos hcontracts hdown' hb
      have habs := abs_pnlAt_mono (by omega) hb ha
      rw [abs_of_nonpos hfirst, abs_of_nonpos hsecond] at habs
      linarith

private theorem pnlAt_entryPrice (position : Position) :
    position.pnlAt position.entryPrice = .ok .zero := by
  rw [pnlAt_ok_iff, Int64.sub_self]
  exact ⟨.zero, mul?_of_isZero (.inr rfl), rfl⟩

private theorem pnlAt_mirror (k : Int) {up down : Int64}
    (hup : up.toInt = position.entryPrice.toInt + k)
    (hdown : down.toInt = position.entryPrice.toInt - k) :
    position.pnlAt up = (position.pnlAt down).map Neg.neg := by
  have hopposite : Decimal.ofInt64 (up - position.entryPrice) =
      -Decimal.ofInt64 (down - position.entryPrice) := by
    have hlow := up.le_toInt
    have hhigh := up.toInt_lt
    have hlow' := down.le_toInt
    have hhigh' := down.toInt_lt
    have hreaches : position.Reaches up := ⟨by omega, by omega⟩
    have hreaches' : position.Reaches down := ⟨by omega, by omega⟩
    apply ofInt64_neg
    rw [hreaches.toInt_sub, hreaches'.toInt_sub]
    omega
  unfold pnlAt Decimal.mul Decimal.div
  rw [hopposite, mul?_neg]
  cases position.contracts.mul? (.ofInt64 (down - position.entryPrice)) with
  | none => rfl
  | some product =>
    change orAbort _ ((-product).div? .hundred) = (orAbort _ (product.div? .hundred)).map Neg.neg
    rw [neg_div?]
    cases product.div? .hundred <;> rfl

theorem profitFollowsPrice (hcontracts : .zero ≤ position.contracts) :
    position.ProfitFollowsPrice := by
  rw [zero_le_iff] at hcontracts
  have hentry : position.Reaches position.entryPrice := ⟨by omega, by omega⟩
  exact {
    mono := pnlAt_mono hcontracts
    atEntry := pnlAt_entryPrice position
    above := fun hp hle ha => pnlAt_mono hcontracts hentry hp hle (pnlAt_entryPrice position) ha
    below := fun hp hle ha => pnlAt_mono hcontracts hp hentry hle ha (pnlAt_entryPrice position)
    mirror := fun k => pnlAt_mirror k }

end SignalDesk.Position
