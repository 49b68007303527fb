import SignalDesk.Proofs.Account
import SignalDesk.Proofs.Decimal.Operations

/-!
# Amounts in range

A movement of capital adds a gain or a commitment to the amounts of an account and rounds them, so
that they stay below a limit that grows from one movement to the next. Below `10 ^ 22`, and below as
many times the starting balance, no movement is given up.
-/

namespace SignalDesk

/-- What the amounts of an account can grow to over some movements, each of a gain, a loss or a
commitment of two hundred trade sizes at most. -/
def reach (start size : ℚ) (movements : Nat) : ℚ :=
  (1 + ulp) ^ movements * (start + 200 * size * movements)

theorem one_add_ulp_pow_le {n : Nat} (h : n ≤ 10 ^ 27) : (1 + ulp) ^ n ≤ 2 := by
  have hulp : ulp = 1 / 10 ^ 28 := rfl
  have hn : (n : ℚ) ≤ 10 ^ 27 := by exact_mod_cast h
  -- the inverse falls by a tenth at most
  have hbernoulli : 1 + n * -ulp ≤ (1 + -ulp) ^ n :=
    one_add_mul_le_pow (by norm_num [hulp]) n
  have hinverse : (1 + ulp) ^ n * (1 + -ulp) ^ n ≤ 1 := by
    rw [← mul_pow]
    exact pow_le_one₀ (by norm_num [hulp]) (by norm_num [hulp])
  have hpow : (0 : ℚ) ≤ (1 + ulp) ^ n := by
    have := ulp_pos
    positivity
  have htenth : (9 / 10 : ℚ) ≤ (1 + -ulp) ^ n := by
    refine le_trans ?_ hbernoulli
    rw [hulp]
    linarith
  nlinarith

@[simp] theorem reach_zero (start size : ℚ) : reach start size 0 = start := by simp [reach]

theorem reach_succ {start size : ℚ} (hsize : 0 ≤ size) (movements : Nat) :
    (1 + ulp) * (reach start size movements + 200 * size) ≤ reach start size (movements + 1) := by
  have hone : (1 : ℚ) ≤ (1 + ulp) ^ movements := one_le_pow₀ (by linarith [ulp_pos])
  have hgain : 200 * size ≤ (1 + ulp) ^ movements * (200 * size) :=
    le_mul_of_one_le_left (by linarith) hone
  have hsplit : reach start size (movements + 1) =
      (1 + ulp) * (reach start size movements + (1 + ulp) ^ movements * (200 * size)) := by
    unfold reach
    push_cast
    ring
  rw [hsplit]
  have := ulp_pos
  gcongr

theorem reach_mono {start size : ℚ} (hstart : 0 ≤ start) (hsize : 0 ≤ size) {m n : Nat} (h : m ≤ n) :
    reach start size m ≤ reach start size n := by
  have hone : (1 : ℚ) ≤ 1 + ulp := by linarith [ulp_pos]
  unfold reach
  gcongr

namespace Portfolio

open Act

/-- An account with a starting balance whose amounts are within a limit. -/
structure InRange (start limit : ℚ) (p : Portfolio) : Prop where
  starting : p.startingBalance.toRat = start
  balance : |p.balance.toRat| ≤ limit
  peak : |p.peakBalance.toRat| ≤ limit
  basis : |p.haltBasis.toRat| ≤ limit
  realized : |p.realizedPnl.toRat| ≤ limit
  committed : |p.committed.toRat| ≤ limit

variable {start limit limit' gain : ℚ} {p p' : Portfolio} {size pnl : Decimal}

theorem InRange.mono (hp : p.InRange start limit) (h : limit ≤ limit') : p.InRange start limit' :=
  ⟨hp.starting, hp.balance.trans h, hp.peak.trans h, hp.basis.trans h, hp.realized.trans h,
    hp.committed.trans h⟩

theorem ofSettings_inRange {settings : PortfolioSettings} (hstart : 0 ≤ settings.startingBalance.toRat)
    (h : ofSettings settings = .ok p) :
    p.InRange settings.startingBalance.toRat settings.startingBalance.toRat := by
  obtain ⟨limit, -, rfl⟩ := ofSettings_ok h
  have hself := (abs_of_nonneg hstart).le
  have hzero : |Decimal.zero.toRat| ≤ settings.startingBalance.toRat := by
    rwa [Decimal.toRat_zero, abs_zero]
  exact ⟨rfl, hself, hself, hself, hzero, hzero⟩

private theorem abs_max_le {a b : Decimal} {bound : ℚ} (ha : |a.toRat| ≤ bound)
    (hb : |b.toRat| ≤ bound) :
    |(a.max b).toRat| ≤ bound := by
  rcases Decimal.max_eq_or a b with h | h <;> rwa [h]

private theorem rounded_le {a b r : Decimal} (h : |r.toRat| ≤ (1 + ulp) * (|a.toRat| + |b.toRat|))
    (ha : |a.toRat| ≤ limit) (hb : |b.toRat| ≤ gain) (hnext : (1 + ulp) * (limit + gain) ≤ limit') :
    |r.toRat| ≤ limit' := by
  refine h.trans (le_trans ?_ hnext)
  have := ulp_pos
  gcongr

private theorem book_inRange (hp : p.InRange start limit) (hsize : |size.toRat| ≤ gain)
    (hpnl : |pnl.toRat| ≤ gain) (hnext : (1 + ulp) * (limit + gain) ≤ limit')
    (h : p.book size pnl = .ok p') : p'.InRange start limit' := by
  obtain ⟨committed, balance, realizedPnl, hsub, hadd, hrealized, rfl⟩ := book_ok h
  have hgain : 0 ≤ gain := (abs_nonneg _).trans hpnl
  have hlimit : 0 ≤ limit := (abs_nonneg _).trans hp.balance
  have hle : limit ≤ limit' := by nlinarith [ulp_pos]
  have hbalance := rounded_le (Decimal.abs_le_of_add hadd) hp.balance hpnl hnext
  have hcommitted := rounded_le (Decimal.abs_le_of_sub hsub) hp.committed hsize hnext
  refine ⟨hp.starting, hbalance, abs_max_le (hp.peak.trans hle) hbalance,
    abs_max_le (hp.basis.trans hle) hbalance,
    rounded_le (Decimal.abs_le_of_add hrealized) hp.realized hpnl hnext, abs_max_le hcommitted ?_⟩
  rw [Decimal.toRat_zero, abs_zero]
  exact hlimit.trans hle

theorem reserve_inRange {reply : Except Refusal Unit} (hp : p.InRange start limit)
    (hsize : |size.toRat| ≤ gain) (hnext : (1 + ulp) * (limit + gain) ≤ limit')
    (h : (reserve size).Yields p reply p') : p'.InRange start limit' := by
  have hgain : 0 ≤ gain := (abs_nonneg _).trans hsize
  have hlimit : 0 ≤ limit := (abs_nonneg _).trans hp.balance
  have hle : limit ≤ limit' := by nlinarith [ulp_pos]
  rcases reserve_yields h with ⟨-, rfl⟩ | ⟨-, -, -, -, committed, hadd, rfl⟩
  · exact hp.mono hle
  · exact { hp.mono hle with
      committed := rounded_le (Decimal.abs_le_of_add hadd) hp.committed hsize hnext }

theorem settle_inRange {reply : Option HaltReason} (hp : p.InRange start limit)
    (hsize : |size.toRat| ≤ gain) (hpnl : |pnl.toRat| ≤ gain)
    (hnext : (1 + ulp) * (limit + gain) ≤ limit') (h : (settle size pnl).Yields p reply p') :
    p'.InRange start limit' := by
  obtain ⟨booked, tripped, hbook, -, rfl, -, -⟩ := settle_yields h
  have hbooked := book_inRange hp hsize hpnl hnext hbook
  exact ⟨hbooked.starting, hbooked.balance, hbooked.peak, hbooked.basis, hbooked.realized,
    hbooked.committed⟩

theorem clearHalt_inRange {a : Unit} (hp : p.InRange start limit) (h : clearHalt.Yields p a p') :
    p'.InRange start limit := by
  obtain ⟨rfl, -⟩ := clearHalt_yields h
  exact { hp with basis := hp.balance }

/-- The limits below which the losses of an account can be told. -/
structure Moderate (start limit : ℚ) : Prop where
  start_pos : 0 < start
  absolute : limit ≤ 10 ^ 22
  relative : limit ≤ 10 ^ 22 * start

section moderate

variable (hm : Moderate start limit)
include hm

private theorem not_startingBalance_le (hp : p.InRange start limit) :
    ¬ p.startingBalance ≤ .zero := by
  rw [Decimal.le_iff_toRat, Decimal.toRat_zero, hp.starting, not_le]
  exact hm.start_pos

private theorem lossFrom_ok (hp : p.InRange start limit) {high : Decimal}
    (hhigh : |high.toRat| ≤ limit) :
    ∃ loss, p.lossFrom high = .ok loss ∧ |loss.toRat| ≤ 10 ^ 23 := by
  have hbalance := hp.balance
  have hulp : ulp = 1 / 10 ^ 28 := rfl
  obtain ⟨move, hmove⟩ := Decimal.sub_ok (a := high) (b := p.balance) (by
    refine (abs_sub _ _).trans ?_
    linarith [hm.absolute])
  have hmove' := Decimal.abs_le_of_sub hmove
  have hquotient : |move.toRat / p.startingBalance.toRat| ≤ 3 * 10 ^ 22 := by
    rw [hp.starting, abs_div, abs_of_pos hm.start_pos, div_le_iff₀ hm.start_pos]
    rw [hulp] at hmove'
    have := hm.relative
    have := hm.start_pos
    linarith
  obtain ⟨loss, hloss⟩ := Decimal.div_ok (a := move) (b := p.startingBalance)
    (by rw [hp.starting]; exact hm.start_pos.ne') (hquotient.trans (by norm_num))
  refine ⟨loss, ?_, ?_⟩
  · rw [lossFrom, if_neg (not_startingBalance_le hm hp), hmove]
    exact hloss
  · have hloss' := Decimal.abs_le_of_div hloss
    rw [hulp] at hloss'
    linarith

private theorem haltReason?_ok (hp : p.InRange start limit) : ∃ halt, p.haltReason? = .ok halt := by
  rw [haltReason?, if_neg (not_startingBalance_le hm hp)]
  split
  · obtain ⟨loss, hloss, -⟩ := lossFrom_ok hm hp hp.peak
    exact ⟨_, bind_ok_iff.2 ⟨loss, hloss, rfl⟩⟩
  · exact ⟨none, rfl⟩

private theorem publish_yields_of_inRange (hp : p.InRange start limit) : publish.Yields p () p := by
  obtain ⟨loss, hloss, hle⟩ := lossFrom_ok hm hp hp.peak
  obtain ⟨halt, hhalt⟩ := haltReason?_ok hm hp
  obtain ⟨percent, hpercent⟩ := Decimal.mul_ok (a := loss) (b := .hundred) (by
    rw [Decimal.toRat_hundred, abs_mul, abs_of_pos (by norm_num : (0 : ℚ) < 100)]
    linarith)
  simp only [publish, yields_bind_iff, yields_get_iff, yields_notify_iff, yields_lift_iff]
  exact ⟨p, p, ⟨rfl, rfl⟩, (), p, rfl, percent, p, ⟨bind_ok_iff.2 ⟨loss, hloss, hpercent⟩, rfl⟩, (), p,
    rfl, halt, p, ⟨hhalt, rfl⟩, rfl⟩

end moderate

section movement

variable (hm : Moderate start limit') (hnext : (1 + ulp) * (limit + gain) ≤ limit')
include hm hnext

theorem reserve_total (hp : p.InRange start limit) (hsize : |size.toRat| ≤ gain) :
    (reserve size).Total p := by
  have hgain : 0 ≤ gain := (abs_nonneg _).trans hsize
  have hlimit : 0 ≤ limit := (abs_nonneg _).trans hp.balance
  have hle : limit + gain ≤ limit' := by nlinarith [ulp_pos]
  have hp' : p.InRange start limit' := hp.mono (by linarith)
  obtain ⟨halt, hhalt⟩ := haltReason?_ok hm hp'
  unfold reserve
  refine total_get_bind (total_lift_bind hhalt ?_)
  cases halt with
  | some reason => exact total_pure _ _
  | none =>
    obtain ⟨available, havailable⟩ := Decimal.sub_ok (a := p.balance) (b := p.committed) (by
      refine (abs_sub _ _).trans ?_
      linarith [hp'.balance, hp'.committed, hm.absolute])
    refine total_lift_bind havailable ?_
    split
    · exact total_pure _ _
    · obtain ⟨committed, hcommitted⟩ := Decimal.add_ok (a := p.committed) (b := size) (by
        refine (abs_add_le _ _).trans ?_
        linarith [hp.committed, hm.absolute])
      have hrange : ({ p with committed, openPositions := p.openPositions + 1 } : Portfolio).InRange
          start limit' :=
        { hp' with
          committed := rounded_le (Decimal.abs_le_of_add hcommitted) hp.committed hsize hnext }
      exact total_lift_bind hcommitted (total_set_bind
        ((publish_yields_of_inRange hm hrange).total_bind (total_pure _ _)))

theorem settle_total (hp : p.InRange start limit) (hsize : |size.toRat| ≤ gain)
    (hpnl : |pnl.toRat| ≤ gain) : (settle size pnl).Total p := by
  have hgain : 0 ≤ gain := (abs_nonneg _).trans hpnl
  have hlimit : 0 ≤ limit := (abs_nonneg _).trans hp.balance
  have hle : limit + gain ≤ limit' := by nlinarith [ulp_pos]
  have hsmall : limit + gain ≤ 10 ^ 28 := by linarith [hm.absolute]
  obtain ⟨committed, hcommitted⟩ := Decimal.sub_ok (a := p.committed) (b := size)
    (((abs_sub _ _).trans (add_le_add hp.committed hsize)).trans hsmall)
  obtain ⟨balance, hbalance⟩ := Decimal.add_ok (a := p.balance) (b := pnl)
    (((abs_add_le _ _).trans (add_le_add hp.balance hpnl)).trans hsmall)
  obtain ⟨realizedPnl, hrealized⟩ := Decimal.add_ok (a := p.realizedPnl) (b := pnl)
    (((abs_add_le _ _).trans (add_le_add hp.realized hpnl)).trans hsmall)
  obtain ⟨booked, hbook⟩ : ∃ booked, p.book size pnl = .ok booked := by
    rw [book, hcommitted, hbalance, hrealized]
    exact ⟨_, rfl⟩
  have hbooked := book_inRange hp hsize hpnl hnext hbook
  obtain ⟨tripped, htrips⟩ : ∃ tripped, booked.trips = .ok tripped := by
    unfold trips
    split
    · exact ⟨false, rfl⟩
    · obtain ⟨loss, hloss, -⟩ := lossFrom_ok hm hbooked hbooked.basis
      exact ⟨_, bind_ok_iff.2 ⟨loss, hloss, rfl⟩⟩
  have hrange : ({ booked with haltedForDrawdown := booked.haltedForDrawdown || tripped } :
      Portfolio).InRange start limit' :=
    ⟨hbooked.starting, hbooked.balance, hbooked.peak, hbooked.basis, hbooked.realized,
      hbooked.committed⟩
  obtain ⟨halt, hhalt⟩ := haltReason?_ok hm hrange
  unfold settle
  refine total_get_bind (total_lift_bind hbook (total_lift_bind htrips (total_set_bind
    ((publish_yields_of_inRange hm hrange).total_bind ?_))))
  split
  · exact total_lift hhalt _
  · exact total_pure _ _

end movement

theorem clearHalt_total (hm : Moderate start limit) (hp : p.InRange start limit) :
    clearHalt.Total p := by
  have hrange : ({ p with haltedForDrawdown := false, haltBasis := p.balance } : Portfolio).InRange
      start limit :=
    { hp with basis := hp.balance }
  exact Yields.total_bind (a := ()) (yields_modify_iff.2 rfl)
    (publish_yields_of_inRange hm hrange).total

end Portfolio

end SignalDesk
