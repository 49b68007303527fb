import SignalDesk.Proofs.Decimal.Sum
import SignalDesk.Proofs.Portfolio.Movements

/-!
# The drawdown halt

A portfolio keeps two high marks. The peak is the highest balance ever, and the halt basis is the
highest balance since the halt was last cleared. Trading is halted from the first settlement that
leaves a loss from the basis beyond the limit until the halt is cleared.
-/

namespace SignalDesk.Portfolio

open Act

/-- An amount of a list that no other amount of it exceeds. -/
def IsHighest (high : Decimal) (amounts : List Decimal) : Prop :=
  high ∈ amounts ∧ ∀ amount ∈ amounts, amount ≤ high

/-- The loss since the last clear is beyond the limit. -/
def ExceedsLimit (p : Portfolio) : Prop :=
  ∃ loss, p.drawdownSinceClear = .ok loss ∧ p.maxDrawdown < loss

private theorem isHighest_max {high mark balance : Decimal} {rest : List Decimal}
    (h : IsHighest high (mark.max balance :: rest)) : IsHighest high (mark :: balance :: rest) := by
  obtain ⟨hmem, hall⟩ := h
  have htop := hall _ List.mem_cons_self
  refine ⟨?_, ?_⟩
  · rcases List.mem_cons.1 hmem with rfl | hmem
    · rcases Decimal.max_eq_or mark balance with he | he <;> simp [he]
    · simp [hmem]
  · intro amount ha
    rcases List.mem_cons.1 ha with rfl | ha
    · exact Decimal.le_trans (Decimal.le_max_left _ _) htop
    · rcases List.mem_cons.1 ha with rfl | ha
      · exact Decimal.le_trans (Decimal.le_max_right _ _) htop
      · exact hall amount (List.mem_cons_of_mem _ ha)

theorem reserve_act_yields {size : Decimal} {p q : Portfolio}
    (h : (Movement.reserve size).act.Yields p () q) :
    ∃ committed openPositions, q = { p with committed, openPositions } := by
  rw [Movement.act, yields_bind_iff] at h
  obtain ⟨reply, _, h, hpure⟩ := h
  obtain ⟨-, rfl⟩ := yields_pure_iff.1 hpure
  rcases reserve_yields h with ⟨-, rfl⟩ | ⟨-, -, -, -, committed, -, rfl⟩
  · exact ⟨_, _, rfl⟩
  · exact ⟨_, _, rfl⟩

private theorem settle_act_yields {size pnl : Decimal} {p q : Portfolio}
    (h : (Movement.settle size pnl).act.Yields p () q) :
    ∃ reply, (settle size pnl).Yields p reply q := by
  rw [Movement.act, yields_bind_iff] at h
  obtain ⟨reply, _, h, hpure⟩ := h
  obtain ⟨-, rfl⟩ := yields_pure_iff.1 hpure
  exact ⟨reply, h⟩

private theorem settle_marks {size pnl : Decimal} {p q : Portfolio}
    (h : (Movement.settle size pnl).act.Yields p () q) :
    p.balance.add pnl = .ok q.balance ∧ q.peakBalance = p.peakBalance.max q.balance ∧
      q.haltBasis = p.haltBasis.max q.balance ∧ q.startingBalance = p.startingBalance ∧
      q.maxDrawdown = p.maxDrawdown := by
  obtain ⟨reply, h⟩ := settle_act_yields h
  obtain ⟨booked, tripped, hbook, -, rfl, -, -⟩ := settle_yields h
  obtain ⟨committed, balance, realizedPnl, -, hb, -, rfl⟩ := book_ok hbook
  exact ⟨hb, rfl, rfl, rfl, rfl⟩

private theorem trips_ok {p : Portfolio} {tripped : Bool} (h : p.trips = .ok tripped) :
    (p.haltedForDrawdown = true ∧ tripped = false) ∨
      (p.haltedForDrawdown = false ∧ (tripped = true ↔ p.ExceedsLimit)) := by
  unfold trips at h
  split at h <;> rename_i hhalted
  · exact .inl ⟨hhalted, (pure_ok_iff.1 h).symm⟩
  · rw [bind_ok_iff] at h
    obtain ⟨loss, hloss, h⟩ := h
    refine .inr ⟨by simpa using hhalted, ?_⟩
    rw [← pure_ok_iff.1 h, decide_eq_true_iff]
    constructor
    · intro hlt
      exact ⟨loss, hloss, hlt⟩
    · rintro ⟨loss', hloss', hlt⟩
      rw [hloss, Except.ok.injEq] at hloss'
      rwa [hloss']

/-- A settlement halts trading exactly when it ends beyond the limit, and never resumes it. -/
theorem settle_halted_iff {size pnl : Decimal} {p q : Portfolio}
    (h : (Movement.settle size pnl).act.Yields p () q) :
    q.haltedForDrawdown = true ↔ p.haltedForDrawdown = true ∨ q.ExceedsLimit := by
  obtain ⟨reply, h⟩ := settle_act_yields h
  obtain ⟨booked, tripped, hbook, htrips, rfl, -, -⟩ := settle_yields h
  obtain ⟨committed, balance, realizedPnl, -, -, -, rfl⟩ := book_ok hbook
  rcases trips_ok htrips with ⟨hhalted, rfl⟩ | ⟨hhalted, hiff⟩
  · have hp : p.haltedForDrawdown = true := hhalted
    simp [hp]
  · have hp : p.haltedForDrawdown = false := hhalted
    simp only [hp, Bool.false_or, Bool.false_eq_true, false_or]
    exact hiff

private theorem clearHalt_act_yields {p q : Portfolio} (h : Movement.clearHalt.act.Yields p () q) :
    q = { p with haltedForDrawdown := false, haltBasis := p.balance } :=
  (clearHalt_yields h).1

/-- A mark that settlements raise to the balance, and that other movements leave alone, is the highest
of where it stood and of the balances since. -/
theorem mark_isHighest (mark : Portfolio → Decimal) {movements : List Movement} {p q : Portfolio}
    (hkeep : ∀ movement ∈ movements, ∀ r r', movement.act.Yields r () r' →
      mark r' = if movement.isSettlement then (mark r).max r'.balance else mark r)
    (h : (replay movements).Yields p () q) :
    IsHighest (mark q) (mark p :: (p.settlements movements).map Portfolio.balance) := by
  induction movements generalizing p with
  | nil =>
    obtain ⟨-, rfl⟩ := yields_pure_iff.1 h
    exact ⟨List.mem_cons_self, by simp [settlements, Decimal.le_refl]⟩
  | cons movement movements ih =>
    obtain ⟨hact, hrest⟩ := replay_cons_yields h
    have hstep := hkeep movement List.mem_cons_self _ _ hact
    have htail := ih (fun m hm => hkeep m (List.mem_cons_of_mem _ hm)) hrest
    rw [settlements]
    cases hs : movement.isSettlement with
    | false =>
      rw [hs, if_neg (by decide)] at hstep
      rw [hstep] at htail
      simpa [hs] using htail
    | true =>
      rw [hs, if_pos rfl] at hstep
      rw [hstep] at htail
      exact isHighest_max htail

private theorem peakBalance_step (movement : Movement) (r r' : Portfolio)
    (h : movement.act.Yields r () r') :
    r'.peakBalance =
      if movement.isSettlement then r.peakBalance.max r'.balance else r.peakBalance := by
  cases movement with
  | reserve size =>
    obtain ⟨committed, openPositions, rfl⟩ := reserve_act_yields h
    rfl
  | settle size pnl => exact (settle_marks h).2.1
  | clearHalt =>
    rw [clearHalt_act_yields h]
    rfl

private theorem haltBasis_step (movement : Movement) (hclear : movement ≠ .clearHalt)
    (r r' : Portfolio) (h : movement.act.Yields r () r') :
    r'.haltBasis = if movement.isSettlement then r.haltBasis.max r'.balance else r.haltBasis := by
  cases movement with
  | reserve size =>
    obtain ⟨committed, openPositions, rfl⟩ := reserve_act_yields h
    rfl
  | settle size pnl => exact (settle_marks h).2.2.1
  | clearHalt => exact absurd rfl hclear

def SameTerms (p q : Portfolio) : Prop :=
  q.startingBalance = p.startingBalance ∧ q.maxDrawdown = p.maxDrawdown

theorem act_sameTerms {movement : Movement} {p q : Portfolio} (h : movement.act.Yields p () q) :
    p.SameTerms q := by
  cases movement with
  | reserve size =>
    obtain ⟨committed, openPositions, rfl⟩ := reserve_act_yields h
    exact ⟨rfl, rfl⟩
  | settle size pnl => exact (settle_marks h).2.2.2
  | clearHalt =>
    rw [clearHalt_act_yields h]
    exact ⟨rfl, rfl⟩

private theorem replay_sameTerms {movements : List Movement} {p q : Portfolio}
    (h : (replay movements).Yields p () q) : p.SameTerms q := by
  refine replay_preserves p.SameTerms ?_ h ⟨rfl, rfl⟩
  intro movement _ r r' hact hr
  have hstep := act_sameTerms hact
  exact ⟨hstep.1.trans hr.1, hstep.2.trans hr.2⟩

private theorem settlements_sameTerms {movements : List Movement} {p q : Portfolio}
    (h : (replay movements).Yields p () q) : ∀ r ∈ p.settlements movements, p.SameTerms r := by
  induction movements generalizing p with
  | nil =>
    intro r hr
    cases hr
  | cons movement movements ih =>
    obtain ⟨hact, hrest⟩ := replay_cons_yields h
    have hstep := act_sameTerms hact
    have htail (r : Portfolio) (hr : r ∈ (movement.act p).state.settlements movements) :
        p.SameTerms r :=
      ⟨(ih hrest r hr).1.trans hstep.1, (ih hrest r hr).2.trans hstep.2⟩
    intro r hr
    rw [settlements] at hr
    cases hs : movement.isSettlement with
    | false =>
      rw [hs, if_neg (by decide)] at hr
      exact htail r hr
    | true =>
      rw [hs, if_pos rfl] at hr
      rcases List.mem_cons.1 hr with rfl | hr
      · exact hstep
      · exact htail r hr

/-- Between two clears the halt flag remembers whether some settlement ended beyond the limit. -/
theorem replay_halted_iff {movements : List Movement} {p q : Portfolio}
    (hclear : Movement.clearHalt ∉ movements) (h : (replay movements).Yields p () q) :
    q.haltedForDrawdown = true ↔
      p.haltedForDrawdown = true ∨ ∃ r ∈ p.settlements movements, r.ExceedsLimit := by
  induction movements generalizing p with
  | nil =>
    obtain ⟨-, rfl⟩ := yields_pure_iff.1 h
    simp [settlements]
  | cons movement movements ih =>
    obtain ⟨hact, hrest⟩ := replay_cons_yields h
    rw [ih (fun hm => hclear (List.mem_cons_of_mem _ hm)) hrest]
    generalize (movement.act p).state = next at hact hrest
    have hnext : (movement.act p).state = next := hact.2
    cases movement with
    | reserve size =>
      obtain ⟨committed, openPositions, rfl⟩ := reserve_act_yields hact
      simp [settlements, Movement.isSettlement, hnext]
    | settle size pnl =>
      rw [settle_halted_iff hact]
      simp [settlements, Movement.isSettlement, hnext, or_assoc]
    | clearHalt => exact absurd List.mem_cons_self hclear

private theorem untilClear_cleared {movements : List Movement} {p cut : Portfolio}
    (hp : p.haltedForDrawdown = false ∧ p.haltBasis = p.balance)
    (h : (replay (Movement.untilClear movements)).Yields p () cut) :
    cut.haltedForDrawdown = false ∧ cut.haltBasis = cut.balance := by
  rcases Movement.untilClear_cases movements with hnil | ⟨earlier, hlast⟩
  · rw [hnil] at h
    obtain ⟨-, rfl⟩ := yields_pure_iff.1 h
    exact hp
  · rw [hlast] at h
    obtain ⟨-, hclear⟩ := replay_append_yields_iff.1 h
    obtain ⟨hact, hnil⟩ := replay_cons_yields hclear
    obtain ⟨-, rfl⟩ := yields_pure_iff.1 hnil
    rw [clearHalt_act_yields hact]
    exact ⟨rfl, rfl⟩

private theorem lossFrom_nonneg {p : Portfolio} {high loss : Decimal} (h : p.lossFrom high = .ok loss)
    (hle : p.balance ≤ high) : 0 ≤ loss.toRat := by
  unfold lossFrom at h
  split at h <;> rename_i hstart
  · rw [← pure_ok_iff.1 h, Decimal.toRat_zero]
  · rw [bind_ok_iff] at h
    obtain ⟨drop, hdrop, h⟩ := h
    rw [Decimal.le_iff_toRat, Decimal.toRat_zero, not_le] at hstart
    have hnonneg := Decimal.sub?_nonneg (orAbort_ok_iff.1 hdrop) hle
    exact Decimal.div?_nonneg (orAbort_ok_iff.1 h) hnonneg hstart

private theorem lossFrom_eq_zero {p : Portfolio} {high : Decimal} (h : high.toRat = p.balance.toRat) :
    p.lossFrom high = .ok .zero := by
  unfold lossFrom
  split <;> rename_i hstart
  · rfl
  · obtain ⟨drop, hdrop, hzero⟩ := Decimal.sub?_of_toRat_eq h
    have hb : p.startingBalance.isZero = false := by
      rw [Bool.eq_false_iff, ne_eq, Decimal.isZero_iff]
      rw [Decimal.le_iff_toRat, Decimal.toRat_zero, not_le] at hstart
      exact hstart.ne'
    rw [bind_ok_iff]
    refine ⟨drop, orAbort_ok_iff.2 hdrop, orAbort_ok_iff.2 ?_⟩
    exact Decimal.div?_of_isZero hzero hb

/-- The balance is at most the halt basis, the basis at most the peak, and the loss from the peak can
be computed. -/
structure MarksHold (p : Portfolio) : Prop where
  balance_le : p.balance ≤ p.haltBasis
  basis_le : p.haltBasis ≤ p.peakBalance
  measured : ∃ loss, p.drawdown = .ok loss

theorem act_measured {movement : Movement} {p q : Portfolio} (h : movement.act.Yields p () q)
    (hp : ∃ loss, p.drawdown = .ok loss) : ∃ loss, q.drawdown = .ok loss := by
  cases movement with
  | reserve size =>
    obtain ⟨committed, openPositions, rfl⟩ := reserve_act_yields h
    exact hp
  | settle size pnl =>
    obtain ⟨reply, h⟩ := settle_act_yields h
    obtain ⟨booked, tripped, -, -, -, hloss, -⟩ := settle_yields h
    exact hloss
  | clearHalt => exact (clearHalt_yields h).2

private theorem act_marksHold {movement : Movement} {p q : Portfolio} (h : movement.act.Yields p () q)
    (hp : p.MarksHold) : q.MarksHold := by
  refine ⟨?_, ?_, act_measured h hp.measured⟩
  · cases movement with
    | reserve size =>
      obtain ⟨committed, openPositions, rfl⟩ := reserve_act_yields h
      exact hp.balance_le
    | settle size pnl =>
      rw [(settle_marks h).2.2.1]
      exact Decimal.le_max_right _ _
    | clearHalt =>
      rw [clearHalt_act_yields h]
      exact Decimal.le_refl _
  · cases movement with
    | reserve size =>
      obtain ⟨committed, openPositions, rfl⟩ := reserve_act_yields h
      exact hp.basis_le
    | settle size pnl =>
      obtain ⟨-, hpeak, hbasis, -⟩ := settle_marks h
      have hle := (Decimal.le_iff_toRat _ _).1 hp.basis_le
      rw [hpeak, hbasis, Decimal.le_iff_toRat, Decimal.toRat_max, Decimal.toRat_max]
      exact max_le_max hle le_rfl
    | clearHalt =>
      rw [clearHalt_act_yields h]
      exact Decimal.le_trans hp.balance_le hp.basis_le

theorem ofSettings_marksHold {settings : PortfolioSettings} {start : Portfolio}
    (h : ofSettings settings = .ok start) : start.MarksHold := by
  obtain ⟨limit, -, rfl⟩ := ofSettings_ok h
  exact ⟨Decimal.le_refl _, Decimal.le_refl _, .zero, lossFrom_eq_zero rfl⟩

private theorem act_peak_le {movement : Movement} {p q : Portfolio} (h : movement.act.Yields p () q) :
    p.peakBalance ≤ q.peakBalance := by
  rw [peakBalance_step movement p q h]
  split
  · exact Decimal.le_max_left _ _
  · exact Decimal.le_refl _

/-- Trading goes on and no balance since the last clear was higher than this one. -/
def AtBasis (p : Portfolio) : Prop :=
  p.haltedForDrawdown = false ∧ p.haltBasis.toRat = p.balance.toRat

private theorem act_atBasis {movement : Movement} {p q : Portfolio} (h : movement.act.Yields p () q)
    (hgain : ∀ size pnl, movement = .settle size pnl → .zero ≤ pnl)
    (hlimit : 0 ≤ p.maxDrawdown.toRat) (hp : p.AtBasis) : q.AtBasis := by
  cases movement with
  | reserve size =>
    obtain ⟨committed, openPositions, rfl⟩ := reserve_act_yields h
    exact hp
  | settle size pnl =>
    obtain ⟨hadd, -, hbasis, -, hmax⟩ := settle_marks h
    have hpnl := (Decimal.zero_le_iff pnl).1 (hgain size pnl rfl)
    have hup := Decimal.le_add (orAbort_ok_iff.1 hadd) hpnl
    have hat : q.haltBasis.toRat = q.balance.toRat := by
      rw [hbasis, Decimal.toRat_max, hp.2]
      exact max_eq_right hup
    refine ⟨?_, hat⟩
    rw [Bool.eq_false_iff, ne_eq, settle_halted_iff h, not_or]
    refine ⟨by simp [hp.1], ?_⟩
    rintro ⟨loss, hloss, hlt⟩
    rw [drawdownSinceClear, lossFrom_eq_zero hat, Except.ok.injEq] at hloss
    rw [← hloss, Decimal.lt_iff_toRat, Decimal.toRat_zero, hmax] at hlt
    exact absurd hlt (not_lt.2 hlimit)
  | clearHalt =>
    rw [clearHalt_act_yields h]
    exact ⟨rfl, rfl⟩

private theorem replay_atBasis {movements : List Movement} {p q : Portfolio}
    (h : (replay movements).Yields p () q)
    (hgain : ∀ size pnl, Movement.settle size pnl ∈ movements → .zero ≤ pnl)
    (hlimit : 0 ≤ p.maxDrawdown.toRat) (hp : p.AtBasis) : q.AtBasis := by
  have hrun : q.AtBasis ∧ p.SameTerms q := by
    refine replay_preserves (fun r => r.AtBasis ∧ p.SameTerms r) ?_ h ⟨hp, rfl, rfl⟩
    rintro movement hm r r' hact ⟨hr, hterms⟩
    have hstep := act_sameTerms hact
    refine ⟨act_atBasis hact ?_ (by rw [hterms.2]; exact hlimit) hr,
      hstep.1.trans hterms.1, hstep.2.trans hterms.2⟩
    rintro size pnl rfl
    exact hgain size pnl hm
  exact hrun.1

/-- A settlement tells why trading is halted exactly when it is the one that halts it. -/
theorem settle_reply_iff {size pnl : Decimal} {p q : Portfolio} {reply : Option HaltReason}
    (hpos : 0 < p.startingBalance.toRat) (h : (settle size pnl).Yields p reply q) :
    reply.isSome = true ↔ p.haltedForDrawdown = false ∧ q.haltedForDrawdown = true := by
  obtain ⟨booked, tripped, hbook, htrips, rfl, -, hreply⟩ := settle_yields h
  obtain ⟨committed, balance, realizedPnl, -, -, -, rfl⟩ := book_ok hbook
  rcases trips_ok htrips with ⟨hhalted, rfl⟩ | ⟨hhalted, -⟩
  · have hp : p.haltedForDrawdown = true := hhalted
    rw [if_neg (by decide)] at hreply
    simp [hreply, hp]
  · have hp : p.haltedForDrawdown = false := hhalted
    cases tripped with
    | false =>
      rw [if_neg (by decide)] at hreply
      simp [hreply, hp]
    | true =>
      have hstart : ¬p.startingBalance ≤ .zero := by
        rw [Decimal.le_iff_toRat, Decimal.toRat_zero]
        exact not_le.2 hpos
      simp only [if_true, haltReason?, hstart, if_false, Bool.or_true, bind_ok_iff, pure_ok_iff]
        at hreply
      obtain ⟨loss, -, rfl⟩ := hreply
      simp [hp]

private theorem exceedsLimit_iff {settings : PortfolioSettings} {limit : Decimal} {p : Portfolio}
    (hpos : 0 < settings.startingBalance.toRat)
    (hlimit : settings.drawdownHaltPercent.div .hundred = .ok limit)
    (hstart : p.startingBalance = settings.startingBalance) (hmax : p.maxDrawdown = limit) :
    p.ExceedsLimit ↔ ∃ limit loss, settings.drawdownHaltPercent.div .hundred = .ok limit ∧
      (p.haltBasis.sub p.balance >>= fun drop => drop.div settings.startingBalance) = .ok loss ∧
      limit < loss := by
  have hnonpos : ¬settings.startingBalance ≤ .zero := by
    rw [Decimal.le_iff_toRat, Decimal.toRat_zero]
    exact not_le.2 hpos
  unfold ExceedsLimit drawdownSinceClear lossFrom
  rw [hstart, hmax, if_neg hnonpos]
  constructor
  · rintro ⟨loss, hloss, hlt⟩
    exact ⟨limit, loss, hlimit, hloss, hlt⟩
  · rintro ⟨limit', loss, hlimit', hloss, hlt⟩
    rw [hlimit, Except.ok.injEq] at hlimit'
    exact ⟨loss, hloss, hlimit' ▸ hlt⟩

private theorem limit_nonneg {percent limit : Decimal} (hpercent : .zero ≤ percent)
    (hlimit : percent.div .hundred = .ok limit) : 0 ≤ limit.toRat := by
  refine Decimal.div?_nonneg (orAbort_ok_iff.1 hlimit) ((Decimal.zero_le_iff _).1 hpercent) ?_
  norm_num [Decimal.toRat, Decimal.hundred, Decimal.mantissa]

private theorem gains_not_halted {p q : Portfolio} {gains : List Movement}
    (hlimit : 0 ≤ p.maxDrawdown.toRat)
    (hgains : ∀ size pnl, Movement.settle size pnl ∈ gains → .zero ≤ pnl)
    (h : (replay (.clearHalt :: gains)).Yields p () q) : q.haltedForDrawdown = false := by
  obtain ⟨hact, hrest⟩ := replay_cons_yields h
  have hterms := act_sameTerms hact
  refine (replay_atBasis hrest hgains ?_ ?_).1
  · rwa [hterms.2]
  · rw [clearHalt_act_yields hact]
    exact ⟨rfl, rfl⟩

/-- The marks and the latch after any run of movements. The peak is the highest balance ever and
never falls. The halt basis is the highest balance since the last clear. Trading is halted if and only
if some settlement since then ended with a loss from the basis beyond the limit, and the settlement
that halts it is the one that says so. After a clear, gains cannot halt it. -/
theorem marks_and_latch_of_history {settings : PortfolioSettings} {start : Portfolio}
    (hpos : .zero < settings.startingBalance) (hpercent : .zero ≤ settings.drawdownHaltPercent)
    (hstart : ofSettings settings = .ok start) {movements : List Movement}
    (hrun : (replay movements start).outcome = .ok ()) :
    let cut := (replay (Movement.untilClear movements) start).state
    let since := cut.settlements (Movement.sinceClear movements)
    let now := (replay movements start).state
    IsHighest now.peakBalance
        (settings.startingBalance :: (start.settlements movements).map Portfolio.balance) ∧
      (∀ (movement : Movement) next, movement.act.Yields now () next →
        now.peakBalance ≤ next.peakBalance) ∧
      IsHighest now.haltBasis (cut.balance :: since.map Portfolio.balance) ∧
      now.balance ≤ now.haltBasis ∧ now.haltBasis ≤ now.peakBalance ∧
      (∃ loss, now.drawdown = .ok loss ∧ .zero ≤ loss) ∧
      (now.haltedForDrawdown = true ↔ ∃ p ∈ since, ∃ limit loss,
        settings.drawdownHaltPercent.div .hundred = .ok limit ∧
        (p.haltBasis.sub p.balance >>= fun drop => drop.div settings.startingBalance) = .ok loss ∧
        limit < loss) ∧
      (∀ size pnl reply next, (settle size pnl).Yields now reply next →
        (reply.isSome = true ↔ now.haltedForDrawdown = false ∧ next.haltedForDrawdown = true)) ∧
      ∀ gains, (∀ size pnl, .settle size pnl ∈ gains → .zero ≤ pnl) →
        (replay (.clearHalt :: gains) now).outcome = .ok () →
        (replay (.clearHalt :: gains) now).state.haltedForDrawdown = false := by
  intro cut since now
  obtain ⟨limit, hlimit, hinit⟩ := ofSettings_ok hstart
  have hfull : (replay movements).Yields start () now := yields_of_outcome hrun
  have hsplit : (replay (Movement.untilClear movements ++ Movement.sinceClear movements)).Yields start
      () now := by
    rwa [Movement.untilClear_append_sinceClear]
  obtain ⟨hearlier, hsince⟩ := replay_append_yields_iff.1 hsplit
  change (replay (Movement.sinceClear movements)).Yields cut () now at hsince
  have hpos' : 0 < settings.startingBalance.toRat := by
    rwa [Decimal.lt_iff_toRat, Decimal.toRat_zero] at hpos
  have hterms : now.startingBalance = settings.startingBalance ∧ now.maxDrawdown = limit := by
    have hsame := replay_sameTerms hfull
    rw [hsame.1, hsame.2, hinit]
    exact ⟨rfl, rfl⟩
  have hmarks : now.MarksHold :=
    replay_preserves MarksHold (fun _ _ _ _ hact => act_marksHold hact) hfull
      (ofSettings_marksHold hstart)
  have hcleared : cut.haltedForDrawdown = false ∧ cut.haltBasis = cut.balance := by
    refine untilClear_cleared ?_ hearlier
    rw [hinit]
    exact ⟨rfl, rfl⟩
  refine ⟨?_, fun movement next h => act_peak_le h, ?_, hmarks.balance_le, hmarks.basis_le, ?_, ?_,
    fun size pnl reply next h => settle_reply_iff (by rwa [hterms.1]) h, ?_⟩
  · have hpeak := mark_isHighest peakBalance (fun m _ r r' => peakBalance_step m r r') hfull
    rwa [show start.peakBalance = settings.startingBalance by rw [hinit]] at hpeak
  · have hclear (movement : Movement) (hm : movement ∈ Movement.sinceClear movements) :
        movement ≠ .clearHalt := by
      rintro rfl
      exact Movement.clearHalt_not_mem_sinceClear movements hm
    have hbasis := mark_isHighest haltBasis (fun m hm r r' => haltBasis_step m (hclear m hm) r r') hsince
    rwa [hcleared.2] at hbasis
  · obtain ⟨loss, hloss⟩ := hmarks.measured
    refine ⟨loss, hloss, (Decimal.zero_le_iff loss).2 (lossFrom_nonneg hloss ?_)⟩
    exact Decimal.le_trans hmarks.balance_le hmarks.basis_le
  · rw [replay_halted_iff (Movement.clearHalt_not_mem_sinceClear movements) hsince, hcleared.1]
    simp only [Bool.false_eq_true, false_or]
    refine exists_congr fun p => and_congr_right fun hp => ?_
    have hcut := replay_sameTerms hearlier
    have hsame := settlements_sameTerms hsince p hp
    apply exceedsLimit_iff hpos' hlimit
    · rw [hsame.1, hcut.1, hinit]
    · rw [hsame.2, hcut.2, hinit]
  · intro gains hgains hok
    apply gains_not_halted _ hgains (yields_of_outcome hok)
    rw [hterms.2]
    exact limit_nonneg hpercent hlimit

/-- A loss is cleared, a later loss alone stays within the limit, and one more exceeds it. -/
theorem marks_and_latch_of_three_losses :
    let movements : List Movement := [.settle (.ofInt64 100) (.ofInt64 (-60)), .clearHalt,
      .reserve (.ofInt64 100), .settle (.ofInt64 100) (.ofInt64 (-50)),
      .settle (.ofInt64 100) (.ofInt64 (-10))]
    ∃ start, ofSettings {} = .ok start ∧ (replay movements start).outcome = .ok () ∧
      IsHighest (replay movements start).state.peakBalance
        (.ofInt64 500 :: (start.settlements movements).map Portfolio.balance) ∧
      (replay movements start).state.haltedForDrawdown = true := by
  intro movements
  have hrun : ∃ start, ofSettings {} = .ok start ∧ (replay movements start).outcome = .ok () ∧
      (replay movements start).state.haltedForDrawdown = true :=
    exists_ok_of_any (by decide +kernel)
  obtain ⟨start, hstart, hrun, hhalted⟩ := hrun
  obtain ⟨hpeak, -⟩ := marks_and_latch_of_history (by decide) (by decide) hstart hrun
  exact ⟨start, hstart, hrun, hpeak, hhalted⟩

end SignalDesk.Portfolio
