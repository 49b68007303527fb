import SignalDesk.Proofs.Bounds
import SignalDesk.Proofs.Float.Positive
import SignalDesk.Proofs.Signal.Mirror
import SignalDesk.Proofs.Tape.Trades

/-!
# Bursts among all trades

Clustering looks at the trades of a window and at the one trade before them. What it finds can be said
of all trades that the tape holds: a burst starts with the window and after every long silence, and the
silence before a burst is the one before its first trade among all trades, also where the window starts
in the middle of a burst.
-/

namespace SignalDesk

open FloatValue

namespace TradeClustering

/-- The seconds of silence before the trade at a place, if a trade comes before it. -/
def silence? (trades : List Trade) : ℕ → Option Float
  | 0 => none
  | i + 1 => trades[i]?.bind fun earlier => trades[i + 1]?.map (secondsBetween earlier)

private theorem silence?_append (before : List Trade) (trade : Trade) (after : List Trade) :
    silence? (before ++ trade :: after) before.length =
      before.getLast?.map fun earlier => secondsBetween earlier trade := by
  rcases List.eq_nil_or_concat' before with rfl | ⟨earlier, last, rfl⟩
  · rfl
  · simp [silence?]

/-- A burst whose first trade is the one at place `i`. -/
def Starts (bursts : List Burst) (i : ℕ) (burst : Burst) : Prop :=
  ∃ earlier later, bursts = earlier ++ burst :: later ∧ (earlier.flatMap Burst.trades).length = i

private theorem not_starts_nil {i : ℕ} {burst : Burst} : ¬Starts [] i burst := by
  rintro ⟨earlier, later, h, -⟩
  simp at h

private theorem starts_cons {first burst : Burst} {bursts : List Burst} {i : ℕ} :
    Starts (first :: bursts) i burst ↔
      i = 0 ∧ burst = first ∨ ∃ j, i = first.trades.length + j ∧ Starts bursts j burst := by
  constructor
  · rintro ⟨earlier, later, h, rfl⟩
    cases earlier with
    | nil =>
      obtain ⟨rfl, -⟩ := List.cons_eq_cons.1 h
      exact .inl ⟨rfl, rfl⟩
    | cons b earlier =>
      obtain ⟨rfl, hrest⟩ := List.cons_eq_cons.1 h
      refine .inr ⟨_, ?_, earlier, later, hrest, rfl⟩
      rw [List.flatMap_cons, List.length_append]
  · rintro (⟨rfl, rfl⟩ | ⟨j, rfl, earlier, later, rfl, rfl⟩)
    · exact ⟨[], bursts, rfl, rfl⟩
    · refine ⟨first :: earlier, later, rfl, ?_⟩
      rw [List.flatMap_cons, List.length_append]

private theorem exists_starts_cons {first : Burst} {bursts : List Burst} {i : ℕ} :
    (∃ burst, Starts (first :: bursts) i burst) ↔
      i = 0 ∨ ∃ j, i = first.trades.length + j ∧ ∃ burst, Starts bursts j burst := by
  simp only [starts_cons, exists_or, exists_and_left, exists_eq, and_true]
  rw [exists_comm]
  simp only [exists_and_left]

private theorem Starts.le_of_last {earlier later : List Burst} {burst other : Burst} {j : ℕ}
    (h : Starts (earlier ++ burst :: later) j other) (hlater : other ∉ later) :
    j ≤ (earlier.flatMap Burst.trades).length := by
  obtain ⟨earlier', later', heq, rfl⟩ := h
  rcases List.append_eq_append_iff.1 heq with ⟨middle, rfl, hmiddle⟩ | ⟨middle, rfl, -⟩
  · cases middle with
    | nil => simp
    | cons b middle =>
      obtain ⟨-, rfl⟩ := List.cons_eq_cons.1 hmiddle
      simp at hlater
  · simp

section

variable {maxGap : Float}

theorem isChain_spanBurst (previous : Trade) (trades : List Trade) :
    (previous :: (spanBurst maxGap previous trades).1).IsChain
      fun a b => secondsBetween a b ≤ maxGap := by
  induction trades generalizing previous with
  | nil => exact List.isChain_singleton previous
  | cons trade trades ih =>
    unfold spanBurst
    split
    · rename_i hshort
      exact List.isChain_cons_cons.2 ⟨hshort, ih trade⟩
    · exact List.isChain_singleton previous

private theorem spanBurst_stops (maxGap : Float) (previous : Trade) (trades : List Trade) :
    ∀ next ∈ (spanBurst maxGap previous trades).2.head?,
      ¬secondsBetween ((spanBurst maxGap previous trades).1.getLastD previous) next ≤ maxGap := by
  induction trades generalizing previous with
  | nil => rintro next ⟨⟩
  | cons trade trades ih =>
    unfold spanBurst
    split
    · rw [List.getLastD_cons]
      exact ih trade
    · rename_i hlong
      rintro next ⟨⟩
      exact hlong

private theorem trades_append_spanBurst (maxGap : Float) (quietBefore : Option Float) (first : Trade)
    (trades : List Trade) :
    Burst.trades ⟨first, (spanBurst maxGap first trades).1, quietBefore⟩ ++
      (spanBurst maxGap first trades).2 = first :: trades :=
  congrArg (List.cons first) (spanBurst_append maxGap first trades)

theorem flatMap_segment (maxGap : Float) (prior : Option Trade) (trades : List Trade) :
    (segment maxGap prior trades).flatMap Burst.trades = trades := by
  induction prior, trades using segment.induct maxGap with
  | case1 prior => simp only [segment, List.flatMap_nil]
  | case2 prior first trades split burst ih =>
    have hwhole : burst.trades ++ split.2 = first :: trades :=
      trades_append_spanBurst maxGap _ first trades
    rw [segment, List.flatMap_cons]
    exact (congrArg (burst.trades ++ ·) ih).trans hwhole

private theorem silence?_inside {trades : List Trade}
    (h : trades.IsChain fun a b => secondsBetween a b ≤ maxGap) (before after : List Trade) {i : ℕ}
    (hpos : 0 < i) (hi : i < trades.length) :
    ∀ gap ∈ silence? (before ++ trades ++ after) (before.length + i), gap ≤ maxGap := by
  have hsplit : trades = trades.take i ++ trades[i] :: trades.drop (i + 1) := by
    rw [← List.drop_eq_getElem_cons hi, List.take_append_drop]
  have hlength : before.length + i = (before ++ trades.take i).length := by
    rw [List.length_append, List.length_take, Nat.min_eq_left hi.le]
  have hnonempty : trades.take i ≠ [] := by
    rw [← List.length_pos_iff, List.length_take]
    omega
  rw [hsplit] at h
  obtain ⟨-, -, hjoint⟩ := List.isChain_append.1 h
  have hwhole : before ++ trades ++ after =
      before ++ trades.take i ++ trades[i] :: (trades.drop (i + 1) ++ after) := by
    conv_lhs => rw [hsplit]
    simp only [List.append_assoc, List.cons_append]
  rw [hwhole, hlength, silence?_append, List.getLast?_append_of_ne_nil _ hnonempty]
  rintro gap hgap
  obtain ⟨earlier, hearlier, rfl⟩ := Option.map_eq_some_iff.1 hgap
  exact hjoint earlier hearlier trades[i] rfl

private theorem getLast?_trades (before : List Trade) (burst : Burst) :
    (before ++ burst.trades).getLast? = some burst.last := by
  rw [Burst.trades, List.getLast?_append_of_ne_nil _ (List.cons_ne_nil _ _), List.getLast?_cons,
    Burst.last, List.getLastD_eq_getLast?]

private theorem silence?_after (before : List Trade) (burst : Burst) (next : Trade)
    (after : List Trade) :
    silence? (before ++ burst.trades ++ next :: after) (before.length + burst.trades.length) =
      some (secondsBetween burst.last next) := by
  rw [← List.length_append, silence?_append, getLast?_trades]
  rfl

/-- A burst starts at the first trade and at every trade after a long silence. -/
theorem starts_segment_iff {before trades : List Trade} {prior : Option Trade}
    (hprior : before.getLast? = prior)
    (hcomparable : ∀ i, ∀ gap ∈ silence? (before ++ trades) i, ¬gap ≤ maxGap → maxGap < gap)
    {i : ℕ} (hi : i < trades.length) :
    (∃ burst, Starts (segment maxGap prior trades) i burst) ↔
      i = 0 ∨ ∃ gap ∈ silence? (before ++ trades) (before.length + i), maxGap < gap := by
  induction prior, trades using segment.induct maxGap generalizing before i with
  | case1 prior => simp at hi
  | case2 prior first trades split burst =>
    rename_i ih
    have hwhole : burst.trades ++ split.2 = first :: trades :=
      trades_append_spanBurst maxGap _ first trades
    have hstarts : segment maxGap prior (first :: trades) =
        burst :: segment maxGap (some burst.last) split.2 := by
      rw [segment]
    rw [← hwhole, ← List.append_assoc] at hcomparable
    rw [← hwhole, List.length_append] at hi
    rw [hstarts, exists_starts_cons, ← hwhole, ← List.append_assoc]
    apply or_congr_right'
    intro hpos
    rcases Nat.lt_or_ge i burst.trades.length with hinside | hbeyond
    · -- no silence inside the burst is long
      refine iff_of_false ?_ ?_
      · rintro ⟨k, rfl, -⟩
        omega
      · rintro ⟨gap, hgap, hlong⟩
        exact float_not_lt_of_le (silence?_inside (isChain_spanBurst first trades) before split.2
          (Nat.pos_of_ne_zero hpos) hinside gap hgap) hlong
    · obtain ⟨k, rfl⟩ := Nat.exists_eq_add_of_le hbeyond
      have hrest := ih (getLast?_trades before burst) hcomparable (i := k) (by omega)
      rw [List.length_append, Nat.add_assoc] at hrest
      -- the next burst starts after a long silence as well
      have hnext : k = 0 → ∃ gap ∈ silence? (before ++ burst.trades ++ split.2)
          (before.length + (burst.trades.length + k)), maxGap < gap := by
        rintro rfl
        have hstops := spanBurst_stops maxGap first trades
        cases hsplit : split.2 with
        | nil => simp [hsplit] at hi
        | cons next after =>
          rw [hsplit] at hcomparable
          have hsilence := silence?_after before burst next after
          exact ⟨_, hsilence, hcomparable _ _ hsilence (hstops next (by rw [hsplit]; rfl))⟩
      rw [or_iff_right_of_imp hnext] at hrest
      rw [← hrest]
      simp only [Nat.add_left_cancel_iff, exists_eq_left']

private theorem quietBefore_of_starts {before trades : List Trade} {prior : Option Trade}
    (hprior : before.getLast? = prior) {i : ℕ} {burst : Burst}
    (h : Starts (segment maxGap prior trades) i burst) :
    burst.quietBefore = silence? (before ++ trades) (before.length + i) := by
  induction prior, trades using segment.induct maxGap generalizing before i with
  | case1 prior =>
    rw [segment] at h
    exact (not_starts_nil h).elim
  | case2 prior first trades split newest =>
    rename_i ih
    have hwhole : newest.trades ++ split.2 = first :: trades :=
      trades_append_spanBurst maxGap _ first trades
    have hstarts : segment maxGap prior (first :: trades) =
        newest :: segment maxGap (some newest.last) split.2 := by
      rw [segment]
    rw [hstarts, starts_cons] at h
    rcases h with ⟨rfl, rfl⟩ | ⟨k, rfl, hrest⟩
    · rw [Nat.add_zero, silence?_append, hprior]
    · rw [ih (getLast?_trades before newest) hrest, List.length_append, Nat.add_assoc,
        List.append_assoc, hwhole]

end

end TradeClustering

namespace Reading

private theorem bounded_pos {x : Float} (hx : x.isFinite = true) (hpos : 0 < value x)
    (confidence : Float) (reason : String) : 0.0 < (bounded x confidence reason).score := by
  have hclamp := clamp_isFinite isFinite_neg_one isFinite_one hx
  rw [score_bounded, if_pos hx, lt_iff isFinite_zero hclamp,
    value_clamp isFinite_neg_one isFinite_one hx (by simp)]
  simp [hpos]

private theorem bounded_neg {x : Float} (hx : x.isFinite = true) (hneg : value x < 0)
    (confidence : Float) (reason : String) : (bounded x confidence reason).score < 0.0 := by
  have hclamp := clamp_isFinite isFinite_neg_one isFinite_one hx
  rw [score_bounded, if_pos hx, lt_iff hclamp isFinite_zero,
    value_clamp isFinite_neg_one isFinite_one hx (by simp)]
  simp [hneg]

private theorem silent_not_fired (reason : String) : ¬(silent reason).fired = true := by
  show ¬((0.0 : Float) != 0.0) = true
  decide +kernel

theorem fired_of_side {reading : Reading} (h : 0.0 < reading.score ∨ reading.score < 0.0) :
    reading.fired = true := by
  rw [fired, bne, Bool.not_eq_true', Bool.eq_false_iff]
  intro hzero
  obtain ⟨s, hunpack⟩ := unpack_of_beq_zero hzero
  have hnone : (0.0 : Float).toModel.unpack = .zero .positive := rfl
  rw [lt_iff_unpacked, lt_iff_unpacked, hunpack, hnone] at h
  rcases h with h | h <;> cases h

end Reading

theorem FloatValue.sizable_toFloat {n : UInt64} (hpos : 0 < n.toNat) : Sizable 64 n.toFloat := by
  have hone : (1 : ℚ) ≤ n.toNat := by exact_mod_cast hpos
  have hlt : (n.toNat : ℚ) ≤ 2 ^ 64 := by exact_mod_cast n.toNat_lt.le
  exact (places_toFloat n).sizable (by norm_num) (le_trans (by norm_num) hone) hlt

private theorem FloatValue.sizable_seconds {span : Span} {k : ℕ} (hk : k ≤ 961) (hpos : 0 < span)
    (hle : span ≤ 2 ^ k) : Sizable (k + 10) (Span.seconds span) := by
  obtain ⟨n, rfl⟩ := Int.eq_ofNat_of_zero_le hpos.le
  have hone : (1 : ℚ) ≤ n := by exact_mod_cast hpos
  have hbound : (n : ℚ) ≤ 2 ^ k := by exact_mod_cast hle
  have hcount : Sizable k (Float.ofNat n) :=
    (places_ofNat n).sizable (by omega)
      ((inv_le_one_of_one_le₀ (one_le_pow₀ one_le_two)).trans hone) hbound
  have hthousand : Sizable 10 (Float.ofNat 1000) :=
    (places_ofNat 1000).sizable (by norm_num) (by norm_num) (by norm_num)
  exact hcount.div hthousand (by omega)

namespace TradeClustering

private theorem totalOn_first_pos {burst : Burst}
    (hcounts : ∀ trade ∈ burst.trades, 0 < trade.count.toNat) :
    0 < totalOn burst.trades burst.first.side := by
  have hfirst := hcounts burst.first List.mem_cons_self
  have hsum : burst.first.count.toNat ≤ contractsOn burst.trades burst.first.side := by
    simp [contractsOn, Burst.trades]
  unfold totalOn
  have : 0 < UInt64.size - 1 := by decide
  omega

private theorem sizable_intensity {burst : Burst} (hnonneg : 0 ≤ burst.last.ts - burst.first.ts)
    (hle : burst.last.ts - burst.first.ts ≤ maxSpan) :
    Sizable 45 (if burst.seconds ≤ 0.0 then 1.0
      else FloatOrder.min (Float.ofNat burst.trades.length / burst.seconds) 1.0) := by
  split
  · exact sizable_one.mono (Nat.zero_le 45)
  · rename_i hlasting
    have hpos : 0 < burst.last.ts - burst.first.ts := by
      refine lt_of_le_of_ne hnonneg fun hzero => hlasting ?_
      show Span.seconds (burst.last.ts - burst.first.ts) ≤ 0.0
      rw [← hzero]
      decide +kernel
    have hcount : 1.0 ≤ Float.ofNat burst.trades.length := by
      apply (places_ofNat burst.trades.length).ge 1.0 isFinite_one
      rw [value_one]
      exact_mod_cast Nat.succ_pos burst.rest.length
    have hseconds : Sizable 45 burst.seconds :=
      sizable_seconds (k := 35) (by norm_num) hpos (hle.trans (by decide))
    obtain ⟨low, hlow, hquotient⟩ := exists_le_div hcount hseconds (by norm_num)
    exact hlow.min_one hquotient

/-- The side of a reading is that with more contracts, YES if there are as many on both. -/
theorem readBurst_side (settings : TradeClusteringSettings) {burst : Burst}
    (hcounts : ∀ trade ∈ burst.trades, 0 < trade.count.toNat)
    (hnonneg : 0 ≤ burst.last.ts - burst.first.ts)
    (hle : burst.last.ts - burst.first.ts ≤ maxSpan) :
    (totalOn burst.trades .no ≤ totalOn burst.trades .yes → 0.0 < (readBurst settings burst).score) ∧
      (totalOn burst.trades .yes < totalOn burst.trades .no → (readBurst settings burst).score < 0.0) := by
  have hyes : (SideTotals.ofTrades burst.trades).yes.toNat = totalOn burst.trades .yes :=
    SideTotals.toNat_ofTrades burst.trades .yes
  have hno : (SideTotals.ofTrades burst.trades).no.toNat = totalOn burst.trades .no :=
    SideTotals.toNat_ofTrades burst.trades .no
  have hpos : 0 < max (totalOn burst.trades .yes) (totalOn burst.trades .no) := by
    have hfirst := totalOn_first_pos hcounts
    cases hside : burst.first.side <;> rw [hside] at hfirst
    · exact lt_max_of_lt_left hfirst
    · exact lt_max_of_lt_right hfirst
  unfold readBurst
  generalize SideTotals.ofTrades burst.trades = totals at hyes hno
  rw [← hyes, ← hno] at hpos ⊢
  have hlarger : totals.larger.toNat = max totals.yes.toNat totals.no.toNat := totals.toNat_larger
  have htotal : 0 < totals.total.toNat := by
    rw [SideTotals.total, Contracts.toNat_add]
    exact lt_min (by omega) (by decide)
  have hnonzero : totals.total ≠ 0 := fun hzero => by
    rw [hzero] at htotal
    exact absurd htotal (by decide)
  simp only [if_neg hnonzero]
  have hdominance := (sizable_toFloat (hlarger ▸ hpos)).div (sizable_toFloat htotal) (by norm_num)
  have hintensity := sizable_intensity hnonneg hle
  have hscore := (sizable_one.mul hdominance (by norm_num)).mul hintensity (by norm_num)
  constructor
  · intro hle
    have hside : totals.dominant = .yes := if_neg (by rw [UInt64.lt_iff_toNat_lt]; omega)
    rw [hside]
    exact Reading.bounded_pos hscore.finite hscore.pos _ _
  · intro hlt
    have hside : totals.dominant = .no := if_pos (UInt64.lt_iff_toNat_lt.2 hlt)
    have hsign : Side.no.sign = -1.0 := rfl
    rw [hside, hsign, float_neg_mul, float_neg_mul]
    refine Reading.bounded_neg ?_ ?_ _ _
    · rw [isFinite_neg]
      exact hscore.finite
    · rw [value_neg]
      exact neg_lt_zero.2 hscore.pos

private theorem readBurst_side_iff (settings : TradeClusteringSettings) {burst : Burst}
    (hcounts : ∀ trade ∈ burst.trades, 0 < trade.count.toNat)
    (hnonneg : 0 ≤ burst.last.ts - burst.first.ts)
    (hle : burst.last.ts - burst.first.ts ≤ maxSpan) :
    (0.0 < (readBurst settings burst).score ↔ totalOn burst.trades .no ≤ totalOn burst.trades .yes) ∧
      ((readBurst settings burst).score < 0.0 ↔ totalOn burst.trades .yes < totalOn burst.trades .no) := by
  obtain ⟨hyes, hno⟩ := readBurst_side settings hcounts hnonneg hle
  refine ⟨⟨fun hpos => not_lt.1 fun hlt => ?_, hyes⟩, fun hneg => not_le.1 fun hle => ?_, hno⟩
  · exact float_not_lt_of_le (float_le_of_lt hpos) (hno hlt)
  · exact float_not_lt_of_le (float_le_of_lt hneg) (hyes hle)

/-- A burst of enough trades that breaks a silence, its first trade being the one at place `i` of the
window and at place `offset + i` of all trades. -/
structure Urgent (settings : TradeClusteringSettings) (all : List Trade) (offset : ℕ)
    (bursts : List Burst) (i : ℕ) (burst : Burst) : Prop where
  starts : Starts bursts i burst
  long : settings.minBurstTrades.toNat ≤ burst.trades.length
  quiet : ∃ gap ∈ silence? all (offset + i), settings.quietThresholdSec ≤ gap

private theorem urgent_iff (settings : TradeClusteringSettings) {before : List Trade}
    {prior : Option Trade}
    (hprior : before.getLast? = prior) (trades : List Trade) (i : ℕ) (burst : Burst) :
    Urgent settings (before ++ trades) before.length (segment settings.burstGapSec prior trades) i
        burst ↔
      Starts (segment settings.burstGapSec prior trades) i burst ∧ qualifies settings burst = true := by
  have hqualifies (hstarts : Starts (segment settings.burstGapSec prior trades) i burst) :
      qualifies settings burst = true ↔ settings.minBurstTrades.toNat ≤ burst.trades.length ∧
        ∃ gap ∈ silence? (before ++ trades) (before.length + i), settings.quietThresholdSec ≤ gap := by
    rw [← quietBefore_of_starts hprior hstarts, qualifies, Bool.and_eq_true, decide_eq_true_iff,
      Option.any_eq_true]
    simp only [Option.mem_def, decide_eq_true_iff]
  constructor
  · rintro ⟨hstarts, hlong, hquiet⟩
    exact ⟨hstarts, (hqualifies hstarts).2 ⟨hlong, hquiet⟩⟩
  · rintro ⟨hstarts, h⟩
    exact ⟨hstarts, ((hqualifies hstarts).1 h).1, ((hqualifies hstarts).1 h).2⟩

private theorem find?_reverse_cases (settings : TradeClusteringSettings) (bursts : List Burst) :
    (bursts.reverse.find? (qualifies settings) = none ∧
        ∀ i burst, ¬(Starts bursts i burst ∧ qualifies settings burst = true)) ∨
      ∃ i burst, bursts.reverse.find? (qualifies settings) = some burst ∧
        (Starts bursts i burst ∧ qualifies settings burst = true) ∧
        ∀ j other, Starts bursts j other → qualifies settings other = true → j ≤ i := by
  cases hfind : bursts.reverse.find? (qualifies settings) with
  | none =>
    refine .inl ⟨rfl, ?_⟩
    rintro i burst ⟨⟨earlier, later, rfl, -⟩, hqualifies⟩
    exact List.find?_eq_none.1 hfind burst (by simp) hqualifies
  | some burst =>
    obtain ⟨hqualifies, newer, older, hsplit, hnewer⟩ := List.find?_eq_some_iff_append.1 hfind
    have hbursts : bursts = older.reverse ++ burst :: newer.reverse := by
      rw [← List.reverse_reverse bursts, hsplit]
      simp
    refine .inr ⟨_, burst, rfl, ⟨⟨older.reverse, newer.reverse, hbursts, rfl⟩, hqualifies⟩, ?_⟩
    intro j other hstarts hother
    rw [hbursts] at hstarts
    refine hstarts.le_of_last fun hmem => ?_
    have hfails := hnewer other (List.mem_reverse.1 hmem)
    rw [hother] at hfails
    cases hfails

/-- What is read of a window, if every burst would fire. -/
theorem read_of_bursts (settings : TradeClusteringSettings) {window : Span} (tape : Tape)
    {bursts : List Burst}
    (hbursts : segment settings.burstGapSec (tape.lastTradeBefore? window) (tape.tradesWithin window) =
      bursts)
    (hfires : ∀ i burst, Starts bursts i burst → (readBurst settings burst).fired = true) :
    ((read settings window tape).fired = true ↔
        settings.minBurstTrades.toNat ≤ (tape.tradesWithin window).length ∧
          ∃ i burst, Starts bursts i burst ∧ qualifies settings burst = true) ∧
      ((read settings window tape).fired = true →
        ∃ i burst, (Starts bursts i burst ∧ qualifies settings burst = true) ∧
          (∀ j other, Starts bursts j other → qualifies settings other = true → j ≤ i) ∧
          read settings window tape = readBurst settings burst) := by
  have hsilent (reason : String) : ¬(Reading.silent reason).fired = true :=
    Reading.silent_not_fired reason
  rw [read_eq, newest?, hbursts]
  by_cases hfew : (tape.tradesWithin window).length < settings.minBurstTrades.toNat
  · rw [if_pos hfew]
    exact ⟨iff_of_false (hsilent _) fun h => absurd h.1 (not_le.2 hfew), fun h => absurd h (hsilent _)⟩
  · rw [if_neg hfew]
    rcases find?_reverse_cases settings bursts with ⟨hnone, hcalm⟩ | ⟨i, burst, hfind, hburst, hlast⟩
    · rw [hnone]
      refine ⟨iff_of_false (hsilent _) ?_, fun h => absurd h (hsilent _)⟩
      rintro ⟨-, i, burst, hburst⟩
      exact hcalm i burst hburst
    · rw [hfind]
      exact ⟨iff_of_true (hfires i burst hburst.1) ⟨not_lt.1 hfew, i, burst, hburst⟩,
        fun _ => ⟨i, burst, hburst, hlast, rfl⟩⟩

private theorem isFinite_secondsBetween {earlier later : Trade}
    (hearlier : Timestamp.inRange earlier.ts = true) (hlater : Timestamp.inRange later.ts = true)
    (hle : earlier.ts ≤ later.ts) : (secondsBetween earlier later).isFinite = true := by
  rw [Timestamp.inRange_iff] at hearlier hlater
  rcases Int.le_iff_lt_or_eq.1 hle with hlt | heq
  · have hspan : later.ts - earlier.ts ≤ 2 ^ 54 := by
      have hrange : (latest - earliest : Int) ≤ 2 ^ 54 := by decide
      exact (Int.sub_le_sub hlater.2 hearlier.1).trans hrange
    exact (sizable_seconds (by norm_num) (Int.sub_pos_of_lt hlt) hspan).finite
  · rw [secondsBetween, heq, Int.sub_self]
    decide +kernel

private theorem isFinite_silence? {trades : List Trade}
    (hdated : ∀ trade ∈ trades, Timestamp.inRange trade.ts = true)
    (hsorted : trades.Pairwise fun a b => a.ts ≤ b.ts) {i : ℕ} :
    ∀ gap ∈ silence? trades i, gap.isFinite = true := by
  cases i with
  | zero => rintro gap ⟨⟩
  | succ i =>
    intro gap hgap
    obtain ⟨earlier, hearlier, hmap⟩ := Option.bind_eq_some_iff.1 hgap
    obtain ⟨later, hlater, rfl⟩ := Option.map_eq_some_iff.1 hmap
    obtain ⟨hi, rfl⟩ := List.getElem?_eq_some_iff.1 hearlier
    obtain ⟨hj, rfl⟩ := List.getElem?_eq_some_iff.1 hlater
    exact isFinite_secondsBetween (hdated _ (List.getElem_mem hi)) (hdated _ (List.getElem_mem hj))
      (List.pairwise_iff_getElem.1 hsorted i (i + 1) hi hj (Nat.lt_succ_self i))

theorem Starts.sublist {maxGap : Float} {prior : Option Trade} {trades : List Trade} {i : ℕ}
    {burst : Burst} (h : Starts (segment maxGap prior trades) i burst) :
    burst.trades.Sublist trades := by
  obtain ⟨earlier, later, hsplit, -⟩ := h
  rw [← flatMap_segment maxGap prior trades, hsplit, List.flatMap_append, List.flatMap_cons]
  exact (List.sublist_append_left _ _).trans (List.sublist_append_right _ _)

private theorem last_mem_trades (burst : Burst) : burst.last ∈ burst.trades :=
  List.mem_of_getLast? (getLast?_trades [] burst)

private theorem duration_le {burst : Burst} {window : Span} {tape : Tape} (htape : tape.Ordered)
    (h : burst.trades.Sublist (tape.trades.filter (tape.isRecent window))) :
    0 ≤ burst.last.ts - burst.first.ts ∧ burst.last.ts - burst.first.ts ≤ window := by
  have hlast := last_mem_trades burst
  have hfirst : burst.first ∈ burst.trades := List.mem_cons_self
  constructor
  · have hsorted := (Tape.trades_sorted htape).sublist (h.trans List.filter_sublist)
    rcases List.mem_cons.1 hlast with heq | hrest
    · rw [heq, Int.sub_self]
    · exact Int.sub_nonneg_of_le ((List.pairwise_cons.1 hsorted).1 _ hrest)
  · obtain ⟨hfirst, hrecent⟩ := List.mem_filter.1 (h.subset hfirst)
    have hheld := Tape.mem_trades_iff.1 (List.mem_filter.1 (h.subset hlast)).1
    obtain ⟨ts, hts, -, hle⟩ := htape.latest _ hheld
    unfold Tape.isRecent at hrecent
    rw [Option.mem_def.1 hts] at hrecent
    have hage : ts - window ≤ burst.first.ts := of_decide_eq_true hrecent
    have hspan := Int.sub_le_sub hle hage
    rwa [Int.sub_sub_self] at hspan

private theorem read_of_bounds {settings : TradeClusteringSettings} (h : settings.Bounds)
    (tape : Tape) : (Signal.tradeClustering settings).read tape =
      .ok (read settings (settings.windowSecs.toNat * 1000 : Int) tape) := by
  have hspan := Span.ofSeconds?_eq (UInt64.le_iff_toNat_le.2 h.windowSecs.2)
  have hwindows : (Signal.tradeClustering settings).windows =
      .ok ((settings.windowSecs.toNat * 1000 : Int), (settings.windowSecs.toNat * 1000 : Int)) := by
    simp only [Signal.windows, Signal.windowSecs, Signal.baselineSecs, hspan]
    rfl
  exact Signal.read_ok hwindows tape

private theorem count_pos_of_accepted {trade : Trade} (h : (Record.trade trade).Accepted) :
    0 < trade.count.toNat := UInt64.lt_iff_toNat_lt.1 h.count_bounds.1

/-- Every burst of a window has a side, whose sums decide it. -/
theorem side_of_starts (settings : TradeClusteringSettings) {tape : Tape} {window : Span}
    {prior : Option Trade} {i : ℕ} {burst : Burst} (htape : tape.Ordered)
    (haccepted : ∀ r ∈ tape.records, r.Accepted) (hyear : window ≤ maxSpan)
    (hstarts : Starts (segment settings.burstGapSec prior
      (tape.trades.filter (tape.isRecent window))) i burst) :
    (readBurst settings burst).fired = true ∧
      (0.0 < (readBurst settings burst).score ↔ totalOn burst.trades .no ≤ totalOn burst.trades .yes) ∧
      ((readBurst settings burst).score < 0.0 ↔ totalOn burst.trades .yes < totalOn burst.trades .no) := by
  have hcounts : ∀ trade ∈ burst.trades, 0 < trade.count.toNat := fun trade htrade =>
    count_pos_of_accepted (haccepted _
      (Tape.mem_trades_iff.1 (List.mem_filter.1 (hstarts.sublist.subset htrade)).1))
  obtain ⟨hnonneg, hle⟩ := duration_le htape hstarts.sublist
  have hside := readBurst_side_iff settings hcounts hnonneg (hle.trans hyear)
  refine ⟨Reading.fired_of_side ?_, hside⟩
  rw [hside.1, hside.2]
  exact le_or_gt _ _

/-- Clustering answers as its definition over all trades of the tape says. -/
theorem clustering_over_all_trades {settings : TradeClusteringSettings}
    (hsettings : Check.Pass settings.checks) {records : List Record}
    (haccepted : ∀ record ∈ records, record.Accepted)
    (hsorted : records.Pairwise fun a b => a.ts ≤ b.ts) (instrument : String) (retention : Span) :
    let tape := (Tape.empty instrument retention).updateAll records
    let window : Span := settings.windowSecs.toNat * 1000
    let recent := tape.trades.filter (tape.isRecent window)
    let offset := tape.trades.length - recent.length
    let bursts := segment settings.burstGapSec (tape.lastTradeBefore? window) recent
    let urgent := Urgent settings tape.trades offset bursts
    tape.trades.drop offset = recent ∧
    bursts.flatMap Burst.trades = recent ∧ (∀ burst ∈ bursts, burst.trades ≠ []) ∧
    (∀ i < recent.length, (∃ burst, Starts bursts i burst) ↔
      i = 0 ∨ ∃ gap ∈ silence? tape.trades (offset + i), settings.burstGapSec < gap) ∧
    (∀ burst, (∃ gap ∈ silence? tape.trades offset, gap ≤ settings.burstGapSec) → ¬urgent 0 burst) ∧
    ∃ reading, (Signal.tradeClustering settings).read tape = .ok reading ∧
      (reading.fired = true ↔
        settings.minBurstTrades.toNat ≤ recent.length ∧ ∃ i burst, urgent i burst) ∧
      (reading.fired = true → ∃ i burst, urgent i burst ∧ (∀ j other, urgent j other → j ≤ i) ∧
        reading = readBurst settings burst ∧
        (0.0 < reading.score ↔ totalOn burst.trades .no ≤ totalOn burst.trades .yes) ∧
        (reading.score < 0.0 ↔ totalOn burst.trades .yes < totalOn burst.trades .no)) := by
  intro tape window recent offset bursts urgent
  have hbounds := TradeClusteringSettings.pass_iff.1 hsettings
  have hordered : tape.Ordered :=
    Tape.updateAll_ordered ⟨fun r hr => (haccepted r hr).dated, hsorted⟩ instrument retention
  have hwindow : 0 ≤ window := by positivity
  have hyear : window ≤ maxSpan := by
    have hseconds : settings.windowSecs.toNat ≤ 31536000 := hbounds.windowSecs.2
    show (settings.windowSecs.toNat * 1000 : Int) ≤ 31536000000
    omega
  have hprior : (tape.trades.filter fun t => !tape.isRecent window t).getLast? =
      tape.lastTradeBefore? window := (Tape.lastTradeBefore?_eq_getLast? hordered hwindow).symm
  have hall := Tape.trades_eq_append hordered window
  generalize (tape.trades.filter fun t => !tape.isRecent window t) = before at hprior hall
  have hoffset : offset = before.length := by
    show tape.trades.length - recent.length = before.length
    rw [← hall, List.length_append, Nat.add_sub_cancel]
  have hfinite : ∀ i, ∀ gap ∈ silence? (before ++ recent) i, gap.isFinite = true := by
    intro i
    rw [hall]
    exact isFinite_silence? (Tape.trades_dated hordered) (Tape.trades_sorted hordered)
  have hurgent (i : ℕ) (burst : Burst) :
      urgent i burst ↔ Starts bursts i burst ∧ qualifies settings burst = true := by
    have hiff := urgent_iff settings hprior recent i burst
    rwa [hall, ← hoffset] at hiff
  refine ⟨?_, flatMap_segment _ _ _, fun burst _ => List.cons_ne_nil _ _, ?_, ?_, ?_⟩
  · rw [hoffset, ← hall, List.drop_left]
  · intro i hi
    rw [hoffset, ← hall]
    refine starts_segment_iff hprior (fun i gap hgap hlong => ?_) hi
    have hgapfinite := hfinite i gap hgap
    rw [le_iff hgapfinite hbounds.burstGapSec.1, not_le] at hlong
    exact (lt_iff hbounds.burstGapSec.1 hgapfinite).2 hlong
  · rintro burst ⟨gap, hgap, hle⟩ hburst
    obtain ⟨gap', hgap', hge⟩ := hburst.quiet
    obtain rfl := Option.mem_unique hgap hgap'
    have hgapfinite := hfinite before.length gap (by rwa [hall, ← hoffset])
    rw [le_iff hgapfinite hbounds.burstGapSec.1] at hle
    rw [le_iff hbounds.quietThresholdSec.1.1 hgapfinite] at hge
    exact absurd hbounds.quietThresholdSec.2 (not_lt.2 (hge.trans hle))
  · have hrecent : tape.tradesWithin window = recent := Tape.tradesWithin_eq_filter hordered hwindow
    have hheld : ∀ r ∈ tape.records, r.Accepted := fun r hr =>
      haccepted r ((Tape.updateAll_sublist instrument retention records).subset hr)
    have hside (i : ℕ) (burst : Burst) (hstarts : Starts bursts i burst) :=
      side_of_starts settings hordered hheld hyear hstarts
    obtain ⟨hiff, hlast⟩ := read_of_bursts settings tape (by rw [hrecent])
      fun i burst hstarts => (hside i burst hstarts).1
    rw [hrecent] at hiff
    refine ⟨_, read_of_bounds hbounds tape, ?_, fun hfired => ?_⟩
    · simp only [hurgent]
      exact hiff
    · obtain ⟨i, burst, hburst, hnewest, hread⟩ := hlast hfired
      refine ⟨i, burst, (hurgent i burst).2 hburst, fun j other hother => ?_, hread, ?_⟩
      · exact hnewest j other ((hurgent j other).1 hother).1 ((hurgent j other).1 hother).2
      · rw [hread]
        exact (hside i burst hburst.1).2

/-- A burst after a silence that began before the window. -/
theorem clustering_over_all_trades_of_old_trade :
    let settings : TradeClusteringSettings := {}
    let records : List Record := [.trade ⟨"RAIN", 0, .no, 1, 50⟩, .trade ⟨"RAIN", 180000, .yes, 5, 52⟩,
      .trade ⟨"RAIN", 181000, .yes, 5, 52⟩, .trade ⟨"RAIN", 182000, .yes, 5, 52⟩]
    let tape := (Tape.empty "RAIN" 3600000).updateAll records
    let window : Span := settings.windowSecs.toNat * 1000
    let recent := tape.trades.filter (tape.isRecent window)
    let offset := tape.trades.length - recent.length
    let bursts := segment settings.burstGapSec (tape.lastTradeBefore? window) recent
    Check.Pass settings.checks ∧ (∀ record ∈ records, record.Accepted) ∧
      records.Pairwise (fun a b => a.ts ≤ b.ts) ∧ offset = 1 ∧
      ∃ reading i burst, (Signal.tradeClustering settings).read tape = .ok reading ∧
        Urgent settings tape.trades offset bursts i burst ∧ reading = readBurst settings burst ∧
        0.0 < reading.score := by
  intro settings records tape window recent offset bursts
  have hsettings : Check.Pass settings.checks := by decide +kernel
  have haccepted : ∀ record ∈ records, record.Accepted := by decide +kernel
  have hsorted : records.Pairwise fun a b => a.ts ≤ b.ts := by decide +kernel
  have hoffset : offset = 1 := by decide +kernel
  obtain ⟨-, -, -, -, -, reading, hread, -, hnewest⟩ :=
    clustering_over_all_trades hsettings haccepted hsorted "RAIN" 3600000
  have hpositive : ∃ reading, (Signal.tradeClustering settings).read tape = .ok reading ∧
      0.0 < reading.score := exists_ok_of_any (by decide +kernel)
  obtain ⟨same, hsame, hpositive⟩ := hpositive
  obtain rfl : reading = same := Except.ok.inj (hread.symm.trans hsame)
  obtain ⟨i, burst, hurgent, -, heq, -⟩ := hnewest (Reading.fired_of_side (.inl hpositive))
  exact ⟨hsettings, haccepted, hsorted, hoffset, reading, i, burst, hread, hurgent, heq, hpositive⟩

end TradeClustering

end SignalDesk
