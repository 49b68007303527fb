import SignalDesk.Proofs.Tape.Relocation

/-!
# The trades of a tape

A tape of records in the order of time holds its trades in that order, so those of a window come after
all others. What is traded on a side is the sum of the counts, as far as a word can hold it.
-/

namespace SignalDesk

namespace Tape

variable {instrument : String} {retention window : Span} {records : List Record}

def trades (tape : Tape) : List Trade := tape.records.filterMap Record.trade?

def isRecent (tape : Tape) (window : Span) (trade : Trade) : Bool :=
  tape.latest.any fun latest => latest - window ≤ trade.ts

theorem updateAll_sublist (instrument : String) (retention : Span) (records : List Record) :
    ((empty instrument retention).updateAll records).records.Sublist records := by
  induction records using List.reverseRecOn with
  | nil => exact List.nil_sublist _
  | append_singleton records record ih =>
    have hall := ih.append_right [record]
    rw [updateAll_concat, update]
    split
    · exact (List.dropWhile_sublist _).trans hall
    · exact hall

private theorem updateAll_latest (instrument : String) (retention : Span) (records : List Record) :
    ((empty instrument retention).updateAll records).latest = records.getLast?.map Record.ts := by
  rcases List.eq_nil_or_concat' records with rfl | ⟨earlier, last, rfl⟩
  · rfl
  · rw [updateAll_concat, List.getLast?_concat]
    rfl

/-- A tape of records in the order of time, of which the last one is the newest. -/
structure Ordered (tape : Tape) : Prop where
  chronological : Chronological tape.records
  latest : ∀ r ∈ tape.records, ∃ ts ∈ tape.latest, Timestamp.inRange ts = true ∧ r.ts ≤ ts

theorem updateAll_ordered (h : Chronological records) (instrument : String) (retention : Span) :
    ((empty instrument retention).updateAll records).Ordered := by
  have hsub := updateAll_sublist instrument retention records
  refine ⟨h.sublist hsub, fun r hr => ?_⟩
  rw [updateAll_latest]
  rcases List.eq_nil_or_concat' records with rfl | ⟨earlier, last, rfl⟩
  · cases hsub.subset hr
  · refine ⟨last.ts, by simp, h.inRange last (by simp), ?_⟩
    rcases List.mem_append.1 (hsub.subset hr) with hmem | hmem
    · exact h.le_last r hmem
    · rw [List.mem_singleton.1 hmem]

theorem mem_trades_iff {tape : Tape} {trade : Trade} :
    trade ∈ tape.trades ↔ Record.trade trade ∈ tape.records := by
  unfold trades
  rw [List.mem_filterMap]
  constructor
  · rintro ⟨record, hrecord, hsome⟩
    cases record with
    | trade t =>
      obtain rfl := Option.some.inj hsome
      exact hrecord
    | quote q => cases hsome
  · intro hrecord
    exact ⟨_, hrecord, rfl⟩

theorem trades_dated {tape : Tape} (h : tape.Ordered) :
    ∀ trade ∈ tape.trades, Timestamp.inRange trade.ts = true :=
  fun trade htrade => h.chronological.inRange (.trade trade) (mem_trades_iff.1 htrade)

theorem trades_sorted {tape : Tape} (h : tape.Ordered) :
    tape.trades.Pairwise fun a b => a.ts ≤ b.ts := by
  refine List.pairwise_filterMap.2 (h.chronological.sorted.imp fun {a b} hab t ht t' ht' => ?_)
  rwa [Record.ts_of_trade? ht, Record.ts_of_trade? ht']

private theorem filterMap_trade?_filter (records : List Record) (p : Timestamp → Bool) :
    (records.filter fun r => p r.ts).filterMap Record.trade? =
      (records.filterMap Record.trade?).filter fun t => p t.ts := by
  rw [List.filterMap_filter, List.filter_filterMap]
  refine List.filterMap_congr fun r _ => ?_
  cases r with
  | trade t => rfl
  | quote q => exact ite_self none

theorem Ordered.cases {tape : Tape} (h : tape.Ordered) : tape.records = [] ∨
    ∃ ts, tape.latest = some ts ∧ Timestamp.inRange ts = true ∧ ∀ r ∈ tape.records, r.ts ≤ ts := by
  rcases List.eq_nil_or_concat' tape.records with hnil | ⟨earlier, last, hlast⟩
  · exact .inl hnil
  · obtain ⟨ts, hts, hdated, -⟩ := h.latest last (by rw [hlast]; simp)
    refine .inr ⟨ts, hts, hdated, fun r hr => ?_⟩
    obtain ⟨ts', hts', -, hle⟩ := h.latest r hr
    rwa [← Option.mem_unique hts hts'] at hle

theorem tradesWithin_eq_filter {tape : Tape} (h : tape.Ordered) (hwindow : 0 ≤ window) :
    tape.tradesWithin window = tape.trades.filter (tape.isRecent window) := by
  unfold tradesWithin trades
  rcases h.cases with hnil | ⟨ts, hlatest, hdated, -⟩
  · have hempty : tape.within window = [] := by
      unfold within
      split <;> simp [hnil]
    rw [hempty, hnil]
    rfl
  · rw [within_eq_of_inRange hlatest h.chronological.inRange hdated hwindow]
    unfold isRecent
    rw [hlatest]
    exact filterMap_trade?_filter tape.records fun t => decide (ts - window ≤ t)

theorem lastTradeBefore?_eq_getLast? {tape : Tape} (h : tape.Ordered) (hwindow : 0 ≤ window) :
    tape.lastTradeBefore? window =
      (tape.trades.filter fun t => !tape.isRecent window t).getLast? := by
  rcases h.cases with hnil | ⟨ts, hlatest, hdated, -⟩
  · unfold lastTradeBefore? trades
    split <;> simp [hnil]
  · have hdrop : tape.records.reverse.dropWhile (fun r => decide (ts - window ≤ r.ts)) =
        (tape.records.filter fun r => !decide (ts - window ≤ r.ts)).reverse := by
      rw [← List.filter_reverse]
      refine dropWhile_eq_filter (List.pairwise_reverse.2
        (h.chronological.sorted.imp fun {a b} hab ha => ?_))
      rw [decide_eq_true_iff] at ha ⊢
      exact Int.le_trans ha hab
    rw [lastTradeBefore?_eq_of_inRange hlatest h.chronological.inRange hdated hwindow, hdrop,
      ← List.getLast?_filterMap]
    unfold isRecent trades
    rw [hlatest]
    exact congrArg List.getLast?
      (filterMap_trade?_filter tape.records fun t => !decide (ts - window ≤ t))

theorem trades_eq_append {tape : Tape} (h : tape.Ordered) (window : Span) :
    (tape.trades.filter fun t => !tape.isRecent window t) ++ tape.trades.filter (tape.isRecent window) =
      tape.trades := by
  refine filter_not_append_filter ((trades_sorted h).imp fun {a b} hab ha => ?_)
  unfold isRecent at ha ⊢
  rw [Option.any_eq_true] at ha ⊢
  obtain ⟨ts, hts, hrecent⟩ := ha
  refine ⟨ts, hts, decide_eq_true ?_⟩
  exact Int.le_trans (of_decide_eq_true hrecent) hab

end Tape

def contractsOn (trades : List Trade) (side : Side) : ℕ :=
  ((trades.filter fun t => t.side = side).map fun t => t.count.toNat).sum

/-- The contracts of trades on a side, or the largest word. -/
def totalOn (trades : List Trade) (side : Side) : ℕ :=
  min (contractsOn trades side) (UInt64.size - 1)

namespace SideTotals

def on (totals : SideTotals) : Side → Contracts
  | .yes => totals.yes
  | .no => totals.no

private theorem toNat_on_add (totals : SideTotals) (trade : Trade) (side : Side) :
    ((totals.add trade).on side).toNat =
      min ((totals.on side).toNat + if trade.side = side then trade.count.toNat else 0)
        (UInt64.size - 1) := by
  have hsame : (totals.on side).toNat = min (totals.on side).toNat (UInt64.size - 1) :=
    (Nat.min_eq_left (Nat.le_sub_one_of_lt (totals.on side).toNat_lt_size)).symm
  unfold add
  cases trade.side with
  | yes =>
    cases side with
    | yes => exact Contracts.toNat_add _ _
    | no => exact hsame
  | no =>
    cases side with
    | yes => exact hsame
    | no => exact Contracts.toNat_add _ _

/-- Sums of contracts stay at the largest word. -/
theorem toNat_ofTrades (trades : List Trade) (side : Side) :
    ((ofTrades trades).on side).toNat = totalOn trades side := by
  induction trades using List.reverseRecOn with
  | nil => cases side <;> rfl
  | append_singleton trades trade ih =>
    have hsum : contractsOn (trades ++ [trade]) side =
        contractsOn trades side + if trade.side = side then trade.count.toNat else 0 := by
      simp only [contractsOn, List.filter_append, List.map_append, List.sum_append]
      split <;> rename_i h <;> simp [h]
    have hfold : ofTrades (trades ++ [trade]) = (ofTrades trades).add trade := by
      simp only [ofTrades, List.foldl_append, List.foldl_cons, List.foldl_nil]
    rw [hfold, toNat_on_add, ih, totalOn, totalOn, hsum]
    omega

theorem toNat_larger (totals : SideTotals) :
    totals.larger.toNat = max totals.yes.toNat totals.no.toNat := by
  unfold larger
  split <;> rename_i h <;> rw [UInt64.lt_iff_toNat_lt] at h
  · exact (max_eq_right h.le).symm
  · exact (max_eq_left (not_lt.1 h)).symm

end SideTotals

end SignalDesk
