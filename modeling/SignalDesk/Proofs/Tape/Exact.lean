import SignalDesk.Proofs.Config
import SignalDesk.Proofs.Tape.Windows

/-!
# Arithmetic of a tape

Prices, counters and times are words of 64 bits, and words wrap around. None of the sums and
differences that a tape takes of valid records does: each is the one of the whole numbers. A time that
lies before the calendar is not computed but replaced, and totals of contracts stay at the largest word.
-/

namespace SignalDesk

theorem Span.check?_sub {earlier later : Timestamp} (hearlier : Timestamp.inRange earlier = true)
    (hlater : Timestamp.inRange later = true) :
    check? (later - earlier) = some (later - earlier) := by
  obtain ⟨hlow, hhigh⟩ := Timestamp.inRange_iff.1 hearlier
  obtain ⟨hlow', hhigh'⟩ := Timestamp.inRange_iff.1 hlater
  rw [check?, if_pos]
  unfold earliest Timestamp at hlow hlow'
  unfold latest Timestamp at hhigh hhigh'
  unfold longestSpan
  omega

/-- Going back in time either stays within the calendar or leaves it at its start. -/
theorem Timestamp.before?_eq {ts : Timestamp} {span : Span} (hts : inRange ts = true)
    (hspan : 0 ≤ span) :
    ts.before? span = if earliest ≤ ts - span then some (ts - span) else none := by
  have hlate : ts - span ≤ latest := (Int.sub_le_self ts hspan).trans (inRange_iff.1 hts).2
  simp only [before?, hlate, and_true]

theorem Contracts.toNat_sum (counts : List Contracts) :
    (sum counts).toNat = min (counts.map UInt64.toNat).sum (UInt64.size - 1) := by
  induction counts using List.reverseRecOn with
  | nil => rfl
  | append_singleton counts count ih =>
    have hstep : sum (counts ++ [count]) = add (sum counts) count := by
      simp only [sum, List.foldl_append, List.foldl_cons, List.foldl_nil]
    have hadd : (add (sum counts) count).toNat =
        min ((sum counts).toNat + count.toNat) (UInt64.size - 1) := toNat_add _ _
    rw [hstep, hadd, ih, List.map_append, List.sum_append, List.map_singleton, List.sum_singleton]
    omega

theorem SideTotals.toNat_total (trades : List Trade) : (ofTrades trades).total.toNat =
    min (contractsOn trades .yes + contractsOn trades .no) (UInt64.size - 1) := by
  have hadd : (ofTrades trades).total.toNat =
      min ((ofTrades trades).yes.toNat + (ofTrades trades).no.toNat) (UInt64.size - 1) :=
    Contracts.toNat_add _ _
  have hyes : (ofTrades trades).yes.toNat = _ := toNat_ofTrades trades .yes
  have hno : (ofTrades trades).no.toNat = _ := toNat_ofTrades trades .no
  rw [hadd, hyes, hno, totalOn, totalOn]
  omega

namespace Quote

structure Exact (quote : Quote) : Prop where
  spread : quote.spread.toInt = quote.yesAsk.toInt - quote.yesBid.toInt
  sum : (quote.yesBid + quote.yesAsk).toInt = quote.yesBid.toInt + quote.yesAsk.toInt
  askNo : (quote.askFor .no).toInt = 100 - quote.yesBid.toInt
  bidNo : (quote.bidFor .no).toInt = 100 - quote.yesAsk.toInt

structure ExactSince (first last : Quote) : Prop where
  growth : (last.dollarVolume - first.dollarVolume).toInt =
    last.dollarVolume.toInt - first.dollarVolume.toInt
  volume : Tape.volumeBetween first last =
    Float.ofInt (max 0 (last.dollarVolume.toInt - first.dollarVolume.toInt))
  move : (last.price - first.price).toInt = last.price.toInt - first.price.toInt

theorem exact_of_valid {quote : Quote} (h : (Record.quote quote).isValid = true) : quote.Exact := by
  have hprices := priced_of_valid h
  exact ⟨toInt_sub_of_isCents hprices.ask hprices.bid, toInt_add_of_isCents hprices.bid hprices.ask,
    toInt_complement hprices.bid, toInt_complement hprices.ask⟩

private theorem dollarVolume_nonneg {quote : Quote} (h : (Record.quote quote).isValid = true) :
    0 ≤ quote.dollarVolume.toInt := by
  obtain ⟨-, hcounters⟩ := fault?_eq_none_iff.1 (fault?_of_valid h)
  rw [not_or, Int64.lt_iff_toInt_lt, Int64.lt_iff_toInt_lt] at hcounters
  exact Int.not_lt.1 hcounters.2

private theorem exactSince_of_valid {first last : Quote}
    (hfirst : (Record.quote first).isValid = true)
    (hlast : (Record.quote last).isValid = true) : first.ExactSince last where
  growth := toInt_sub_of_nonneg (dollarVolume_nonneg hlast) (dollarVolume_nonneg hfirst)
  volume := Tape.volumeBetween_eq (dollarVolume_nonneg hfirst) (dollarVolume_nonneg hlast)
  move := toInt_sub_of_isCents (priced_of_valid hlast).price (priced_of_valid hfirst).price

end Quote

namespace Tape

/-- What a tape computes of its records: a window begins where it should or with the calendar. -/
structure Exact (tape : Tape) : Prop where
  quotes : ∀ quote, .quote quote ∈ tape.records → quote.Exact
  pairs : ∀ first last, .quote first ∈ tape.records → .quote last ∈ tape.records →
    first.ExactSince last
  elapsed : ∀ a ∈ tape.records, ∀ b ∈ tape.records, Span.check? (b.ts - a.ts) = some (b.ts - a.ts)
  start : ∀ now ∈ tape.latest, ∀ window, 0 ≤ window →
    tape.windowStart? window = some (max earliest (now - window))

private theorem windowStart?_eq {tape : Tape} {now : Timestamp} (hnow : tape.latest = some now)
    (hrange : Timestamp.inRange now = true) {window : Span} (hwindow : 0 ≤ window) :
    tape.windowStart? window = some (max earliest (now - window)) := by
  rw [windowStart?, hnow, ← Timestamp.horizon_eq hrange hwindow]
  rfl

theorem exact_of_accepted {tape : Tape} (h : ∀ r ∈ tape.records, r.Accepted)
    (hlatest : ∀ now ∈ tape.latest, Timestamp.inRange now = true) : tape.Exact where
  quotes _ hquote := Quote.exact_of_valid (h _ hquote).valid
  pairs _ _ hfirst hlast := Quote.exactSince_of_valid (h _ hfirst).valid (h _ hlast).valid
  elapsed a ha b hb := Span.check?_sub (h a ha).dated (h b hb).dated
  start now hnow _ hwindow := windowStart?_eq hnow (hlatest now hnow) hwindow

/-- What a record leaves on the tape: nothing is dropped if the retention reaches back beyond the
calendar. -/
theorem update_records_of_dated {tape : Tape} {record : Record}
    (hrecord : Timestamp.inRange record.ts = true) (hretention : 0 ≤ tape.retention) :
    (tape.update record).records =
      (if earliest ≤ record.ts - tape.retention then
        tape.records.dropWhile fun r => r.ts < record.ts - tape.retention
      else tape.records) ++ [record] := by
  rw [update_records_eq hretention, Timestamp.before?_eq hrecord hretention]
  by_cases h : earliest ≤ record.ts - tape.retention
  · simp only [if_pos h]
  · simp only [if_neg h]

end Tape

end SignalDesk
