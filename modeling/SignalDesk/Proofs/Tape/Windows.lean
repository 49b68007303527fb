import SignalDesk.Proofs.Float.Positive
import SignalDesk.Proofs.Tape.Mirror
import SignalDesk.Proofs.Tape.Trades

/-!
# Windows on the history

Whatever the order of time, a tape holds the records that have arrived last, and the oldest of them is
within the retention. If time does not go back it holds all that are, and what it answers about a window
no longer than the retention depends on the records of the history that lie in the window.
-/

namespace SignalDesk

open FloatValue
open Float.Model (UnpackedFloat)

/-- The records that are no older than a window which ends with the last of them. -/
def recent (records : List Record) (window : Span) : List Record :=
  records.filter fun r => records.getLast?.all fun newest => newest.ts - window ≤ r.ts

private theorem dropWhile_concat {α : Type} {p : α → Bool} {items : List α} {a : α}
    (h : p a = false) : (items ++ [a]).dropWhile p = items.dropWhile p ++ [a] := by
  induction items with
  | nil => simp [h]
  | cons b items ih =>
    rw [List.cons_append, List.dropWhile_cons, List.dropWhile_cons, ih]
    split <;> rfl

namespace Tape

variable {tape : Tape} {instrument : String} {retention window : Span} {records : List Record}

/-- A tape that keeps the end of a history, down to a record that is within the retention. -/
structure Keeps (tape : Tape) (records : List Record) : Prop where
  isSuffix : tape.records <:+ records
  newest : tape.records.getLast? = records.getLast?
  latest : tape.latest = records.getLast?.map Record.ts
  oldest : ∀ newest ∈ records.getLast?, ∀ cutoff ∈ newest.ts.before? tape.retention,
    ∀ oldest ∈ tape.records.head?, cutoff ≤ oldest.ts

private theorem before?_le {ts cutoff : Timestamp} (hretention : 0 ≤ retention)
    (h : cutoff ∈ ts.before? retention) : cutoff ≤ ts := by
  unfold Timestamp.before? at h
  split at h
  · cases h
    exact Int.sub_le_self ts hretention
  · cases h

theorem update_records_eq (hretention : 0 ≤ tape.retention) (record : Record) :
    (tape.update record).records =
      (match record.ts.before? tape.retention with
      | some cutoff => tape.records.dropWhile fun r => r.ts < cutoff
      | none => tape.records) ++ [record] := by
  unfold update
  cases hcutoff : record.ts.before? tape.retention with
  | none => rfl
  | some cutoff =>
    refine dropWhile_concat (decide_eq_false ?_)
    exact Int.not_lt.2 (before?_le hretention hcutoff)

theorem Keeps.update (h : tape.Keeps records) (hretention : 0 ≤ tape.retention) (record : Record) :
    (tape.update record).Keeps (records ++ [record]) := by
  have hupdate := update_records_eq hretention record
  refine ⟨?_, ?_, ?_, ?_⟩
  · rw [hupdate, List.suffix_concat_iff]
    split
    · exact .inr ⟨_, rfl, (List.dropWhile_suffix _).trans h.isSuffix⟩
    · exact .inr ⟨_, rfl, h.isSuffix⟩
  · rw [hupdate, List.getLast?_concat, List.getLast?_concat]
  · rw [List.getLast?_concat]
    rfl
  · intro newest hnewest cutoff hcutoff oldest holdest
    rw [List.getLast?_concat, Option.mem_some_iff] at hnewest
    subst hnewest
    have hrecords : (tape.update record).records =
        (tape.records ++ [record]).dropWhile fun r => r.ts < cutoff := by
      have hcutoff : record.ts.before? tape.retention = some cutoff := hcutoff
      simp only [Tape.update, hcutoff]
    have hnot := List.head?_dropWhile_not (fun r : Record => r.ts < cutoff) (tape.records ++ [record])
    rw [← hrecords, Option.mem_def.1 holdest] at hnot
    exact Int.not_lt.1 (of_decide_eq_false hnot)

private theorem updateAll_keeps (instrument : String) (hretention : 0 ≤ retention)
    (records : List Record) :
    ((empty instrument retention).updateAll records).retention = retention ∧
      ((empty instrument retention).updateAll records).Keeps records := by
  induction records using List.reverseRecOn with
  | nil => exact ⟨rfl, List.nil_suffix, rfl, rfl, fun _ h => by cases h⟩
  | append_singleton records record ih =>
    rw [updateAll_concat]
    exact ⟨ih.1, ih.2.update (ih.1.symm ▸ hretention) record⟩

private theorem complete_within_eq_recent (h : Chronological records) (hwindow : 0 ≤ window) :
    (complete instrument retention records).within window = recent records window := by
  rcases List.eq_nil_or_concat' records with rfl | ⟨earlier, last, rfl⟩
  · rfl
  · rw [within_eq_of_inRange (complete_latest earlier last) h.inRange (h.inRange last (by simp)) hwindow]
    unfold recent
    rw [List.getLast?_concat]
    rfl

/-- The tape holds the records within the retention. -/
theorem updateAll_records (instrument : String) (h : Chronological records)
    (hretention : 0 ≤ retention) :
    ((empty instrument retention).updateAll records).records = recent records retention := by
  rw [updateAll_empty instrument h hretention]
  exact complete_within_eq_recent h hretention

private theorem within_updateAll_eq_recent (instrument : String) (h : Chronological records)
    (hwindow : 0 ≤ window) (hle : window ≤ retention) :
    ((empty instrument retention).updateAll records).within window = recent records window := by
  rw [within_updateAll h hwindow hle, complete_within_eq_recent h hwindow]

private theorem exists_trades_before (h : tape.Ordered) (hwindow : 0 ≤ window) :
    ∃ before, before ++ tape.tradesWithin window = tape.trades ∧
      (∀ trade ∈ before, ∀ ts ∈ tape.latest, trade.ts < ts - window) ∧
      tape.lastTradeBefore? window = before.getLast? := by
  refine ⟨_, ?_, fun trade htrade ts hts => ?_, lastTradeBefore?_eq_getLast? h hwindow⟩
  · rw [tradesWithin_eq_filter h hwindow]
    exact trades_eq_append h window
  · have hold := (List.mem_filter.1 htrade).2
    rw [isRecent, Option.mem_def.1 hts, Bool.not_eq_true', Option.any_some, decide_eq_false_iff_not]
      at hold
    exact Int.not_le.1 hold

private theorem quoteEnds?_of_length_lt (h : (tape.quotesWithin window).length < 2) :
    tape.quoteEnds? window = none := by
  unfold quoteEnds?
  split
  · rfl
  · rename_i first rest heq
    rw [heq, List.length_cons] at h
    obtain rfl := List.length_eq_zero_iff.1 (by omega : rest.length = 0)
    rfl

private theorem quoteEnds?_of_ends {first last : Quote} {middle : List Quote}
    (h : tape.quotesWithin window = first :: (middle ++ [last])) :
    tape.quoteEnds? window = some (first, last) := by
  simp [quoteEnds?, h]

/-- The counter grows by the difference of its states, or not at all if that is negative. -/
theorem volumeBetween_eq {first last : Quote} (hfirst : 0 ≤ first.dollarVolume.toInt)
    (hlast : 0 ≤ last.dollarVolume.toInt) : volumeBetween first last =
      Float.ofInt (max 0 (last.dollarVolume.toInt - first.dollarVolume.toInt)) := by
  have hexact := toInt_sub_of_nonneg hlast hfirst
  unfold volumeBetween
  simp only [Int64.lt_iff_toInt_lt, hexact, Int64.toInt_zero]
  split
  · rw [max_eq_left (by omega)]
    rfl
  · rw [max_eq_right (by omega), hexact]

private theorem zero_div_of_pos {x : Float} (h : 0.0 < x) : 0.0 / x = 0.0 := by
  have hzero : (0.0 : Float).toModel.unpack = .zero .positive := rfl
  have hquotient : 0.0 / x =
      ⟨Float.Model.pack (UnpackedFloat.div .binary64 (.zero .positive) x.toModel.unpack)⟩ := rfl
  rw [lt_iff_unpacked, hzero] at h
  rw [hquotient]
  cases hx : x.toModel.unpack with
  | notANumber => rw [hx] at h; cases h
  | infinity s =>
    cases s with
    | negative => rw [hx] at h; cases h
    | positive => rfl
  | zero s => rw [hx] at h; cases s <;> cases h
  | finite s m e hm =>
    cases s with
    | negative => rw [hx] at h; cases h
    | positive => rfl

private theorem sizable_minute : Sizable 16 60000.0 := by
  have hvalue : value 60000.0 = 60000 := by
    show magnitude (60000 * 2 ^ 37) (-37) = 60000
    norm_num [magnitude]
  refine ⟨by decide, ?_, ?_⟩ <;> rw [hvalue] <;> norm_num

private theorem minutesBetween_pos_iff {first last : Quote} (h : first.ts ≤ last.ts) :
    0.0 < minutesBetween first last ↔ first.ts < last.ts := by
  obtain ⟨n, hn⟩ := Int.eq_ofNat_of_zero_le (Int.sub_nonneg.2 h)
  have hminutes : minutesBetween first last = Float.ofNat n / 60000.0 := by
    rw [minutesBetween, hn]
    rfl
  rw [hminutes, ← Int.sub_pos, hn, Int.natCast_pos]
  rcases n.eq_zero_or_pos with rfl | hpos
  · exact iff_of_false (by decide) (Nat.lt_irrefl 0)
  · have hone : 1.0 ≤ Float.ofNat n := by
      refine (places_ofNat n).ge 1.0 isFinite_one ?_
      rw [value_one]
      exact_mod_cast hpos
    obtain ⟨low, hlow, hle⟩ := exists_le_div hone sizable_minute (by decide)
    refine iff_of_true (pos_of_le hlow.finite ?_ hle) hpos
    rw [lt_iff isFinite_zero hlow.finite, value_zero]
    exact hlow.pos

/-- What a tape answers about a window whose quotes begin with one and end with another. -/
structure Spans (tape : Tape) (window : Span) (first last : Quote) : Prop where
  dollarVolume : tape.dollarVolume window =
    Float.ofInt (max 0 (last.dollarVolume.toInt - first.dollarVolume.toInt))
  priceChange : tape.priceChange window = Float.ofInt (last.price.toInt - first.price.toInt)
  volumeRate : tape.volumeRate window =
    if first.ts < last.ts then
      tape.dollarVolume window / (Float.ofInt (last.ts - first.ts) / 60000.0)
    else 0.0
  reset : last.dollarVolume.toInt ≤ first.dollarVolume.toInt →
    tape.dollarVolume window = 0.0 ∧ tape.volumeRate window = 0.0

private theorem spans_of_ends {first last : Quote} (h : tape.quoteEnds? window = some (first, last))
    (hfirst : first.fault? = none) (hlast : last.fault? = none) (hts : first.ts ≤ last.ts) :
    tape.Spans window first last := by
  obtain ⟨hprices, hcounts⟩ := Quote.fault?_eq_none_iff.1 hfirst
  obtain ⟨hprices', hcounts'⟩ := Quote.fault?_eq_none_iff.1 hlast
  simp only [Int64.lt_iff_toInt_lt, Int64.toInt_zero, not_or, Int.not_lt] at hcounts hcounts'
  have hvolume : tape.dollarVolume window =
      Float.ofInt (max 0 (last.dollarVolume.toInt - first.dollarVolume.toInt)) := by
    rw [dollarVolume, h, ← volumeBetween_eq hcounts.2 hcounts'.2]
  have hrate : tape.volumeRate window =
      if first.ts < last.ts then
        tape.dollarVolume window / (Float.ofInt (last.ts - first.ts) / 60000.0)
      else 0.0 := by
    rw [volumeRate, dollarVolume, h]
    simp only [minutesBetween_pos_iff hts]
    rfl
  refine ⟨hvolume, ?_, hrate, fun hreset => ?_⟩
  · rw [priceChange, h, ← toInt_sub_of_isCents hprices'.price hprices.price]
  · have hnone : tape.dollarVolume window = 0.0 := by
      rw [hvolume, max_eq_left (by omega)]
      rfl
    refine ⟨hnone, ?_⟩
    rw [hrate, hnone]
    split
    · exact zero_div_of_pos ((minutesBetween_pos_iff hts).2 ‹_›)
    · rfl

private theorem Record.ts_of_quote? {record : Record} {quote : Quote}
    (h : record.quote? = some quote) : quote.ts = record.ts := by
  cases record with
  | trade t => cases h
  | quote q =>
    cases h
    rfl

private theorem quotes_sorted (h : Chronological records) :
    ((recent records window).filterMap Record.quote?).Pairwise fun a b => a.ts ≤ b.ts := by
  have hsorted := h.sorted.sublist (List.filter_sublist : (recent records window).Sublist records)
  refine List.pairwise_filterMap.2 (hsorted.imp fun {a b} hab q hq q' hq' => ?_)
  rwa [Record.ts_of_quote? hq, Record.ts_of_quote? hq']

/--
In any order of time the tape holds the records that have arrived last, the newest included, and the
oldest of them is not older than the retention. If time does not go back, it holds exactly the records
within the retention, and a window up to that length shows the trades and the quotes of the history that
lie in it. The trades held are those before the window and those of the window, and the last of the
former is the trade before the window. Volume, rate and change of price are those between the first and
the last quote of the window, and zero if there are fewer than two.
-/
theorem windows_of_history (instrument : String) (hretention : 0 ≤ retention)
    (haccepted : ∀ record ∈ records, record.Accepted) :
    let tape := (empty instrument retention).updateAll records
    tape.Keeps records ∧ tape.retention = retention ∧
    (records.Pairwise (fun a b => a.ts ≤ b.ts) →
      tape.records = recent records retention ∧
      ∀ window, 0 ≤ window → window ≤ retention →
        let quotes := (recent records window).filterMap Record.quote?
        tape.tradesWithin window = (recent records window).filterMap Record.trade? ∧
        tape.spreadHistory window = quotes.map (fun quote =>
          ⟨quote.ts, Float.ofInt (quote.yesAsk.toInt - quote.yesBid.toInt), quote.midpoint⟩) ∧
        (∃ before, before ++ tape.tradesWithin window = tape.trades ∧
          (∀ trade ∈ before, ∀ ts ∈ tape.latest, trade.ts < ts - window) ∧
          tape.lastTradeBefore? window = before.getLast?) ∧
        (quotes.length < 2 → tape.dollarVolume window = 0.0 ∧ tape.volumeRate window = 0.0 ∧
          tape.priceChange window = 0.0) ∧
        ∀ first middle last, quotes = first :: (middle ++ [last]) → tape.Spans window first last) := by
  intro tape
  obtain ⟨hsame, hkeeps⟩ := updateAll_keeps instrument hretention records
  refine ⟨hkeeps, hsame, fun hsorted => ?_⟩
  have hchronological : Chronological records := ⟨fun r hr => (haccepted r hr).dated, hsorted⟩
  refine ⟨updateAll_records instrument hchronological hretention, fun window hwindow hle => ?_⟩
  intro quotes
  have hwithin : tape.within window = recent records window :=
    within_updateAll_eq_recent instrument hchronological hwindow hle
  have hquotes : tape.quotesWithin window = quotes := congrArg (List.filterMap Record.quote?) hwithin
  have hfault : ∀ quote ∈ quotes, quote.fault? = none := by
    have hvalid : ∀ r ∈ tape.records, r.isValid = true :=
      updateAll_valid (fun r hr => (haccepted r hr).valid) (by simp [empty])
    exact fun quote hquote =>
      Quote.fault?_of_valid (quotesWithin_valid hvalid window quote (hquotes ▸ hquote))
  refine ⟨congrArg (List.filterMap Record.trade?) hwithin, ?_, ?_, ?_, ?_⟩
  · rw [spreadHistory, hquotes]
    refine List.map_congr_left fun quote hquote => ?_
    obtain ⟨hprices, -⟩ := Quote.fault?_eq_none_iff.1 (hfault quote hquote)
    rw [Quote.spread, toInt_sub_of_isCents hprices.ask hprices.bid]
  · exact exists_trades_before (updateAll_ordered hchronological instrument retention) hwindow
  · intro hlength
    have hends := quoteEnds?_of_length_lt (hquotes ▸ hlength)
    simp only [dollarVolume, volumeRate, priceChange, hends, and_self]
  · intro first middle last heq
    have hends := quoteEnds?_of_ends (hquotes.trans heq)
    have hordered : quotes.Pairwise fun a b => a.ts ≤ b.ts := quotes_sorted hchronological
    rw [heq] at hfault hordered
    refine spans_of_ends hends (hfault first (by simp)) (hfault last (by simp)) ?_
    exact List.rel_of_pairwise_cons hordered (by simp)

/-- The first quote has left the retention, and the first trade lies before the window. -/
theorem windows_of_history_of_old_quote :
    let first : Quote := ⟨"RAIN", 5000, 42, 41, 43, 20, 300⟩
    let last : Quote := ⟨"RAIN", 12000, 45, 44, 46, 90, 900⟩
    let old : Trade := ⟨"RAIN", 2000, .yes, 10, 40⟩
    let records : List Record := [.quote ⟨"RAIN", 0, 40, 39, 41, 10, 100⟩, .trade old, .quote first,
      .trade ⟨"RAIN", 6000, .no, 5, 60⟩, .quote last]
    let tape := (empty "RAIN" 10000).updateAll records
    tape.Keeps records ∧ tape.records = records.tail ∧
      (∃ before, before ++ tape.tradesWithin 7000 = tape.trades ∧
        tape.lastTradeBefore? 7000 = before.getLast?) ∧
      tape.lastTradeBefore? 7000 = some old ∧ tape.Spans 7000 first last := by
  intro first last old records tape
  have haccepted : ∀ record ∈ records, record.Accepted := by decide +kernel
  have hsorted : records.Pairwise fun a b => a.ts ≤ b.ts := by decide +kernel
  obtain ⟨hkeeps, -, hordered⟩ :=
    windows_of_history "RAIN" (by decide : (0 : Span) ≤ 10000) haccepted
  obtain ⟨hrecords, hwindows⟩ := hordered hsorted
  obtain ⟨-, -, ⟨before, htrades, -, hlast⟩, -, hends⟩ := hwindows 7000 (by decide) (by decide)
  refine ⟨hkeeps, hrecords.trans (by decide +kernel), ⟨before, htrades, hlast⟩, by decide +kernel, ?_⟩
  exact hends first [] last (by decide +kernel)

end Tape

end SignalDesk
