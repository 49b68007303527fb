import SignalDesk.Proofs.Float.Opposite
import SignalDesk.Proofs.Position
import SignalDesk.Proofs.Tape.Horizon

/-!
# Mirrored markets

A market seen from the other side: what was a YES contract is a NO contract and a price of the book
becomes its complement to 100 cents. A mirrored tape keeps the mirrored records, and its windows show
the same number of trades with the totals exchanged, the same spreads and the same volumes.
-/

namespace SignalDesk

open FloatValue

theorem toInt_complement {price : Int64} (h : isCents price = true) :
    (100 - price).toInt = 100 - price.toInt :=
  toInt_sub_of_isCents (by decide) h

private theorem isCents_complement {price : Int64} (h : isCents price = true) :
    isCents (100 - price) = true := by
  rw [isCents_iff, toInt_complement h]
  rw [isCents_iff] at h
  omega

namespace Quote

/-- The same book with YES and NO exchanged. -/
def mirrorBook (quote : Quote) : Quote :=
  { quote with yesBid := 100 - quote.yesAsk, yesAsk := 100 - quote.yesBid }

theorem askFor_mirrorBook (quote : Quote) (side : Side) :
    quote.mirrorBook.askFor side.opposite = quote.askFor side := by
  cases side with
  | yes => show 100 - (100 - quote.yesAsk) = quote.yesAsk; grind
  | no => rfl

theorem bidFor_mirrorBook (quote : Quote) (side : Side) :
    quote.mirrorBook.bidFor side.opposite = quote.bidFor side := by
  cases side with
  | yes => show 100 - (100 - quote.yesBid) = quote.yesBid; grind
  | no => rfl

def mirror (quote : Quote) : Quote := { quote.mirrorBook with price := 100 - quote.price }

theorem spread_mirror (quote : Quote) : quote.mirror.spread = quote.spread := by
  show 100 - quote.yesBid - (100 - quote.yesAsk) = quote.yesAsk - quote.yesBid
  grind

/-- What the checks of a quote ensure about its prices. -/
structure Priced (quote : Quote) : Prop where
  bid : isCents quote.yesBid = true
  ask : isCents quote.yesAsk = true
  ordered : quote.yesBid ≤ quote.yesAsk
  price : isCents quote.price = true

theorem fault?_eq_none_iff {quote : Quote} :
    quote.fault? = none ↔ quote.Priced ∧ ¬(quote.volume < 0 ∨ quote.dollarVolume < 0) := by
  constructor
  · intro h
    unfold fault? at h
    split at h
    · cases h
    · rename_i hbook
      split at h
      · cases h
      · rename_i hordered
        split at h
        · cases h
        · rename_i hprice
          split at h
          · cases h
          · rename_i hvolumes
            simp only [Bool.or_eq_true, Bool.not_eq_true', not_or, Bool.not_eq_false] at hbook hprice
            exact ⟨⟨hbook.1, hbook.2, Int64.not_lt.1 hordered, hprice⟩, by simpa using hvolumes⟩
  · rintro ⟨h, hvolumes⟩
    rw [fault?, h.bid, h.ask, h.price, if_neg (by decide), if_neg (Int64.not_lt.2 h.ordered),
      if_neg (by decide), if_neg (by simpa using hvolumes)]

theorem fault?_of_valid {quote : Quote} (h : (Record.quote quote).isValid = true) :
    quote.fault? = none := by
  rw [Record.isValid, Option.isNone_iff_eq_none, Record.fault?] at h
  split at h
  · cases h
  · exact h

theorem priced_of_valid {quote : Quote} (h : (Record.quote quote).isValid = true) : quote.Priced :=
  (fault?_eq_none_iff.1 (fault?_of_valid h)).1

theorem Priced.mirror {quote : Quote} (h : quote.Priced) : quote.mirror.Priced where
  bid := isCents_complement h.ask
  ask := isCents_complement h.bid
  ordered := by
    have hordered := h.ordered
    rw [Int64.le_iff_toInt_le] at hordered ⊢
    show (100 - quote.yesAsk).toInt ≤ (100 - quote.yesBid).toInt
    rw [toInt_complement h.ask, toInt_complement h.bid]
    omega
  price := isCents_complement h.price

theorem Priced.midpoint_eq_half {quote : Quote} (h : quote.Priced) {n : ℕ}
    (heq : quote.yesBid.toInt + quote.yesAsk.toInt = n) : quote.midpoint = half n := by
  rw [midpoint, toInt_add_of_isCents h.bid h.ask, heq]
  rfl

private theorem Priced.midpoint_eq {quote : Quote} (h : quote.Priced) :
    ∃ n ≤ 200, quote.midpoint = half n ∧ quote.mirror.midpoint = half (200 - n) := by
  have hbid := isCents_iff.1 h.bid
  have hask := isCents_iff.1 h.ask
  refine ⟨(quote.yesBid.toInt + quote.yesAsk.toInt).toNat, by omega, h.midpoint_eq_half (by omega),
    h.mirror.midpoint_eq_half ?_⟩
  show (100 - quote.yesAsk).toInt + (100 - quote.yesBid).toInt = _
  rw [toInt_complement h.ask, toInt_complement h.bid]
  omega

theorem Priced.drift_opposite {first last : Quote} (hfirst : first.Priced) (hlast : last.Priced) :
    Opposite (last.midpoint - first.midpoint) (last.mirror.midpoint - first.mirror.midpoint) := by
  obtain ⟨a, ha, hmidpoint, hmidpoint'⟩ := hfirst.midpoint_eq
  obtain ⟨b, hb, hmidpoint₂, hmidpoint₂'⟩ := hlast.midpoint_eq
  rw [hmidpoint, hmidpoint', hmidpoint₂, hmidpoint₂']
  obtain ⟨hfinite, hvalue⟩ := half_sub (a := b) (b := a) (by omega) (by omega)
  obtain ⟨hfinite', hvalue'⟩ := half_sub (a := 200 - b) (b := 200 - a) (by omega) (by omega)
  apply opposite_of_values hfinite hfinite'
  rw [hvalue, hvalue', Nat.cast_sub ha, Nat.cast_sub hb]
  ring

private theorem Priced.abs_move_mirror {first last : Quote} (hfirst : first.Priced)
    (hlast : last.Priced) : (Float.ofInt (last.mirror.price - first.mirror.price).toInt).abs =
      (Float.ofInt (last.price - first.price).toInt).abs := by
  have hmove : last.mirror.price - first.mirror.price = first.price - last.price := by
    show 100 - last.price - (100 - first.price) = _
    grind
  have hneg : (first.price - last.price).toInt = -(last.price - first.price).toInt := by
    rw [toInt_sub_of_isCents hfirst.price hlast.price, toInt_sub_of_isCents hlast.price hfirst.price,
      Int.neg_sub]
  rw [hmove, hneg, abs_ofInt_neg]

end Quote

/-- The same trade on the other side; what was paid on its own side stays. -/
def Trade.mirror (trade : Trade) : Trade := { trade with side := trade.side.opposite }

theorem Side.sign_opposite (side : Side) : side.opposite.sign = -side.sign := by
  cases side
  · rfl
  · exact (float_neg_neg 1.0).symm

theorem Side.opposite_beq (side other : Side) : (side.opposite == other) = (side == other.opposite) := by
  cases side <;> cases other <;> rfl

namespace SideTotals

def swap (totals : SideTotals) : SideTotals := ⟨totals.no, totals.yes⟩

private theorem add_mirror (totals : SideTotals) (trade : Trade) :
    totals.swap.add trade.mirror = (totals.add trade).swap := by
  unfold add Trade.mirror
  cases trade.side <;> rfl

theorem ofTrades_mirror (trades : List Trade) :
    ofTrades (trades.map Trade.mirror) = (ofTrades trades).swap := by
  have hfold (totals : SideTotals) :
      (trades.map Trade.mirror).foldl add totals.swap = (trades.foldl add totals).swap := by
    induction trades generalizing totals with
    | nil => rfl
    | cons trade trades ih =>
      rw [List.map_cons, List.foldl_cons, List.foldl_cons, add_mirror, ih]
  exact hfold ⟨0, 0⟩

variable (totals : SideTotals)

def Tied : Prop := totals.yes = totals.no

instance : Decidable totals.Tied := inferInstanceAs (Decidable (_ = _))

variable {totals} in
private theorem lt_iff_of_untied (h : ¬totals.Tied) :
    totals.yes < totals.no ↔ ¬totals.no < totals.yes := by
  unfold Tied at h
  rw [← UInt64.toNat_inj] at h
  rw [UInt64.lt_iff_toNat_lt, UInt64.lt_iff_toNat_lt]
  omega

variable {totals} in
/-- Only a tie goes to the same side of the mirror. -/
theorem dominant_swap (h : ¬totals.Tied) : totals.swap.dominant = totals.dominant.opposite := by
  unfold dominant Side.dominant swap
  by_cases hno : totals.no < totals.yes
  · rw [if_pos hno, if_neg (fun hyes => (lt_iff_of_untied h).1 hyes hno)]
    rfl
  · rw [if_neg hno, if_pos ((lt_iff_of_untied h).2 hno)]
    rfl

theorem larger_swap : totals.swap.larger = totals.larger := by
  unfold larger swap
  by_cases h : totals.Tied
  · have heq : totals.yes = totals.no := h
    rw [heq]
  · by_cases hno : totals.no < totals.yes
    · rw [if_pos hno, if_neg (fun hyes => (lt_iff_of_untied h).1 hyes hno)]
    · rw [if_neg hno, if_pos ((lt_iff_of_untied h).2 hno)]

theorem total_swap : totals.swap.total = totals.total := by
  apply UInt64.toNat_inj.1
  rw [total, total, Contracts.toNat_add, Contracts.toNat_add, Nat.add_comm]
  rfl

end SideTotals

namespace Record

def mirror : Record → Record
  | trade t => trade t.mirror
  | quote q => quote q.mirror

@[simp] theorem mirror_ts (record : Record) : record.mirror.ts = record.ts := by
  cases record <;> rfl

@[simp] theorem mirror_instrument (record : Record) : record.mirror.instrument = record.instrument := by
  cases record <;> rfl

private theorem mirror_trade? (record : Record) :
    record.mirror.trade? = record.trade?.map Trade.mirror := by
  cases record <;> rfl

private theorem mirror_quote? (record : Record) :
    record.mirror.quote? = record.quote?.map Quote.mirror := by
  cases record <;> rfl

theorem isValid_mirror {record : Record} (h : record.isValid = true) : record.mirror.isValid = true := by
  simp only [isValid, Option.isNone_iff_eq_none, fault?, mirror_instrument] at h ⊢
  split at h
  · cases h
  · rename_i hblank
    rw [if_neg hblank]
    cases record with
    | trade t => exact h
    | quote q =>
      obtain ⟨hpriced, hvolumes⟩ := Quote.fault?_eq_none_iff.1 h
      exact Quote.fault?_eq_none_iff.2 ⟨hpriced.mirror, hvolumes⟩

end Record

namespace Tape

variable {tape : Tape} {window : Span}

def mirror (tape : Tape) : Tape := { tape with records := tape.records.map Record.mirror }

private theorem update_mirror (tape : Tape) (record : Record) :
    tape.mirror.update record.mirror = (tape.update record).mirror := by
  have hage (cutoff : Timestamp) :
      (fun r : Record => decide (r.ts < cutoff)) ∘ Record.mirror = fun r => decide (r.ts < cutoff) := by
    funext r
    rw [Function.comp, Record.mirror_ts]
  simp only [update, mirror, Record.mirror_ts, ← List.map_singleton, ← List.map_append,
    List.dropWhile_map]
  split
  · rw [hage]
  · rfl

theorem updateAll_mirror (tape : Tape) (records : List Record) :
    tape.mirror.updateAll (records.map Record.mirror) = (tape.updateAll records).mirror := by
  induction records generalizing tape with
  | nil => rfl
  | cons record records ih =>
    show (tape.mirror.update record.mirror).updateAll _ = _
    rw [update_mirror, ih]
    rfl

private theorem within_mirror (tape : Tape) (window : Span) :
    tape.mirror.within window = (tape.within window).map Record.mirror := by
  have hlatest : tape.mirror.windowStart? window = tape.windowStart? window := rfl
  unfold within
  rw [hlatest]
  split
  · simp only [mirror, List.filter_map, Function.comp_def, Record.mirror_ts]
  · rfl

theorem tradesWithin_mirror (tape : Tape) (window : Span) :
    tape.mirror.tradesWithin window = (tape.tradesWithin window).map Trade.mirror := by
  simp only [tradesWithin, within_mirror, List.filterMap_map, List.map_filterMap, Function.comp_def,
    Record.mirror_trade?]

theorem quotesWithin_mirror (tape : Tape) (window : Span) :
    tape.mirror.quotesWithin window = (tape.quotesWithin window).map Quote.mirror := by
  simp only [quotesWithin, within_mirror, List.filterMap_map, List.map_filterMap, Function.comp_def,
    Record.mirror_quote?]

theorem lastTradeBefore?_mirror (tape : Tape) (window : Span) :
    tape.mirror.lastTradeBefore? window = (tape.lastTradeBefore? window).map Trade.mirror := by
  have hlatest : tape.mirror.windowStart? window = tape.windowStart? window := rfl
  unfold lastTradeBefore?
  rw [hlatest]
  split
  · simp only [mirror, ← List.map_reverse, List.dropWhile_map, Function.comp_def, Record.mirror_ts,
      List.findSome?_map, Record.mirror_trade?, List.map_findSome?]
  · rfl

theorem tradeFlow_mirror (tape : Tape) (window : Span) :
    tape.mirror.tradeFlow window =
      { tape.tradeFlow window with totals := (tape.tradeFlow window).totals.swap } := by
  simp only [tradeFlow, tradesWithin_mirror, List.length_map, SideTotals.ofTrades_mirror]

private theorem quoteEnds?_mirror (tape : Tape) (window : Span) :
    tape.mirror.quoteEnds? window =
      (tape.quoteEnds? window).map fun ends => (ends.1.mirror, ends.2.mirror) :=
  quoteEnds?_map (quotesWithin_mirror tape window)

private theorem mem_of_quoteEnds? {tape : Tape} {window : Span} {first last : Quote}
    (h : tape.quoteEnds? window = some (first, last)) :
    first ∈ tape.quotesWithin window ∧ last ∈ tape.quotesWithin window := by
  unfold quoteEnds? at h
  cases hquotes : tape.quotesWithin window with
  | nil => rw [hquotes] at h; cases h
  | cons q rest =>
    rw [hquotes] at h
    obtain ⟨r, hlast, hends⟩ := Option.map_eq_some_iff.1 h
    cases hends
    exact ⟨List.mem_cons_self, List.mem_cons_of_mem _ (List.mem_of_getLast? hlast)⟩

theorem abs_priceChange_mirror {tape : Tape} (h : ∀ r ∈ tape.records, r.isValid = true)
    (window : Span) : (tape.mirror.priceChange window).abs = (tape.priceChange window).abs := by
  simp only [priceChange, quoteEnds?_mirror]
  cases hends : tape.quoteEnds? window with
  | none => rfl
  | some ends =>
    obtain ⟨hfirst, hlast⟩ := mem_of_quoteEnds? hends
    exact (Quote.priced_of_valid (quotesWithin_valid h window _ hfirst)).abs_move_mirror
      (Quote.priced_of_valid (quotesWithin_valid h window _ hlast))

theorem volumeRate_mirror (tape : Tape) (window : Span) :
    tape.mirror.volumeRate window = tape.volumeRate window := by
  simp only [volumeRate, quoteEnds?_mirror]
  cases tape.quoteEnds? window <;> rfl

end Tape

end SignalDesk
