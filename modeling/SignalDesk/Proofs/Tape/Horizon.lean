import Mathlib.Data.List.Basic
import Mathlib.Data.List.Induction
import SignalDesk.Market.Tape
import SignalDesk.Proofs.Record

/-!
# What a tape remembers

A tape drops the records that have left its retention. For records in the order of time it holds
exactly those that lie within the retention of the complete history, so no window up to the length of
the retention can tell the tape from the complete history.
-/

namespace SignalDesk

section split

variable {α β : Type}

theorem dropWhile_eq_filter {p : α → Bool} {items : List α}
    (h : items.Pairwise fun a b => p b = true → p a = true) :
    items.dropWhile p = items.filter fun a => !p a := by
  induction items with
  | nil => rfl
  | cons a items ih =>
    obtain ⟨hfirst, hrest⟩ := List.pairwise_cons.1 h
    cases ha : p a with
    | true => simp [ha, ih hrest]
    | false =>
      have hall : items.filter (fun b => !p b) = items := by
        refine List.filter_eq_self.2 fun b hb => ?_
        cases hpb : p b with
        | true => simp [hfirst b hb hpb] at ha
        | false => rfl
      simp [ha, hall]

/-- What fulfils a condition comes last if the condition never ceases to hold. -/
theorem filter_not_append_filter {p : α → Bool} {items : List α}
    (h : items.Pairwise fun a b => p a = true → p b = true) :
    (items.filter fun a => !p a) ++ items.filter p = items := by
  induction items with
  | nil => rfl
  | cons a items ih =>
    obtain ⟨hfirst, hrest⟩ := List.pairwise_cons.1 h
    cases ha : p a with
    | false => simp [ha, ih hrest]
    | true =>
      have hnone : items.filter (fun b => !p b) = [] := by
        refine List.filter_eq_nil_iff.2 fun b hb => ?_
        simp [hfirst b hb ha]
      have hall : items.filter p = items := List.filter_eq_self.2 fun b hb => hfirst b hb ha
      simp [ha, hnone, hall]

private theorem findSome?_filter {f : α → Option β} {p : α → Bool} {items : List α}
    (h : ∀ a ∈ items, ∀ b, f a = some b → items.findSome? f = some b → p a = true) :
    (items.filter p).findSome? f = items.findSome? f := by
  induction items with
  | nil => rfl
  | cons a items ih =>
    cases ha : f a with
    | some b =>
      have hkept : p a = true := h a List.mem_cons_self b ha (by simp [ha])
      simp [hkept, ha]
    | none =>
      have hrest := ih fun x hmem b hx hfound =>
        h x (List.mem_cons_of_mem a hmem) b hx (by simpa [ha] using hfound)
      cases hp : p a <;> simp [hp, ha, hrest]

end split

/-- The earliest time that a span before `ts` reaches back to. -/
def Timestamp.horizon (ts : Timestamp) (span : Span) : Timestamp :=
  (ts.before? span).getD earliest

theorem Timestamp.horizon_eq {ts : Timestamp} {span : Span} (hts : Timestamp.inRange ts = true)
    (hspan : 0 ≤ span) : ts.horizon span = max earliest (ts - span) := by
  rw [Timestamp.inRange_iff] at hts
  unfold Timestamp.horizon Timestamp.before?
  split <;> simp only [Option.getD_some, Option.getD_none] <;> grind

private theorem Timestamp.horizon_le {ts ts' : Timestamp} {span span' : Span}
    (hts : Timestamp.inRange ts = true) (hts' : Timestamp.inRange ts' = true) (h : ts ≤ ts')
    (hspan : 0 ≤ span) (hle : span ≤ span') : ts.horizon span' ≤ ts'.horizon span := by
  rw [horizon_eq hts (Int.le_trans hspan hle), horizon_eq hts' hspan]
  grind

/-- Records as a live stream has them: the calendar has their times, and time does not go back. -/
structure Chronological (records : List Record) : Prop where
  inRange : ∀ record ∈ records, Timestamp.inRange record.ts = true
  sorted : records.Pairwise fun a b => a.ts ≤ b.ts

theorem Chronological.sublist {records others : List Record} (h : Chronological records)
    (hsub : others.Sublist records) : Chronological others :=
  ⟨fun r hr => h.inRange r (hsub.subset hr), h.sorted.sublist hsub⟩

private theorem Chronological.of_concat {records : List Record} {record : Record}
    (h : Chronological (records ++ [record])) : Chronological records :=
  h.sublist (List.sublist_append_left _ _)

theorem Chronological.le_last {records : List Record} {record : Record}
    (h : Chronological (records ++ [record])) : ∀ r ∈ records, r.ts ≤ record.ts :=
  fun r hr => (List.pairwise_append.1 h.sorted).2.2 r hr record List.mem_cons_self

namespace Tape

variable {instrument : String} {retention window : Span} {records : List Record}

def updateAll (tape : Tape) (records : List Record) : Tape := records.foldl update tape

/-- The tape that would come of some records if none were ever dropped. -/
def complete (instrument : String) (retention : Span) (records : List Record) : Tape :=
  ⟨instrument, retention, records, records.getLast?.map Record.ts⟩

theorem update_forall {holds : Record → Prop} {tape : Tape} {record : Record} (hrecord : holds record)
    (h : ∀ r ∈ tape.records, holds r) : ∀ r ∈ (tape.update record).records, holds r := by
  have hall : ∀ r ∈ tape.records ++ [record], holds r := by
    simpa [or_imp, forall_and] using ⟨h, hrecord⟩
  intro r hr
  simp only [update] at hr
  split at hr
  · exact hall r ((List.dropWhile_sublist _).subset hr)
  · exact hall r hr

theorem update_valid {tape : Tape} {record : Record} (hrecord : record.isValid = true)
    (h : ∀ r ∈ tape.records, r.isValid = true) : ∀ r ∈ (tape.update record).records, r.isValid = true :=
  update_forall hrecord h

theorem updateAll_valid {tape : Tape} {records : List Record}
    (hrecords : ∀ record ∈ records, record.isValid = true)
    (h : ∀ r ∈ tape.records, r.isValid = true) :
    ∀ r ∈ (tape.updateAll records).records, r.isValid = true := by
  induction records generalizing tape with
  | nil => exact h
  | cons record records ih =>
    obtain ⟨hrecord, hrest⟩ := List.forall_mem_cons.1 hrecords
    exact ih hrest (update_valid hrecord h)

theorem latestQuote?_valid {tape : Tape} (h : ∀ r ∈ tape.records, r.isValid = true) :
    ∀ book ∈ tape.latestQuote?, (Record.quote book).isValid = true := by
  intro book hbook
  obtain ⟨record, hrecord, hquote⟩ := List.exists_of_findSome?_eq_some hbook
  have hvalid := h record (List.mem_reverse.1 hrecord)
  cases record with
  | trade t => cases hquote
  | quote q =>
    cases hquote
    exact hvalid

theorem within_sublist (tape : Tape) (window : Span) : (tape.within window).Sublist tape.records := by
  unfold within
  split
  · exact List.filter_sublist
  · exact List.nil_sublist _

theorem quotesWithin_valid {tape : Tape} (h : ∀ r ∈ tape.records, r.isValid = true) (window : Span) :
    ∀ quote ∈ tape.quotesWithin window, (Record.quote quote).isValid = true := by
  intro quote hquote
  obtain ⟨record, hrecord, hsome⟩ := List.mem_filterMap.1 hquote
  have hvalid : record.isValid = true := h record ((within_sublist tape window).subset hrecord)
  cases record with
  | trade t => cases hsome
  | quote q =>
    cases hsome
    exact hvalid

/-- The ends of a window are changed like its quotes. -/
theorem quoteEnds?_map {tape tape' : Tape} {window : Span} {f : Quote → Quote}
    (h : tape'.quotesWithin window = (tape.quotesWithin window).map f) :
    tape'.quoteEnds? window = (tape.quoteEnds? window).map fun ends => (f ends.1, f ends.2) := by
  unfold quoteEnds?
  rw [h]
  cases tape.quotesWithin window with
  | nil => rfl
  | cons first rest =>
    simp only [List.map_cons, List.getLast?_map, Option.map_map]
    rfl

theorem updateAll_concat (tape : Tape) (records : List Record) (record : Record) :
    tape.updateAll (records ++ [record]) = (tape.updateAll records).update record := by
  simp [updateAll]

theorem within_eq_filter {tape : Tape} {ts : Timestamp} (h : tape.latest = some ts)
    (window : Span) : tape.within window = tape.records.filter fun r => ts.horizon window ≤ r.ts := by
  simp only [within, windowStart?, h, Option.map_some]
  rfl

theorem complete_latest (earlier : List Record) (last : Record) :
    (complete instrument retention (earlier ++ [last])).latest = some last.ts := by
  simp only [complete, List.getLast?_concat, Option.map_some]

private theorem within_complete_subset :
    ((complete instrument retention records).within window).Sublist records :=
  within_sublist _ window

private theorem filter_within {start : Timestamp}
    (h : ∀ last ∈ records.getLast?, last.ts.horizon window ≤ start) :
    ((complete instrument retention records).within window).filter (fun r => start ≤ r.ts) =
      records.filter fun r => start ≤ r.ts := by
  rcases List.eq_nil_or_concat' records with rfl | ⟨earlier, last, rfl⟩
  · rfl
  · have hstart := h last (by simp)
    rw [within_eq_filter (complete_latest earlier last), List.filter_filter]
    refine List.filter_congr fun r _ => ?_
    rw [Bool.and_eq_left_iff_imp, decide_eq_true_iff, decide_eq_true_iff]
    exact Int.le_trans hstart

private theorem update_held {held : List Record} {newest : Option Timestamp} {record : Record}
    (h : Chronological (held ++ [record])) :
    (⟨instrument, retention, held, newest⟩ : Tape).update record =
      ⟨instrument, retention,
        (held ++ [record]).filter fun r => record.ts.horizon retention ≤ r.ts, some record.ts⟩ := by
  have hdrop (cutoff : Timestamp) : (held ++ [record]).dropWhile (fun r => r.ts < cutoff) =
      (held ++ [record]).filter fun r => cutoff ≤ r.ts := by
    rw [dropWhile_eq_filter]
    · refine List.filter_congr fun r _ => ?_
      simp only [← decide_not, Int.not_lt]
    · refine h.sorted.imp fun {a b} hab hb => ?_
      rw [decide_eq_true_iff] at hb ⊢
      exact Int.lt_of_le_of_lt hab hb
  have hall : (held ++ [record]).filter (fun r => earliest ≤ r.ts) = held ++ [record] := by
    refine List.filter_eq_self.2 fun r hr => ?_
    exact decide_eq_true (Timestamp.inRange_iff.1 (h.inRange r hr)).1
  unfold update Timestamp.horizon
  cases record.ts.before? retention with
  | some cutoff => simp only [hdrop, Option.getD_some]
  | none => simp only [hall, Option.getD_none]

/-- The tape holds what lies within its retention, and nothing else. -/
theorem updateAll_empty (instrument : String) (h : Chronological records) (hretention : 0 ≤ retention) :
    (empty instrument retention).updateAll records = ⟨instrument, retention,
      (complete instrument retention records).within retention,
      (complete instrument retention records).latest⟩ := by
  induction records using List.reverseRecOn with
  | nil => rfl
  | append_singleton records record ih =>
    rw [updateAll_concat, ih h.of_concat]
    generalize hheld : (complete instrument retention records).within retention = held
    have hkept : Chronological (held ++ [record]) := by
      refine h.sublist (List.Sublist.append_right ?_ _)
      exact hheld ▸ within_complete_subset
    have hlast : ∀ last ∈ records.getLast?,
        last.ts.horizon retention ≤ record.ts.horizon retention := by
      intro last hlast
      have hmem := List.mem_of_getLast? hlast
      exact Timestamp.horizon_le (h.inRange last (by simp [hmem])) (h.inRange record (by simp))
        (h.le_last last hmem) hretention (Int.le_refl _)
    rw [update_held hkept, within_eq_filter (complete_latest records record), complete_latest,
      List.filter_append, ← hheld, filter_within hlast, ← List.filter_append]
    rfl

/-- The complete history is what a tape holds whose retention spans the calendar. -/
theorem updateAll_eq_complete (h : Chronological records)
    (hretention : SignalDesk.latest - earliest ≤ retention) :
    (empty instrument retention).updateAll records = complete instrument retention records := by
  have hnonneg : 0 ≤ retention := Int.le_trans (by decide) hretention
  rw [updateAll_empty instrument h hnonneg]
  rcases List.eq_nil_or_concat' records with rfl | ⟨earlier, last, rfl⟩
  · rfl
  · have hlast := Timestamp.inRange_iff.1 (h.inRange last (by simp))
    have hall : (earlier ++ [last]).filter (fun r => last.ts.horizon retention ≤ r.ts) =
        earlier ++ [last] := by
      refine List.filter_eq_self.2 fun r hr => decide_eq_true ?_
      have hr := Timestamp.inRange_iff.1 (h.inRange r hr)
      rw [Timestamp.horizon_eq (h.inRange last (by simp)) hnonneg]
      grind
    rw [within_eq_filter (complete_latest earlier last)]
    simp only [complete, hall]

/-- A window up to the length of the retention misses nothing. -/
theorem within_updateAll (h : Chronological records) (hwindow : 0 ≤ window)
    (hle : window ≤ retention) : ((empty instrument retention).updateAll records).within window =
      (complete instrument retention records).within window := by
  rw [updateAll_empty instrument h (Int.le_trans hwindow hle)]
  rcases List.eq_nil_or_concat' records with rfl | ⟨earlier, last, rfl⟩
  · rfl
  · have hlast := h.inRange last (by simp)
    have hmiss : ∀ other ∈ (earlier ++ [last]).getLast?,
        other.ts.horizon retention ≤ last.ts.horizon window := by
      intro other hother
      rw [List.getLast?_concat, Option.mem_some_iff] at hother
      subst hother
      exact Timestamp.horizon_le hlast hlast (Int.le_refl _) hwindow hle
    rw [complete_latest, within_eq_filter rfl, within_eq_filter (complete_latest earlier last) window]
    exact filter_within hmiss

/-- The last trade before a window, if there is one, lies within the retention. -/
def Remembers (tape : Tape) (window : Span) : Prop :=
  ∀ trade ∈ tape.lastTradeBefore? window, ∀ ts ∈ tape.latest, ts - tape.retention ≤ trade.ts

instance (tape : Tape) (window : Span) : Decidable (tape.Remembers window) :=
  inferInstanceAs (Decidable (∀ trade ∈ tape.lastTradeBefore? window, ∀ ts ∈ tape.latest, _))

private theorem lastTradeBefore?_eq {tape : Tape} {ts : Timestamp} (h : tape.latest = some ts)
    (hsorted : tape.records.Pairwise fun a b => a.ts ≤ b.ts) (window : Span) :
    tape.lastTradeBefore? window =
      (tape.records.reverse.filter fun r => !decide (ts.horizon window ≤ r.ts)).findSome?
        Record.trade? := by
  have hdrop : tape.records.reverse.dropWhile (fun r => ts.horizon window ≤ r.ts) =
      tape.records.reverse.filter fun r => !decide (ts.horizon window ≤ r.ts) := by
    refine dropWhile_eq_filter (List.pairwise_reverse.2 (hsorted.imp fun {a b} hab ha => ?_))
    rw [decide_eq_true_iff] at ha ⊢
    exact Int.le_trans ha hab
  rw [← hdrop]
  simp only [lastTradeBefore?, windowStart?, h, Option.map_some]
  rfl

theorem Record.ts_of_trade? {record : Record} {trade : Trade} (h : record.trade? = some trade) :
    trade.ts = record.ts := by
  cases record with
  | trade t =>
    cases h
    rfl
  | quote q => cases h

/-- The last trade before a window is the same on the tape as on the complete history, unless it has
left the retention. -/
theorem lastTradeBefore?_updateAll (h : Chronological records) (hretention : 0 ≤ retention)
    (hremembers : (complete instrument retention records).Remembers window) :
    ((empty instrument retention).updateAll records).lastTradeBefore? window =
      (complete instrument retention records).lastTradeBefore? window := by
  rw [updateAll_empty instrument h hretention]
  rcases List.eq_nil_or_concat' records with rfl | ⟨earlier, last, rfl⟩
  · rfl
  · have hlatest : (complete instrument retention (earlier ++ [last])).latest = some last.ts :=
      complete_latest earlier last
    have hsorted := h.sorted
    rw [hlatest, within_eq_filter hlatest, lastTradeBefore?_eq hlatest hsorted,
      lastTradeBefore?_eq rfl (hsorted.sublist List.filter_sublist)]
    -- the two filters commute, and the outer one keeps the trade that is found
    rw [← List.filter_reverse, List.filter_filter]
    simp only [Bool.and_comm]
    rw [← List.filter_filter]
    refine findSome?_filter fun record hmem trade htrade hfound => ?_
    have hrecord := List.mem_reverse.1 (List.mem_of_mem_filter hmem)
    have hdated := Timestamp.inRange_iff.1 (h.inRange record hrecord)
    have hrecent : last.ts - retention ≤ trade.ts :=
      hremembers trade (by rw [lastTradeBefore?_eq hlatest hsorted]; exact hfound) last.ts hlatest
    rw [Record.ts_of_trade? htrade] at hrecent
    rw [decide_eq_true_iff, Timestamp.horizon_eq (h.inRange last (by simp)) hretention]
    exact Int.max_le.2 ⟨hdated.1, hrecent⟩

end Tape

end SignalDesk
