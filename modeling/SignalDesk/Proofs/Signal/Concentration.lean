import SignalDesk.Proofs.Reading
import SignalDesk.Proofs.Stats.Concentration

/-!
# The magnitude of a concentration

Trade concentration rescales the index of its window so that equal trades are 0 and a single trade is 1,
and clamps the result. In fractions there is nothing to clamp as long as a word can hold the contracts of
the window, and it can hold those of eighteen billion accepted trades.
-/

namespace SignalDesk

namespace Tape

private theorem record_of_tradesWithin {tape : Tape} {window : Span} {trade : Trade}
    (h : trade ∈ tape.tradesWithin window) : Record.trade trade ∈ tape.records := by
  obtain ⟨record, hrecord, htrade⟩ := List.mem_filterMap.1 h
  have hheld : record ∈ tape.records := (within_sublist tape window).subset hrecord
  cases record with
  | trade t =>
    obtain rfl := Option.some.inj htrade
    exact hheld
  | quote q => cases htrade

def countsWithin (tape : Tape) (window : Span) : List Contracts :=
  (tape.tradesWithin window).map Trade.count

variable {tape : Tape} (haccepted : ∀ r ∈ tape.records, r.Accepted) {window : Span}

include haccepted

private theorem countsWithin_bounds :
    ∀ count ∈ tape.countsWithin window, 0 < count ∧ count ≤ maxTradeCount := by
  intro count hcount
  obtain ⟨trade, htrade, rfl⟩ := List.mem_map.1 hcount
  exact (haccepted _ (record_of_tradesWithin htrade)).count_bounds

private theorem countsWithin_fit (h : (tape.countsWithin window).length ≤ 18446744073) :
    ((tape.countsWithin window).map UInt64.toNat).sum < UInt64.size := by
  have hcounts : ∀ n ∈ (tape.countsWithin window).map UInt64.toNat, n ≤ 1000000000 := by
    intro n hn
    obtain ⟨count, hcount, rfl⟩ := List.mem_map.1 hn
    exact UInt64.le_iff_toNat_le.1 (countsWithin_bounds haccepted count hcount).2
  have hsum := List.sum_le_card_nsmul _ _ hcounts
  rw [List.length_map, smul_eq_mul] at hsum
  calc ((tape.countsWithin window).map UInt64.toNat).sum
      ≤ (tape.countsWithin window).length * 1000000000 := hsum
    _ ≤ 18446744073 * 1000000000 := Nat.mul_le_mul_right _ h
    _ < UInt64.size := by decide

private theorem sample_of_window (hnonempty : tape.countsWithin window ≠ [])
    (hfits : ((tape.countsWithin window).map UInt64.toNat).sum < UInt64.size) :
    Contracts.Sample (tape.countsWithin window) :=
  ⟨hnonempty, fun count hcount => (countsWithin_bounds haccepted count hcount).1, hfits⟩

end Tape

namespace TradeConcentration

open Stats Contracts

/-- The magnitude before it is clamped; a single trade has all of it. -/
def unclamped {α : Type} [Quantity α] (index : α) (n : ℕ) : α :=
  if n ≤ 1 then Quantity.ofNat 1 else rescale index n

private theorem magnitude_eq_clamp (index : Float) (n : ℕ) :
    magnitude index n = FloatOrder.clamp 0.0 1.0 (unclamped index n) := by
  unfold magnitude unclamped
  split
  · rfl
  · rfl

/-- The score and the confidence for the trades of a window, unless they are few, empty or even. -/
def opinion (settings : TradeConcentrationSettings) (window : Span) (tape : Tape) :
    Option (Float × Float) :=
  let counts := tape.countsWithin window
  let total := Contracts.sum counts
  let index : Float := herfindahl counts
  if counts.length < settings.minTrades.toNat then none
  else if total = 0 then none
  else if index < settings.concentrationThreshold then none
  else
    some ((SideTotals.ofTrades (tape.tradesWithin window)).dominant.sign * magnitude index counts.length,
      (if total < 100 then total else 100).toFloat / 100.0)

/-- The signal weighs the side that holds most contracts by the magnitude of the counts. -/
theorem read_tells (settings : TradeConcentrationSettings) (window : Span) (tape : Tape) :
    (read settings window tape).Tells (opinion settings window tape) := by
  have hlength : (tape.countsWithin window).length = (tape.tradesWithin window).length :=
    List.length_map _
  simp only [opinion, hlength]
  apply Reading.Tells.ite (Reading.Tells.silent _)
  apply Reading.Tells.ite (Reading.Tells.silent _)
  apply Reading.Tells.ite (Reading.Tells.silent _)
  apply Reading.Tells.bounded

private theorem rescale_eq (index : ℚ) (n : ℕ) : rescale index n = (index - 1 / n) / (1 - 1 / n) := by
  show (index - (1 : ℕ) / n) / ((1 : ℕ) - (1 : ℕ) / n) = _
  rw [Nat.cast_one]

private theorem one_sub_even_pos {n : ℕ} (h : 1 < n) : (0 : ℚ) < 1 - 1 / n := by
  have hn : (1 : ℚ) < n := by exact_mod_cast h
  rw [sub_pos, div_lt_one (zero_lt_one.trans hn)]
  exact hn

private theorem unclamped_mono {index index' : ℚ} (h : index ≤ index') (n : ℕ) :
    unclamped index n ≤ unclamped index' n := by
  unfold unclamped
  split
  · exact le_rfl
  · rename_i hmany
    rw [rescale_eq, rescale_eq]
    have hscale := one_sub_even_pos (not_le.1 hmany)
    gcongr

section

variable {counts : List Contracts} (h : Sample counts)

include h

private theorem unclamped_nonneg : 0 ≤ unclamped (herfindahl counts : ℚ) counts.length := by
  unfold unclamped
  split
  · exact zero_le_one
  · rename_i hmany
    rw [rescale_eq]
    exact div_nonneg (sub_nonneg.2 (even_le_herfindahl h)) (one_sub_even_pos (not_le.1 hmany)).le

private theorem unclamped_le_one : unclamped (herfindahl counts : ℚ) counts.length ≤ 1 := by
  unfold unclamped
  split
  · exact le_of_eq Nat.cast_one
  · rename_i hmany
    rw [rescale_eq, div_le_one (one_sub_even_pos (not_le.1 hmany)), sub_le_sub_iff_right]
    exact herfindahl_le_one h

private theorem unclamped_eq_zero_iff (hmany : 2 ≤ counts.length) :
    unclamped (herfindahl counts : ℚ) counts.length = 0 ↔ ∀ a ∈ counts, ∀ b ∈ counts, a = b := by
  rw [unclamped, if_neg (not_le.2 hmany), rescale_eq, div_eq_zero_iff,
    or_iff_left (one_sub_even_pos hmany).ne', sub_eq_zero, herfindahl_eq_even_iff h]

end

/--
In fractions the index of some counts lies between that of equal counts, which only equal counts have,
and one, which only a single count has. It does not depend on the order of the counts and does not fall
when contracts move from a count to a larger one. The signal weighs the side that holds most contracts of
its window by their magnitude, which is the rescaled index, clamped. In fractions there is nothing to
clamp: the magnitude lies between 0, which it is for equal trades, and 1, and it does not fall with such a
move either. A word can hold the contracts of the window unless it has more than eighteen billion trades.
-/
theorem concentration_of_counts :
    (∀ counts : List Contracts, Sample counts →
      let even : ℚ := 1 / counts.length
      let index : ℚ := herfindahl counts
      (even ≤ index ∧ index ≤ 1) ∧
      (index = even ↔ ∀ a ∈ counts, ∀ b ∈ counts, a = b) ∧
      (index = 1 ↔ counts.length = 1) ∧
      (∀ other, counts.Perm other → herfindahl other = index) ∧
      ∀ other, Transfer counts other → index ≤ herfindahl other) ∧
    (∀ settings window tape, (read settings window tape).Tells (opinion settings window tape)) ∧
    (∀ (index : Float) (n : ℕ), magnitude index n = FloatOrder.clamp 0.0 1.0 (unclamped index n)) ∧
    ∀ (tape : Tape) (window : Span), (∀ r ∈ tape.records, r.Accepted) →
      let counts := tape.countsWithin window
      let magnitude : ℚ := unclamped (herfindahl counts) counts.length
      counts ≠ [] →
      (counts.length ≤ 18446744073 → (counts.map UInt64.toNat).sum < UInt64.size) ∧
      ((counts.map UInt64.toNat).sum < UInt64.size →
        (0 ≤ magnitude ∧ magnitude ≤ 1) ∧
        (2 ≤ counts.length → (magnitude = 0 ↔ ∀ a ∈ counts, ∀ b ∈ counts, a = b)) ∧
        ∀ (tape' : Tape) (window' : Span), Transfer counts (tape'.countsWithin window') →
          magnitude ≤ unclamped (herfindahl (tape'.countsWithin window'))
            (tape'.countsWithin window').length) := by
  refine ⟨fun counts h => ?_, read_tells, magnitude_eq_clamp, fun tape window haccepted => ?_⟩
  · exact ⟨⟨even_le_herfindahl h, herfindahl_le_one h⟩, herfindahl_eq_even_iff h,
      herfindahl_eq_one_iff h, fun _ => herfindahl_perm, fun _ => herfindahl_le_of_transfer h.fits⟩
  · intro counts magnitude hnonempty
    refine ⟨Tape.countsWithin_fit haccepted, fun hfits => ?_⟩
    have hsample : Sample counts := Tape.sample_of_window haccepted hnonempty hfits
    refine ⟨⟨unclamped_nonneg hsample, unclamped_le_one hsample⟩, unclamped_eq_zero_iff hsample, ?_⟩
    intro tape' window' htransfer
    rw [htransfer.length_eq]
    exact unclamped_mono (herfindahl_le_of_transfer hfits htransfer) _

/-- A large trade among small ones, and the same with a contract of a small one moved to it. -/
theorem concentration_of_counts_of_large_trade :
    let trades (large small : Contracts) : List Record := [.trade ⟨"RAIN", 0, .yes, large, 60⟩,
      .trade ⟨"RAIN", 1000, .no, small, 40⟩, .trade ⟨"RAIN", 2000, .no, 2, 40⟩]
    let tape := (Tape.empty "RAIN" 3600000).updateAll (trades 50 2)
    let tape' := (Tape.empty "RAIN" 3600000).updateAll (trades 51 1)
    let index : ℚ := herfindahl (tape.countsWithin 300000)
    (∀ r ∈ tape.records, r.Accepted) ∧ Sample (tape.countsWithin 300000) ∧
      Transfer (tape.countsWithin 300000) (tape'.countsWithin 300000) ∧
      index = 209 / 243 ∧ 1 / 3 ≤ index ∧ unclamped index 3 ≤ 1 ∧
      unclamped index 3 ≤ unclamped (herfindahl (tape'.countsWithin 300000)) 3 := by
  intro trades tape tape' index
  have haccepted : ∀ r ∈ tape.records, r.Accepted := by decide +kernel
  have hcounts : tape.countsWithin 300000 = [50, 2, 2] := by decide +kernel
  have hcounts' : tape'.countsWithin 300000 = [51, 1, 2] := by decide +kernel
  have htransfer : Transfer (tape.countsWithin 300000) (tape'.countsWithin 300000) := by
    rw [hcounts, hcounts']
    exact .intro 1 (List.Perm.swap 2 50 [2]) (List.Perm.swap 1 51 [2]) (by decide) rfl rfl
  obtain ⟨hindex, -, -, hwindow⟩ := concentration_of_counts
  obtain ⟨hfits, hmagnitude⟩ := hwindow tape 300000 haccepted (by rw [hcounts]; nofun)
  have hfits := hfits (by rw [hcounts]; decide)
  obtain ⟨⟨-, hle⟩, -, hgrows⟩ := hmagnitude hfits
  have hsample : Sample (tape.countsWithin 300000) :=
    Tape.sample_of_window haccepted (by rw [hcounts]; nofun) hfits
  obtain ⟨⟨heven, -⟩, -⟩ := hindex _ hsample
  have hgrows := hgrows tape' 300000 htransfer
  simp only [hcounts, hcounts', List.length_cons, List.length_nil] at heven hle hgrows
  refine ⟨haccepted, hsample, htransfer, ?_, ?_, ?_, ?_⟩
  all_goals simp only [index, hcounts, hcounts']
  · decide +kernel
  · exact_mod_cast heven
  · exact hle
  · exact hgrows

end TradeConcentration

end SignalDesk
