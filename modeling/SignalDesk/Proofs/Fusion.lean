import SignalDesk.Proofs.Composer
import SignalDesk.Proofs.Reading
import SignalDesk.Proofs.Float.Mean
import SignalDesk.Proofs.Float.Positive

/-!
# Fused readings are weighted means

The readings that have an opinion and a positive weight are heard. As long as the exact total of
their weights is a normal number below half of the largest float, the fused score and confidence are
finite and, but for a tolerance, the weighted means of what was heard; so they lie between the
extremes. Beyond these bounds the sums overflow, or lose the digits of the scores.
-/

namespace SignalDesk

open FloatValue

namespace WeightedReading

/-- Whether a reading has an opinion and a positive weight. -/
def IsHeard (byConfidence : Bool) (row : WeightedReading) : Prop :=
  (row.score == 0.0) = false ∧ 0.0 < row.effectiveWeight byConfidence

instance (byConfidence : Bool) (row : WeightedReading) : Decidable (row.IsHeard byConfidence) :=
  inferInstanceAs (Decidable (_ ∧ _))

/-- A weight in the mean as an exact number. -/
def exactWeight (byConfidence : Bool) (row : WeightedReading) : ℚ :=
  value (row.effectiveWeight byConfidence)

/-- What can be fused: a reading in bounds with a finite weight. -/
structure Fusible (byConfidence : Bool) (row : WeightedReading) : Prop where
  score_finite : row.score.isFinite = true
  score_le : |value row.score| ≤ 1
  confidence_finite : row.confidence.isFinite = true
  confidence_nonneg : 0 ≤ value row.confidence
  confidence_le : |value row.confidence| ≤ 1
  weight_finite : (row.effectiveWeight byConfidence).isFinite = true

variable {byConfidence : Bool} {row : WeightedReading}

private theorem IsHeard.exactWeight_pos (h : row.IsHeard byConfidence)
    (hrow : row.Fusible byConfidence) : 0 < row.exactWeight byConfidence := by
  have hpos := h.2
  rwa [lt_iff isFinite_zero hrow.weight_finite, value_zero] at hpos

private theorem contributes_iff (hrow : row.Fusible byConfidence) :
    row.contributes byConfidence = true ↔ row.IsHeard byConfidence := by
  have hle : row.effectiveWeight byConfidence ≤ 0.0 ↔ ¬ 0.0 < row.effectiveWeight byConfidence := by
    rw [le_iff hrow.weight_finite isFinite_zero, lt_iff isFinite_zero hrow.weight_finite, not_lt]
  simp [contributes, IsHeard, hrow.weight_finite, bne, hle]

end WeightedReading

namespace Fused

open WeightedReading

variable {byConfidence : Bool} {rows : List WeightedReading}

def exactTotal (byConfidence : Bool) (rows : List WeightedReading) : ℚ :=
  (rows.map (exactWeight byConfidence)).sum

/-- The weighted sum of a quantity of the readings. -/
def exactMoment (byConfidence : Bool) (quantity : WeightedReading → Float)
    (rows : List WeightedReading) : ℚ :=
  (rows.map fun row => row.exactWeight byConfidence * value (quantity row)).sum

def heard (byConfidence : Bool) (rows : List WeightedReading) : List WeightedReading :=
  rows.filter fun row => row.IsHeard byConfidence

private theorem mem_heard {row : WeightedReading} :
    row ∈ heard byConfidence rows ↔ row ∈ rows ∧ row.IsHeard byConfidence := by
  simp [heard]

private theorem heard_eq_nil_iff (rows : List WeightedReading) :
    heard byConfidence rows = [] ↔ ∀ row ∈ rows, ¬ row.IsHeard byConfidence := by
  simp [heard, List.filter_eq_nil_iff]

private theorem exactTotal_concat (rows : List WeightedReading) (row : WeightedReading) :
    exactTotal byConfidence (rows ++ [row]) =
      exactTotal byConfidence rows + row.exactWeight byConfidence := by
  simp [exactTotal]

private theorem exactMoment_concat (quantity : WeightedReading → Float) (rows : List WeightedReading)
    (row : WeightedReading) :
    exactMoment byConfidence quantity (rows ++ [row]) =
      exactMoment byConfidence quantity rows +
        row.exactWeight byConfidence * value (quantity row) := by
  simp [exactMoment]

private theorem exactTotal_append (before after : List WeightedReading) :
    exactTotal byConfidence (before ++ after) =
      exactTotal byConfidence before + exactTotal byConfidence after := by
  simp [exactTotal]

private theorem exactTotal_nonneg (hweight : ∀ row ∈ rows, 0 < row.exactWeight byConfidence) :
    0 ≤ exactTotal byConfidence rows := by
  apply List.sum_nonneg
  intro weight hmem
  obtain ⟨row, hrow, rfl⟩ := List.mem_map.1 hmem
  exact (hweight row hrow).le

private theorem abs_exactMoment_le {quantity : WeightedReading → Float}
    (hweight : ∀ row ∈ rows, 0 < row.exactWeight byConfidence)
    (hquantity : ∀ row ∈ rows, |value (quantity row)| ≤ 1) :
    |exactMoment byConfidence quantity rows| ≤ exactTotal byConfidence rows := by
  induction rows with
  | nil => simp [exactMoment, exactTotal]
  | cons row rest ih =>
    rw [List.forall_mem_cons] at hweight hquantity
    have hterm : |row.exactWeight byConfidence * value (quantity row)| ≤
        row.exactWeight byConfidence := by
      rw [abs_mul, abs_of_pos hweight.1]
      exact mul_le_of_le_one_right hweight.1.le hquantity.1
    have hrest := ih hweight.2 hquantity.2
    have htriangle := abs_add_le (row.exactWeight byConfidence * value (quantity row))
      (exactMoment byConfidence quantity rest)
    simp only [exactMoment, exactTotal, List.map_cons, List.sum_cons] at hrest htriangle ⊢
    linarith

private theorem mean_between (quantity : WeightedReading → Float) (hne : rows ≠ [])
    (hweight : ∀ row ∈ rows, 0 < row.exactWeight byConfidence) :
    ∃ low ∈ rows, ∃ high ∈ rows,
      value (quantity low) ≤ exactMoment byConfidence quantity rows / exactTotal byConfidence rows ∧
      exactMoment byConfidence quantity rows / exactTotal byConfidence rows ≤
        value (quantity high) := by
  have hpos : 0 < exactTotal byConfidence rows := by
    apply List.sum_pos
    · intro weight hmem
      obtain ⟨row, hrow, rfl⟩ := List.mem_map.1 hmem
      exact hweight row hrow
    · simpa using hne
  have hnonempty : {row | row ∈ rows}.Nonempty := List.exists_mem_of_ne_nil rows hne
  obtain ⟨low, hlow, hmin⟩ := Set.exists_min_image _ (fun row => value (quantity row))
    rows.finite_toSet hnonempty
  obtain ⟨high, hhigh, hmax⟩ := Set.exists_max_image _ (fun row => value (quantity row))
    rows.finite_toSet hnonempty
  refine ⟨low, hlow, high, hhigh, ?_, ?_⟩
  · rw [le_div_iff₀ hpos, mul_comm, exactTotal, ← List.sum_map_mul_right]
    apply List.sum_le_sum
    intro row hrow
    exact mul_le_mul_of_nonneg_left (hmin row hrow) (hweight row hrow).le
  · rw [div_le_iff₀ hpos, mul_comm, exactTotal, ← List.sum_map_mul_right]
    apply List.sum_le_sum
    intro row hrow
    exact mul_le_mul_of_nonneg_left (hmax row hrow) (hweight row hrow).le

/-- Sums over the rows heard so far, each close to the exact one. -/
structure Sums.Follows (byConfidence : Bool) (total : ℚ) (sums : Sums)
    (rows : List WeightedReading) : Prop where
  count : sums.count = rows.length
  weight : Tracks sums.weight (exactTotal byConfidence rows) total rows.length
  score : Tracks sums.score (exactMoment byConfidence WeightedReading.score rows) total rows.length
  confidence : Tracks sums.confidence (exactMoment byConfidence WeightedReading.confidence rows) total
    rows.length

private theorem follows_start (total : ℚ) :
    Sums.Follows byConfidence total ⟨0.0, 0.0, 0.0, 0⟩ [] := by
  have hzero : Tracks 0.0 0 total 0 := ⟨isFinite_zero, by simp⟩
  exact ⟨rfl, hzero, hzero, hzero⟩

theorem weighted_near {weight quantity : Float} {total : ℚ} (hweight : weight.isFinite = true)
    (hquantity : quantity.isFinite = true) (hone : |value quantity| ≤ 1)
    (htotal : |value weight| ≤ total) :
    Near (weight * quantity) (value weight * value quantity) (roundoff total) := by
  have hle : |value weight * value quantity| ≤ |value weight| := by
    rw [abs_mul]
    exact mul_le_of_le_one_right (abs_nonneg _) hone
  apply (near_mul hweight hquantity (hle.trans (abs_value_le hweight))).mono
  exact roundoff_mono (hle.trans htotal)

theorem Sums.Follows.add {sums : Sums} {total : ℚ} {row : WeightedReading}
    (h : sums.Follows byConfidence total rows)
    (hfusible : ∀ r ∈ rows ++ [row], r.Fusible byConfidence)
    (hheard : ∀ r ∈ rows ++ [row], r.IsHeard byConfidence)
    (hle : exactTotal byConfidence (rows ++ [row]) ≤ total) (htotal : total ≤ maxTotal)
    (hlength : rows.length < maxTerms) :
    (sums.add byConfidence row).Follows byConfidence total (rows ++ [row]) := by
  have hmem : row ∈ rows ++ [row] := by simp
  have hrow := hfusible row hmem
  have hpositive : ∀ r ∈ rows ++ [row], 0 < r.exactWeight byConfidence := by
    intro r hr
    exact (hheard r hr).exactWeight_pos (hfusible r hr)
  -- the exact sums stay within the total
  have hscores := (abs_exactMoment_le hpositive fun r hr => (hfusible r hr).score_le).trans hle
  have hconfidences :=
    (abs_exactMoment_le hpositive fun r hr => (hfusible r hr).confidence_le).trans hle
  have hweights : |exactTotal byConfidence (rows ++ [row])| ≤ total := by
    rwa [abs_of_nonneg (exactTotal_nonneg hpositive)]
  have hweight : |row.exactWeight byConfidence| ≤ total := by
    have hrest : 0 ≤ exactTotal byConfidence rows :=
      exactTotal_nonneg fun r hr => hpositive r (by simp [hr])
    rw [exactTotal_concat] at hle
    rw [abs_of_pos (hpositive row hmem)]
    linarith
  rw [exactTotal_concat] at hweights
  rw [exactMoment_concat] at hscores hconfidences
  -- the terms that are added
  have hself : Near (row.effectiveWeight byConfidence) (row.exactWeight byConfidence)
      (roundoff total) := by
    refine ⟨hrow.weight_finite, ?_⟩
    rw [exactWeight, sub_self, abs_zero]
    apply roundoff_nonneg
  have hscore := weighted_near hrow.weight_finite hrow.score_finite hrow.score_le hweight
  have hconfidence :=
    weighted_near hrow.weight_finite hrow.confidence_finite hrow.confidence_le hweight
  have hadd : sums.add byConfidence row = ⟨sums.weight + row.effectiveWeight byConfidence,
      sums.score + row.effectiveWeight byConfidence * row.score,
      sums.confidence + row.effectiveWeight byConfidence * row.confidence, sums.count + 1⟩ := by
    rw [Sums.add, if_pos ((contributes_iff hrow).2 (hheard row hmem))]
  rw [hadd]
  constructor
  · simp [h.count]
  · rw [exactTotal_concat, List.length_append]
    exact h.weight.add hself hweights htotal hlength
  · rw [exactMoment_concat, List.length_append]
    exact h.score.add hscore hscores htotal hlength
  · rw [exactMoment_concat, List.length_append]
    exact h.confidence.add hconfidence hconfidences htotal hlength

/-- A whole run over rows follows the exact sums of those that are heard. -/
theorem Sums.Follows.foldl {sums : Sums} {total : ℚ} (h : sums.Follows byConfidence total rows)
    (hheard : ∀ r ∈ rows, r.IsHeard byConfidence) (htotal : total ≤ maxTotal)
    (later : List WeightedReading) (hfusible : ∀ r ∈ rows ++ later, r.Fusible byConfidence)
    (hle : exactTotal byConfidence (rows ++ heard byConfidence later) ≤ total)
    (hlength : (rows ++ heard byConfidence later).length ≤ maxTerms) :
    (later.foldl (Sums.add byConfidence) sums).Follows byConfidence total
      (rows ++ heard byConfidence later) := by
  induction later generalizing sums rows with
  | nil => simpa [heard] using h
  | cons row later ih =>
    rw [List.foldl_cons]
    have hrow : row.Fusible byConfidence := hfusible row (by simp)
    by_cases hhears : row.IsHeard byConfidence
    · have hcons : rows ++ heard byConfidence (row :: later) =
          rows ++ [row] ++ heard byConfidence later := by
        simp [heard, hhears]
      have hfusible' : ∀ r ∈ rows ++ [row], r.Fusible byConfidence := by
        intro r hr
        apply hfusible
        simp only [List.mem_append, List.mem_cons, List.not_mem_nil, or_false] at hr ⊢
        tauto
      have hheard' : ∀ r ∈ rows ++ [row], r.IsHeard byConfidence := by
        intro r hr
        rcases List.mem_append.1 hr with hr | hr
        · exact hheard r hr
        · rwa [List.mem_singleton.1 hr]
      have hlater : 0 ≤ exactTotal byConfidence (heard byConfidence later) := by
        apply exactTotal_nonneg
        intro r hr
        obtain ⟨hmem, hhears⟩ := mem_heard.1 hr
        exact hhears.exactWeight_pos (hfusible r (by simp [hmem]))
      rw [hcons] at hle hlength ⊢
      have hstep : exactTotal byConfidence (rows ++ [row]) ≤ total := by
        rw [exactTotal_append] at hle
        linarith
      apply ih
      · apply h.add hfusible' hheard' hstep htotal
        simp only [List.length_append, List.length_singleton] at hlength
        omega
      · exact hheard'
      · simpa using hfusible
      · exact hle
      · exact hlength
    · have hcons : heard byConfidence (row :: later) = heard byConfidence later := by
        simp [heard, hhears]
      have hskip : sums.add byConfidence row = sums := by
        rw [Sums.add, if_neg]
        rwa [contributes_iff hrow]
      rw [hcons] at hle hlength ⊢
      rw [hskip]
      apply ih h hheard _ hle hlength
      intro r hr
      apply hfusible
      simp only [List.mem_append, List.mem_cons] at hr ⊢
      tauto

/-- A finite number between the least and the greatest of the quantities, but for the tolerance. -/
def IsBetween (quantity : WeightedReading → Float) (rows : List WeightedReading) (x : Float) :
    Prop :=
  x.isFinite = true ∧ ∃ low ∈ rows, ∃ high ∈ rows,
    value (quantity low) - tolerance ≤ value x ∧ value x ≤ value (quantity high) + tolerance

instance (quantity : WeightedReading → Float) (rows : List WeightedReading) (x : Float) :
    Decidable (IsBetween quantity rows x) :=
  inferInstanceAs (Decidable (_ ∧ _))

private theorem mean_isBetween {quantity : WeightedReading → Float} {sum weight low high : Float}
    (hne : rows ≠ []) (hpositive : ∀ row ∈ rows, 0 < row.exactWeight byConfidence)
    (hone : ∀ row ∈ rows, |value (quantity row)| ≤ 1)
    (hsum : Tracks sum (exactMoment byConfidence quantity rows) (exactTotal byConfidence rows)
      maxTerms)
    (hweight : Tracks weight (exactTotal byConfidence rows) (exactTotal byConfidence rows) maxTerms)
    (hnormal : minTotal ≤ exactTotal byConfidence rows) (hlow : low.isFinite = true)
    (hhigh : high.isFinite = true) (hge : ∀ row ∈ rows, value low ≤ value (quantity row))
    (hle : ∀ row ∈ rows, value (quantity row) ≤ value high) :
    IsBetween quantity rows (FloatOrder.clamp low high (sum / weight)) := by
  obtain ⟨least, hleast, greatest, hgreatest, hmin, hmax⟩ := mean_between quantity hne hpositive
  obtain ⟨-, hfinite, hnear⟩ :=
    quotient_near hsum hweight (abs_exactMoment_le hpositive hone) hnormal
  have hclamp := (clamp_near hlow hhigh hfinite ((hge least hleast).trans hmin)
    (hmax.trans (hle greatest hgreatest))).trans hnear
  rw [abs_le] at hclamp
  refine ⟨clamp_isFinite hlow hhigh hfinite, least, hleast, greatest, hgreatest, ?_, ?_⟩
  · linarith
  · linarith

/-- The means that running sums over a few rows yield. -/
theorem Sums.Follows.means_isBetween {sums : Sums}
    (h : sums.Follows byConfidence (exactTotal byConfidence rows) rows) (hne : rows ≠ [])
    (hfusible : ∀ row ∈ rows, row.Fusible byConfidence)
    (hheard : ∀ row ∈ rows, row.IsHeard byConfidence) (hlength : rows.length ≤ maxTerms)
    (hlow : minTotal ≤ exactTotal byConfidence rows) :
    0 < value sums.weight ∧
      IsBetween WeightedReading.score rows
        (FloatOrder.clamp (-1.0) 1.0 (sums.score / sums.weight)) ∧
      IsBetween WeightedReading.confidence rows
        (FloatOrder.clamp 0.0 1.0 (sums.confidence / sums.weight)) := by
  have hpositive : ∀ row ∈ rows, 0 < row.exactWeight byConfidence := by
    intro row hrow
    exact (hheard row hrow).exactWeight_pos (hfusible row hrow)
  have hscores : ∀ row ∈ rows, |value row.score| ≤ 1 := fun row hrow => (hfusible row hrow).score_le
  have hconfidences : ∀ row ∈ rows, |value row.confidence| ≤ 1 :=
    fun row hrow => (hfusible row hrow).confidence_le
  have hweight := h.weight.mono hlength
  have hscore := h.score.mono hlength
  refine ⟨?_, ?_, ?_⟩
  · exact (quotient_near hscore hweight (abs_exactMoment_le hpositive hscores) hlow).1
  · apply mean_isBetween hne hpositive hscores hscore hweight hlow isFinite_neg_one isFinite_one
    · intro row hrow
      rw [value_neg_one]
      exact (abs_le.1 (hscores row hrow)).1
    · intro row hrow
      rw [value_one]
      exact (abs_le.1 (hscores row hrow)).2
  · apply mean_isBetween hne hpositive hconfidences (h.confidence.mono hlength) hweight hlow
      isFinite_zero isFinite_one
    · intro row hrow
      rw [value_zero]
      exact (hfusible row hrow).confidence_nonneg
    · intro row hrow
      rw [value_one]
      exact (abs_le.1 (hconfidences row hrow)).2

theorem ofRows_of_unheard (hfusible : ∀ row ∈ rows, row.Fusible byConfidence)
    (hnone : heard byConfidence rows = []) : ofRows byConfidence rows = empty := by
  have hskip : ∀ sums : Sums, rows.foldl (Sums.add byConfidence) sums = sums := by
    rw [heard_eq_nil_iff] at hnone
    induction rows with
    | nil => exact fun _ => rfl
    | cons row rows ih =>
      rw [List.forall_mem_cons] at hfusible hnone
      intro sums
      have hadd : sums.add byConfidence row = sums := by
        rw [Sums.add, if_neg]
        rw [contributes_iff hfusible.1]
        exact hnone.1
      rw [List.foldl_cons, hadd]
      exact ih hfusible.2 hnone.2 sums
  simp [ofRows, hskip]

theorem ofRows_isBetween (hfusible : ∀ row ∈ rows, row.Fusible byConfidence)
    (hlength : rows.length ≤ maxTerms) (hne : heard byConfidence rows ≠ [])
    (hlow : minTotal ≤ exactTotal byConfidence (heard byConfidence rows))
    (hhigh : exactTotal byConfidence (heard byConfidence rows) ≤ maxTotal) :
    (ofRows byConfidence rows).contributing = (heard byConfidence rows).length ∧
      IsBetween WeightedReading.score (heard byConfidence rows) (ofRows byConfidence rows).score ∧
      IsBetween WeightedReading.confidence (heard byConfidence rows)
        (ofRows byConfidence rows).confidence := by
  have hfew : (heard byConfidence rows).length ≤ maxTerms :=
    (List.length_filter_le _ _).trans hlength
  have hstart : Sums.Follows byConfidence (exactTotal byConfidence (heard byConfidence rows))
      ⟨0.0, 0.0, 0.0, 0⟩ [] := follows_start _
  have hfollows := hstart.foldl (by simp) hhigh rows hfusible le_rfl hfew
  rw [List.nil_append] at hfollows
  have hmeans := hfollows.means_isBetween hne (fun row hrow => hfusible row (mem_heard.1 hrow).1)
    (fun row hrow => (mem_heard.1 hrow).2) hfew hlow
  unfold ofRows
  generalize rows.foldl (Sums.add byConfidence) ⟨0.0, 0.0, 0.0, 0⟩ = sums at hfollows hmeans ⊢
  obtain ⟨hpos, hscore, hconfidence⟩ := hmeans
  have hweight : ¬ sums.weight ≤ 0.0 := by
    rwa [le_iff hfollows.weight.finite isFinite_zero, value_zero, not_le]
  have hcount : sums.count ≠ 0 := by
    rw [hfollows.count]
    exact (List.length_pos_iff.2 hne).ne'
  have hmean : (sums.count = 0 || sums.weight ≤ 0.0) = false := by
    simp [hcount, hweight]
  simp only [hmean]
  exact ⟨hfollows.count, hscore, hconfidence⟩

theorem contributes_weight {row : WeightedReading} (h : row.contributes byConfidence = true) :
    (row.effectiveWeight byConfidence).isFinite = true ∧ 0.0 < row.effectiveWeight byConfidence := by
  simp only [contributes, Bool.and_eq_true, Bool.not_eq_true', decide_eq_false_iff_not] at h
  obtain ⟨⟨-, hfinite⟩, hpos⟩ := h
  rw [le_iff hfinite isFinite_zero, not_le, ← lt_iff isFinite_zero hfinite] at hpos
  exact ⟨hfinite, hpos⟩

/-- Sums that count the contributors among some rows. Their weight is positive as soon as there is
one, even if it overflows. -/
structure Sums.Counts (byConfidence : Bool) (sums : Sums) (rows : List WeightedReading) : Prop where
  count : sums.count = rows.countP (contributes byConfidence)
  weight_nonneg : 0.0 ≤ sums.weight
  weight_pos : sums.count ≠ 0 → 0.0 < sums.weight

theorem Sums.Counts.add {sums : Sums} (h : sums.Counts byConfidence rows) (row : WeightedReading) :
    (sums.add byConfidence row).Counts byConfidence (rows ++ [row]) := by
  unfold Sums.add
  split
  · rename_i hcontributes
    obtain ⟨hfinite, hpos⟩ := contributes_weight hcontributes
    have hsum := add_pos h.weight_nonneg hfinite hpos
    refine ⟨?_, float_le_of_lt hsum, fun _ => hsum⟩
    simp [h.count, hcontributes]
  · rename_i hcontributes
    refine ⟨?_, h.weight_nonneg, h.weight_pos⟩
    simp [h.count, hcontributes]

theorem Sums.Counts.foldl {sums : Sums} (h : sums.Counts byConfidence rows)
    (later : List WeightedReading) :
    (later.foldl (Sums.add byConfidence) sums).Counts byConfidence (rows ++ later) := by
  induction later generalizing sums rows with
  | nil => simpa using h
  | cons row later ih =>
    have hrest := ih (h.add row)
    rwa [List.append_assoc] at hrest

/-- A fusion counts all contributors, whatever their weights add up to. -/
theorem ofRows_contributing (byConfidence : Bool) (rows : List WeightedReading) :
    (ofRows byConfidence rows).contributing = rows.countP (contributes byConfidence) := by
  have hstart : Sums.Counts byConfidence ⟨0.0, 0.0, 0.0, 0⟩ [] :=
    ⟨rfl, (le_iff isFinite_zero isFinite_zero).2 le_rfl, fun h => absurd rfl h⟩
  have hcounts := hstart.foldl rows
  rw [List.nil_append] at hcounts
  unfold ofRows
  generalize rows.foldl (Sums.add byConfidence) ⟨0.0, 0.0, 0.0, 0⟩ = sums at hcounts
  by_cases hzero : sums.count = 0
  · have hempty : (sums.count = 0 || sums.weight ≤ 0.0) = true := by simp [hzero]
    simp only [hempty, if_true]
    rw [← hcounts.count, hzero]
    rfl
  · have hpos : ¬sums.weight ≤ 0.0 := fun hle => float_not_lt_of_le hle (hcounts.weight_pos hzero)
    have hmean : (sums.count = 0 || sums.weight ≤ 0.0) = false := by simp [hzero, hpos]
    simp only [hmean]
    exact hcounts.count

end Fused

end SignalDesk
