import SignalDesk.Proofs.Signal.Mirror
import SignalDesk.Proofs.Stats.LeastSquares

/-!
# The velocity of a spread

What spread velocity says is decided by the slope of a line and by how well the line fits, and not by
where the line starts. The same opinion can be formed in floats, as the signal does, and in fractions,
where it is the same for every origin of time.
-/

namespace SignalDesk

/-- The arithmetic in which a signal forms an opinion on what it has measured. -/
class OrderedQuantity (α : Type) extends Quantity α, OfScientific α where
  ofInt : Int → α
  abs : α → α
  smaller : α → α → α
  larger : α → α → α
  /-- One with the sign of a number. -/
  signum : α → α

instance : OrderedQuantity Float where
  ofInt := Float.ofInt
  abs := Float.abs
  smaller := FloatOrder.min
  larger := FloatOrder.max
  signum := FloatOrder.signum

instance : OrderedQuantity ℚ where
  ofInt n := n
  abs x := |x|
  smaller := min
  larger := max
  signum x := if x < 0 then -1 else 1

namespace SpreadVelocity

open Stats OrderedQuantity

section

variable {α : Type} [OrderedQuantity α] [LT α] [DecidableLT α]

/-- Spreads in cents over the seconds since an origin. -/
def spreads (origin : Timestamp) (quotes : List Quote) : List (α × α) :=
  quotes.map fun quote =>
    (ofInt (quote.ts - origin) / Quantity.ofNat 1000, ofInt quote.spread.toInt)

def drift (first last : Quote) : α :=
  ofInt (last.yesBid + last.yesAsk).toInt / 2.0 - ofInt (first.yesBid + first.yesAsk).toInt / 2.0

/-- The score and the confidence for a slope and its fit, unless the spread or the midpoint rests. -/
def opinionOf (threshold slope rSquared drift : α) : Option (α × α) :=
  if abs slope < threshold then none
  else if Quantity.isZero drift then none
  else some (signum drift * smaller (abs slope / 0.5) 1.0, larger rSquared 0.0)

/-- The opinion on a window of quotes, with time counted from an origin that may depend on the first. -/
def opinion (origin : Quote → Timestamp) (minSnapshots : ℕ) (threshold : α) (quotes : List Quote) :
    Option (α × α) :=
  if quotes.length < minSnapshots then none
  else do
    let first ← quotes.head?
    let last ← quotes.getLast?
    let fit ← linearFit (spreads (origin first) quotes)
    opinionOf threshold fit.slope fit.rSquared (drift first last)

end

private theorem points_eq_spreads (first : Quote) (quotes : List Quote) :
    points (pointOf first) (quotes.map pointOf) = spreads first.ts quotes := by
  simp only [points, spreads, List.map_map]
  rfl

private theorem readFit_tells (settings : SpreadVelocitySettings) (first last : Quote)
    (fit : LinearFit Float) : (readFit settings (pointOf first) (pointOf last) fit).Tells
      (opinionOf settings.velocityThreshold fit.slope fit.rSquared (drift first last)) := by
  apply Reading.Tells.ite (Reading.Tells.silent _)
  apply Reading.Tells.ite (Reading.Tells.silent _)
  apply Reading.Tells.bounded

/-- The signal counts time from the first quote of its window. -/
theorem read_tells (settings : SpreadVelocitySettings) (window : Span) (tape : Tape) :
    (read settings window tape).Tells
      (opinion Quote.ts settings.minSnapshots.toNat settings.velocityThreshold
        (tape.quotesWithin window)) := by
  have hhistory : tape.spreadHistory window = (tape.quotesWithin window).map pointOf := rfl
  unfold read opinion
  simp only [hhistory, List.length_map, List.head?_map, List.getLast?_map]
  apply Reading.Tells.ite (Reading.Tells.silent _)
  cases (tape.quotesWithin window).head? with
  | none => exact Reading.Tells.silent _
  | some first =>
    cases (tape.quotesWithin window).getLast? with
    | none => exact Reading.Tells.silent _
    | some last =>
      simp only [Option.map_some, points_eq_spreads, Option.bind_eq_bind, Option.bind_some]
      cases linearFit (spreads (α := Float) first.ts (tape.quotesWithin window)) with
      | none => exact Reading.Tells.silent _
      | some fit => exact readFit_tells settings first last fit

private theorem spreads_shift (origin origin' : Timestamp) (quotes : List Quote) :
    (spreads origin quotes : List (ℚ × ℚ)) =
      shift ((origin' - origin : ℤ) / 1000) (spreads origin' quotes) := by
  simp only [spreads, shift, List.map_map]
  refine List.map_congr_left fun quote _ => ?_
  have hseconds : ((quote.ts - origin : ℤ) : ℚ) / 1000 =
      ((quote.ts - origin' : ℤ) : ℚ) / 1000 + ((origin' - origin : ℤ) : ℚ) / 1000 := by
    push_cast
    ring
  exact Prod.ext hseconds rfl

/-- Another origin moves the line and keeps its slope and its determination. -/
theorem opinion_origin (origin origin' : Quote → Timestamp) (minSnapshots : ℕ) (threshold : ℚ)
    (quotes : List Quote) :
    opinion origin minSnapshots threshold quotes = opinion origin' minSnapshots threshold quotes := by
  have hfit (first : Quote) := linearFit_shift ((origin' first - origin first : ℤ) / 1000)
    (spreads (origin' first) quotes)
  simp only [← spreads_shift] at hfit
  simp only [opinion, hfit]
  cases quotes.head? with
  | none => rfl
  | some first =>
    simp only [Option.bind_eq_bind, Option.bind_some, Option.bind_map, Function.comp_def,
      LinearFit.shift]

/--
In fractions there is a line through points unless they are fewer than two or share one `x`, and it is
the best one. Measured from another origin it is the same line. The signal says what the line through
the spreads of its window says, with time counted from the first quote; in fractions any other origin
gives the same opinion.
-/
theorem best_line_from_any_origin :
    (∀ points : List (ℚ × ℚ),
      (linearFit points = none ↔ points.length < 2 ∨ ∀ p ∈ points, ∀ q ∈ points, p.1 = q.1) ∧
      (∀ fit, linearFit points = some fit → IsBestFit points fit) ∧
      ∀ c, linearFit (points.map fun p => (p.1 + c, p.2)) =
        (linearFit points).map fun fit => { fit with intercept := fit.intercept - fit.slope * c }) ∧
    (∀ settings window tape, (read settings window tape).Tells
      (opinion Quote.ts settings.minSnapshots.toNat settings.velocityThreshold
        (tape.quotesWithin window))) ∧
    ∀ (origin origin' : Quote → Timestamp) (minSnapshots : ℕ) (threshold : ℚ) (quotes : List Quote),
      opinion origin minSnapshots threshold quotes = opinion origin' minSnapshots threshold quotes :=
  ⟨fun points => ⟨linearFit_eq_none_iff, fun _ => isBestFit_of_linearFit,
    fun c => linearFit_shift c points⟩, read_tells, opinion_origin⟩

/-- Points off their line, and a spread that narrows steadily while the midpoint rises, both measured
from other origins. -/
theorem best_line_from_any_origin_of_noise :
    let points : List (ℚ × ℚ) := [(0, 1), (1, 3), (2, 2), (3, 5)]
    let fit : LinearFit ℚ := ⟨11 / 10, 11 / 10, 121 / 175⟩
    let quotes : List Quote := [⟨"RAIN", 60000, 50, 45, 55, 0, 0⟩, ⟨"RAIN", 70000, 51, 47, 55, 0, 0⟩,
      ⟨"RAIN", 80000, 52, 49, 55, 0, 0⟩, ⟨"RAIN", 90000, 53, 51, 55, 0, 0⟩]
    linearFit points = some fit ∧ IsBestFit points fit ∧
      linearFit [(60, 1), (61, 3), (62, 2), (63, 5)] = some { fit with intercept := -649 / 10 } ∧
      opinion (fun _ => 0) 4 (1 / 10 : ℚ) quotes = some (2 / 5, 1) := by
  intro points fit quotes
  have hfit : linearFit points = some fit := by decide +kernel
  have hopinion : opinion Quote.ts 4 (1 / 10 : ℚ) quotes = some (2 / 5, 1) := by decide +kernel
  have hmoved : points.map (fun p => (p.1 + 60, p.2)) = [(60, 1), (61, 3), (62, 2), (63, 5)] := by
    norm_num [points]
  obtain ⟨hline, -, horigin⟩ := best_line_from_any_origin
  obtain ⟨-, hbest, hshift⟩ := hline points
  refine ⟨hfit, hbest fit hfit, ?_, (horigin _ Quote.ts _ _ _).trans hopinion⟩
  rw [← hmoved, hshift, hfit]
  norm_num [fit]

end SpreadVelocity

end SignalDesk
