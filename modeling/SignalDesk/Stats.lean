import SignalDesk.Market.Contracts

/-!
# Statistics

Least squares, concentration and weighted means. The first two are written for any arithmetic, so
the same formulas can be read in floats, as the signals use them, and in exact fractions.
-/

namespace SignalDesk

/-- The arithmetic in which a statistic is computed. -/
class Quantity (α : Type) extends Add α, Sub α, Mul α, Div α where
  ofNat : Nat → α
  emptySum : α
  isZero : α → Bool

instance : Quantity Float where
  ofNat := Float.ofNat
  emptySum := -0.0
  isZero x := x == 0.0

namespace Stats

/-- The line `intercept + slope * x` with its coefficient of determination. -/
structure LinearFit (α : Type) where
  slope : α
  intercept : α
  rSquared : α
  deriving DecidableEq

variable {α : Type} [Quantity α]

def sum (terms : List α) : α := terms.foldl (· + ·) Quantity.emptySum

/-- The sum of products of deviations, started from zero. -/
def deviationSum (points : List (α × α)) (meanX meanY : α) : α :=
  points.foldl (fun total point => total + (point.1 - meanX) * (point.2 - meanY)) (Quantity.ofNat 0)

/-- The least-squares line through some points, unless they are fewer than two or share one `x`. -/
def linearFit (points : List (α × α)) : Option (LinearFit α) :=
  if points.length < 2 then none
  else
    let n : α := Quantity.ofNat points.length
    let meanX := sum (points.map Prod.fst) / n
    let meanY := sum (points.map Prod.snd) / n
    let sxx := deviationSum (points.map fun p => (p.1, p.1)) meanX meanX
    let sxy := deviationSum points meanX meanY
    let syy := deviationSum (points.map fun p => (p.2, p.2)) meanY meanY
    if Quantity.isZero sxx then none
    else
      let slope := sxy / sxx
      let intercept := meanY - slope * meanX
      let residual (p : α × α) := p.2 - (intercept + slope * p.1)
      let rSquared :=
        if Quantity.isZero syy then Quantity.ofNat 0
        else Quantity.ofNat 1 - sum (points.map fun p => residual p * residual p) / syy
      some ⟨slope, intercept, rSquared⟩

/-- The Herfindahl index: the sum of squared shares, zero if there is nothing to share. -/
def herfindahl (counts : List Contracts) : α :=
  let total := Contracts.sum counts
  if total = 0 then Quantity.ofNat 0
  else
    let share (count : Contracts) : α := Quantity.ofNat count.toNat / Quantity.ofNat total.toNat
    sum (counts.map fun count => share count * share count)

/-- The mean price of `(price, count)` samples weighted by count. -/
def weightedMean (samples : List (Int64 × Contracts)) : Option Float :=
  let weight := Contracts.sum (samples.map Prod.snd)
  let sum := samples.foldl
    (fun total sample => total + Float.ofInt sample.1.toInt * sample.2.toFloat) 0.0
  if weight = 0 then none else some (sum / weight.toFloat)

end Stats

end SignalDesk
