import SignalDesk.Signal
import SignalDesk.Telemetry
import SignalDesk.Composite.Fusion

/-!
# Composites

A composer passes an instrument through the liquidity gate, reads every enabled signal and fuses the
readings. It keeps no state: the same tape always gives the same composite.
-/

namespace SignalDesk

/-- The fused evaluation of an instrument at the time of its newest record. -/
structure Composite where
  instrument : String
  ts : Timestamp
  score : Float
  confidence : Float
  contributing : Nat
  /-- Whether enough signals contributed to act on. -/
  actionable : Bool
  details : List (SignalKind × Reading)

namespace Composite

def direction (composite : Composite) : Option Side :=
  if 0.0 < composite.score then some .yes
  else if composite.score < 0.0 then some .no
  else none

def detailData (detail : SignalKind × Reading) : Data :=
  .table [("name", .text detail.1.name), ("score", .float detail.2.score),
    ("confidence", .float detail.2.confidence), ("reason", .text detail.2.reason)]

def toMembers (composite : Composite) : List (String × Data) :=
  [("instrument", .text composite.instrument), ("ts", .int composite.ts),
    ("score", .float composite.score), ("confidence", .float composite.confidence),
    ("contributingSignals", .int composite.contributing),
    ("actionable", .bool composite.actionable), ("details", .list (composite.details.map detailData))]

def firedNotices (instrument : String) (detail : SignalKind × Reading) : List Notice :=
  [.count (.signalFired detail.1),
    .logging .debug .composer "Signal fired"
      [("instrument", .text instrument), ("signal", .text detail.1.name),
        ("score", .float detail.2.score), ("confidence", .float detail.2.confidence),
        ("reason", .text detail.2.reason)]]

def notices (composite : Composite) : List Notice :=
  (composite.details.filter fun detail => detail.2.fired).flatMap (firedNotices composite.instrument)
    ++ [.count (.composite composite.actionable)]

end Composite

structure Composer where
  signals : List Signal
  settings : ComposerSettings
  activation : ActivationSettings

namespace Composer

def ofConfig (config : Config) : Composer :=
  ⟨config.signals.enabled, config.composer, config.activation⟩

def activationWindow (composer : Composer) : Except Abort Span :=
  orAbort .spanOutOfRange composer.activation.window?

/-- The longest window that the gate or a signal reads. -/
def lookback (composer : Composer) : Except Abort Span := do
  let lookbacks ← composer.signals.mapM Signal.lookback
  return lookbacks.foldl max (← composer.activationWindow)

/-- Whether the instrument traded enough dollars to be evaluated. -/
def passesActivation (composer : Composer) (tape : Tape) : Except Abort Bool := do
  return composer.activation.dollarVolume ≤ tape.dollarVolume (← composer.activationWindow)

def rows (composer : Composer) (readings : List Reading) : List WeightedReading :=
  composer.signals.zipWith (fun signal reading => ⟨signal.weight, reading.score, reading.confidence⟩)
    readings

def compose (composer : Composer) (instrument : String) (ts : Timestamp) (readings : List Reading) :
    Composite :=
  let fused := Fused.ofRows composer.settings.confidenceWeighting (composer.rows readings)
  { instrument, ts
    score := fused.score
    confidence := fused.confidence
    contributing := fused.contributing
    actionable := composer.settings.minSignals.toNat ≤ fused.contributing
    details := (composer.signals.map Signal.kind).zip readings }

/-- Evaluates a tape; nothing comes of an empty one or of one below the gate. -/
def evaluate (composer : Composer) (tape : Tape) : Except Abort (Option Composite) := do
  match tape.latest with
  | none => return none
  | some ts =>
    if ← composer.passesActivation tape then
      let readings ← composer.signals.mapM fun signal => signal.read tape
      return some (composer.compose tape.instrument ts readings)
    else return none

def notices (instrument : String) : Option Composite → List Notice
  | some composite => composite.notices
  | none => [.logging .trace .composer "Below liquidity gate" [("instrument", .text instrument)]]

end Composer

end SignalDesk
