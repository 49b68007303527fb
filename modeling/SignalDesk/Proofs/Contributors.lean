import SignalDesk.Proofs.Composite

/-!
# Signals that are not heard

A fusion is one of its contributors. Enabling more signals does not change a composite as long as none
of them has a weight and an opinion: the enabled signals come in a fixed order, and each reading is
weighed with the weight of its own signal.
-/

namespace SignalDesk

open FloatValue

namespace WeightedReading

variable {byConfidence : Bool} {row : WeightedReading}

/-- A reading with an opinion, perhaps an undefined one, and a finite positive weight. -/
def IsContributor (byConfidence : Bool) (row : WeightedReading) : Prop :=
  row.IsHeard byConfidence ∧ (row.effectiveWeight byConfidence).isFinite = true

instance (byConfidence : Bool) (row : WeightedReading) : Decidable (row.IsContributor byConfidence) :=
  inferInstanceAs (Decidable (_ ∧ _))

private theorem contributes_eq (byConfidence : Bool) (row : WeightedReading) :
    row.contributes byConfidence = decide (row.IsContributor byConfidence) := by
  rw [Bool.eq_iff_iff, decide_eq_true_iff]
  constructor
  · intro h
    obtain ⟨hfinite, hpos⟩ := Fused.contributes_weight h
    simp only [contributes, Bool.and_eq_true] at h
    exact ⟨⟨by simpa [bne] using h.1.1, hpos⟩, hfinite⟩
  · rintro ⟨⟨hscore, hpos⟩, hfinite⟩
    have hnot : ¬ row.effectiveWeight byConfidence ≤ 0.0 := fun hle => float_not_lt_of_le hle hpos
    simp [contributes, bne, hscore, hfinite, hnot]

end WeightedReading

namespace Fused

open WeightedReading

def contributors (byConfidence : Bool) (rows : List WeightedReading) : List WeightedReading :=
  rows.filter fun row => row.IsContributor byConfidence

private theorem foldl_contributors (byConfidence : Bool) (rows : List WeightedReading) (sums : Sums) :
    (contributors byConfidence rows).foldl (Sums.add byConfidence) sums =
      rows.foldl (Sums.add byConfidence) sums := by
  have hskip (sums : Sums) (row : WeightedReading) :
      (if row.IsContributor byConfidence then sums.add byConfidence row else sums) =
        sums.add byConfidence row := by
    unfold Sums.add
    simp only [contributes_eq, decide_eq_true_iff]
    split <;> rfl
  unfold contributors
  rw [List.foldl_filter]
  simp only [decide_eq_true_iff, hskip]

private theorem ofRows_contributors (byConfidence : Bool) (rows : List WeightedReading) :
    ofRows byConfidence rows = ofRows byConfidence (contributors byConfidence rows) := by
  unfold ofRows
  rw [foldl_contributors]

private theorem contributing_eq_length (byConfidence : Bool) (rows : List WeightedReading) :
    (ofRows byConfidence rows).contributing = (contributors byConfidence rows).length := by
  have hcontributes : contributes byConfidence = fun row => decide (row.IsContributor byConfidence) :=
    funext (contributes_eq byConfidence)
  rw [ofRows_contributing, List.countP_eq_length_filter, hcontributes]
  rfl

end Fused

namespace SignalSettings

def order : List SignalKind :=
  [.tradeConcentration, .flowAsymmetry, .spreadVelocity, .volumeDivergence, .tradeClustering,
    .tradeImbalance]

/-- The signal of a kind, and whether it is enabled. -/
def entry (settings : SignalSettings) : SignalKind → Bool × Signal
  | .tradeConcentration =>
    (settings.tradeConcentration.enabled, .tradeConcentration settings.tradeConcentration)
  | .flowAsymmetry => (settings.flowAsymmetry.enabled, .flowAsymmetry settings.flowAsymmetry)
  | .spreadVelocity => (settings.spreadVelocity.enabled, .spreadVelocity settings.spreadVelocity)
  | .volumeDivergence =>
    (settings.volumeDivergence.enabled, .volumeDivergence settings.volumeDivergence)
  | .tradeClustering => (settings.tradeClustering.enabled, .tradeClustering settings.tradeClustering)
  | .tradeImbalance => (settings.tradeImbalance.enabled, .tradeImbalance settings.tradeImbalance)

def enabled? (settings : SignalSettings) (kind : SignalKind) : Option Signal :=
  if (settings.entry kind).1 then some (settings.entry kind).2 else none

variable {settings other : SignalSettings} {kind : SignalKind} {signal : Signal}

private theorem enabled_eq_filterMap (settings : SignalSettings) :
    settings.enabled = order.filterMap settings.enabled? := by
  have hall : settings.all = order.map settings.entry := rfl
  rw [enabled, hall]
  generalize order = kinds
  induction kinds with
  | nil => rfl
  | cons kind kinds ih =>
    rw [List.map_cons, List.filter_cons, List.filterMap_cons, enabled?]
    split <;> simp [ih]

private theorem kind_of_enabled? (h : settings.enabled? kind = some signal) : signal.kind = kind := by
  unfold enabled? at h
  split at h
  · cases h
    cases kind <;> rfl
  · cases h

private theorem mem_enabled_iff :
    signal ∈ settings.enabled ↔ settings.enabled? signal.kind = some signal := by
  have hcomplete (kind : SignalKind) : kind ∈ order := by cases kind <;> decide
  rw [enabled_eq_filterMap, List.mem_filterMap]
  constructor
  · rintro ⟨kind, -, h⟩
    rwa [kind_of_enabled? h]
  · intro h
    exact ⟨signal.kind, hcomplete _, h⟩

/-- Settings that enable what the others enable, and perhaps more. -/
def Extends (settings other : SignalSettings) : Prop :=
  ∀ signal ∈ other.enabled, signal ∈ settings.enabled

private theorem Extends.enabled?_eq (h : settings.Extends other)
    (hsome : other.enabled? kind = some signal) : settings.enabled? kind = some signal := by
  have hkind := kind_of_enabled? hsome
  subst hkind
  exact mem_enabled_iff.1 (h signal (mem_enabled_iff.2 hsome))

end SignalSettings

/-- A signal that a mean does not hear: it has no weight or no opinion, or no confidence where weights
are scaled by it. -/
def Signal.IsSilent (byConfidence : Bool) (tape : Tape) (signal : Signal) : Prop :=
  ∀ reading, signal.read tape = .ok reading →
    (signal.weight == 0.0) = true ∨ (reading.score == 0.0) = true ∨
      byConfidence = true ∧ (reading.confidence == 0.0) = true

def Signal.weigh (answer : Signal × Reading) : WeightedReading :=
  ⟨answer.1.weight, answer.2.score, answer.2.confidence⟩

def Signal.answer? (tape : Tape) (signal : Signal) : Option (Signal × Reading) :=
  (signal.read tape).toOption.map fun reading => (signal, reading)

private theorem Signal.map_weigh_zip (signals : List Signal) (readings : List Reading) :
    (signals.zip readings).map Signal.weigh = signals.zipWith
      (fun signal reading => ⟨signal.weight, reading.score, reading.confidence⟩) readings := by
  rw [← List.map_uncurry_zip_eq_zipWith]
  rfl

private theorem filterMap_sublist {α β : Type} {f g : α → Option β} {items : List α}
    (h : ∀ a b, f a = some b → g a = some b) : (items.filterMap f).Sublist (items.filterMap g) := by
  induction items with
  | nil => exact .slnil
  | cons a items ih =>
    rw [List.filterMap_cons, List.filterMap_cons]
    cases hf : f a with
    | some b =>
      rw [h a b hf]
      exact ih.cons_cons b
    | none =>
      cases g a with
      | some b => exact ih.cons b
      | none => exact ih

private theorem not_pos_of_value {x : Float} {v : ℚ} (hplaces : Places x v) (hv : v = 0) :
    ¬ 0.0 < x := by
  refine float_not_lt_of_le (hplaces.le 0.0 isFinite_zero ?_)
  rw [hv, value_zero]

private theorem Signal.IsSilent.not_isContributor {byConfidence : Bool} {tape : Tape}
    {signal : Signal} {reading : Reading} (h : signal.IsSilent byConfidence tape)
    (hread : signal.read tape = .ok reading) (hweight : signal.weight.isFinite = true) :
    ¬ (Signal.weigh (signal, reading)).IsContributor byConfidence := by
  rintro ⟨⟨hscore, hpos⟩, -⟩
  have hconfidence := (Signal.inBounds_of_read hread).confidence_finite
  have hproduct := places_mul hweight hconfidence
  have hzero {x : Float} (hx : x.isFinite = true) (hbeq : (x == 0.0) = true) : value x = 0 := by
    rw [value_eq_of_beq hx isFinite_zero hbeq, value_zero]
  rcases h reading hread with hnone | hnone | ⟨rfl, hnone⟩
  · cases byConfidence with
    | false => exact not_pos_of_value (.of_eq hweight rfl) (hzero hweight hnone) hpos
    | true => exact not_pos_of_value hproduct (by rw [hzero hweight hnone, zero_mul]) hpos
  · exact absurd (hscore.symm.trans hnone) (by decide)
  · exact not_pos_of_value hproduct (by rw [hzero hconfidence hnone, mul_zero]) hpos

namespace Composer

variable {config larger : Config} {tape : Tape}

def answers (config : Config) (tape : Tape) : List (Signal × Reading) :=
  config.signals.enabled.filterMap (Signal.answer? tape)

private theorem zip_eq_filterMap {signals : List Signal} {readings : List Reading}
    (h : List.Forall₂ (fun signal reading => signal.read tape = .ok reading) signals readings) :
    signals.zip readings = signals.filterMap (Signal.answer? tape) := by
  induction h with
  | nil => rfl
  | cons hread hrest ih =>
    rw [List.filterMap_cons, List.zip_cons_cons, ih, Signal.answer?, hread]
    rfl

/-- The composite that a configuration gives: all signals have a reading, and the readings are fused,
each with the weight of its own signal. -/
structure IsComposite (config : Config) (tape : Tape) (composite : Composite) : Prop where
  instrument : composite.instrument = tape.instrument
  ts : tape.latest = some composite.ts
  signals : (answers config tape).map Prod.fst = config.signals.enabled
  details : composite.details = (answers config tape).map fun answer => (answer.1.kind, answer.2)
  fused : ⟨composite.score, composite.confidence, composite.contributing⟩ =
    Fused.ofRows config.composer.confidenceWeighting ((answers config tape).map Signal.weigh)
  actionable : composite.actionable =
    decide (config.composer.minSignals.toNat ≤ composite.contributing)

private theorem isComposite_of_evaluate {composite : Composite}
    (h : (ofConfig config).evaluate tape = .ok (some composite)) : IsComposite config tape composite := by
  obtain ⟨ts, readings, hts, hreadings, rfl⟩ := evaluate_some h
  have hanswers : answers config tape = config.signals.enabled.zip readings :=
    (zip_eq_filterMap hreadings).symm
  have hlength : config.signals.enabled.length = readings.length := hreadings.length_eq
  refine ⟨rfl, hts, ?_, ?_, ?_, rfl⟩
  · rw [hanswers, List.map_fst_zip hlength.le]
  · rw [hanswers, compose, List.zip_map_left]
    rfl
  · rw [hanswers, Signal.map_weigh_zip]
    rfl

private theorem answers_eq_filterMap (config : Config) (tape : Tape) :
    answers config tape = SignalSettings.order.filterMap fun kind =>
      (config.signals.enabled? kind).bind (Signal.answer? tape) := by
  rw [answers, SignalSettings.enabled_eq_filterMap, List.filterMap_filterMap]

private theorem answers_sublist (h : larger.signals.Extends config.signals) :
    (answers config tape).Sublist (answers larger tape) := by
  rw [answers_eq_filterMap, answers_eq_filterMap]
  refine filterMap_sublist fun kind answer hanswer => ?_
  obtain ⟨signal, hsignal, hread⟩ := Option.bind_eq_some_iff.1 hanswer
  rw [h.enabled?_eq hsignal]
  exact hread

private theorem contributors_answers (hvalid : larger.fault? = none) {byConfidence : Bool}
    (h : larger.signals.Extends config.signals)
    (hsilent : ∀ signal ∈ larger.signals.enabled, signal ∉ config.signals.enabled →
      signal.IsSilent byConfidence tape) :
    Fused.contributors byConfidence ((answers larger tape).map Signal.weigh) =
      Fused.contributors byConfidence ((answers config tape).map Signal.weigh) := by
  unfold Fused.contributors
  rw [List.filter_map, List.filter_map, answers_eq_filterMap, answers_eq_filterMap,
    List.filter_filterMap, List.filter_filterMap]
  congr 1
  refine List.filterMap_congr fun kind _ => ?_
  cases hsmall : config.signals.enabled? kind with
  | some signal => rw [h.enabled?_eq hsmall]
  | none =>
    cases hlarge : larger.signals.enabled? kind with
    | none => rfl
    | some signal =>
      have hkind := SignalSettings.kind_of_enabled? hlarge
      subst hkind
      have hmem := SignalSettings.mem_enabled_iff.2 hlarge
      have hnot : signal ∉ config.signals.enabled := by
        rw [SignalSettings.mem_enabled_iff, hsmall]
        exact Option.some_ne_none signal ∘ Eq.symm
      cases hread : signal.read tape with
      | error abort => simp [Signal.answer?, hread, Except.toOption]
      | ok reading =>
        have hunheard := (hsilent signal hmem hnot).not_isContributor hread
          (Config.weight_isFinite_of_enabled hvalid hmem)
        simp [Signal.answer?, hread, Except.toOption, hunheard]

private theorem passesActivation_eq (hactivation : larger.activation = config.activation)
    (tape : Tape) :
    (ofConfig larger).passesActivation tape = (ofConfig config).passesActivation tape := by
  have hsettings : (ofConfig larger).activation = (ofConfig config).activation := hactivation
  unfold passesActivation activationWindow
  rw [hsettings]

private theorem evaluate_alike (hvalid : config.fault? = none) (hvalid' : larger.fault? = none)
    (hactivation : larger.activation = config.activation) (tape : Tape) :
    ((ofConfig config).evaluate tape = .ok none ∧ (ofConfig larger).evaluate tape = .ok none) ∨
      ∃ composite composite', (ofConfig config).evaluate tape = .ok (some composite) ∧
        (ofConfig larger).evaluate tape = .ok (some composite') := by
  obtain ⟨answer, hanswer⟩ := evaluate_of_valid hvalid tape
  obtain ⟨answer', hanswer'⟩ := evaluate_of_valid hvalid' tape
  have hsame : answer.isSome ↔ answer'.isSome := by
    cases hlatest : tape.latest with
    | none =>
      simp only [evaluate, hlatest, pure_ok_iff] at hanswer hanswer'
      rw [← hanswer, ← hanswer']
    | some ts =>
      rw [evaluate_isSome_iff hanswer hlatest, evaluate_isSome_iff hanswer' hlatest,
        passesActivation_eq hactivation]
  cases answer with
  | none =>
    cases answer' with
    | none => exact .inl ⟨hanswer, hanswer'⟩
    | some composite' => cases hsame.2 rfl
  | some composite =>
    cases answer' with
    | none => cases hsame.1 rfl
    | some composite' => exact .inr ⟨composite, composite', hanswer, hanswer'⟩

/--
A fusion is that of its contributors, and counts them. If a valid configuration enables what another
one does and otherwise only signals that are not heard in a tape, both give no composite of it or both
give one, with the same score, confidence, number of contributors and verdict. The details of the
smaller one are among those of the larger one, in order.
-/
theorem unheard_signals_change_nothing :
    (∀ byConfidence rows,
      Fused.ofRows byConfidence rows =
        Fused.ofRows byConfidence (Fused.contributors byConfidence rows) ∧
      (Fused.ofRows byConfidence rows).contributing =
        (Fused.contributors byConfidence rows).length) ∧
    ∀ (config larger : Config) (tape : Tape), config.fault? = none → larger.fault? = none →
      larger.composer = config.composer → larger.activation = config.activation →
      larger.signals.Extends config.signals →
      (∀ signal ∈ larger.signals.enabled, signal ∉ config.signals.enabled →
        signal.IsSilent config.composer.confidenceWeighting tape) →
      ((ofConfig config).evaluate tape = .ok none ∧ (ofConfig larger).evaluate tape = .ok none) ∨
      ∃ composite composite', (ofConfig config).evaluate tape = .ok (some composite) ∧
        (ofConfig larger).evaluate tape = .ok (some composite') ∧
        IsComposite config tape composite ∧ IsComposite larger tape composite' ∧
        composite'.score = composite.score ∧ composite'.confidence = composite.confidence ∧
        composite'.contributing = composite.contributing ∧
        composite'.actionable = composite.actionable ∧
        composite.details.Sublist composite'.details := by
  refine ⟨fun byConfidence rows => ⟨Fused.ofRows_contributors byConfidence rows,
    Fused.contributing_eq_length byConfidence rows⟩, ?_⟩
  intro config larger tape hvalid hvalid' hcomposer hactivation hextends hsilent
  refine (evaluate_alike hvalid hvalid' hactivation tape).imp id ?_
  rintro ⟨composite, composite', hsome, hsome'⟩
  have h := isComposite_of_evaluate hsome
  have h' := isComposite_of_evaluate hsome'
  have hfused : (⟨composite'.score, composite'.confidence, composite'.contributing⟩ : Fused) =
      ⟨composite.score, composite.confidence, composite.contributing⟩ := by
    rw [h.fused, h'.fused, hcomposer, Fused.ofRows_contributors, contributors_answers hvalid' hextends
      hsilent, ← Fused.ofRows_contributors]
  obtain ⟨hscore, hconfidence, hcontributing⟩ := Fused.mk.inj hfused
  refine ⟨composite, composite', hsome, hsome', h, h', hscore, hconfidence, hcontributing, ?_, ?_⟩
  · rw [h.actionable, h'.actionable, hcomposer, hcontributing]
  · rw [h.details, h'.details]
    exact (answers_sublist hextends).map _

/-- One signal more without a weight, and one without an opinion. -/
theorem unheard_signals_change_nothing_of_two :
    let config : Config := {
      activation := { dollarVolume := 0.0 }
      composer := { minSignals := 1, confidenceWeighting := true }
      signals := { tradeImbalance := { minTrades := 1 } } }
    let larger : Config := { config with
      signals := { config.signals with
        tradeConcentration := { enabled := true, weight := 0.0, minTrades := 1 }
        volumeDivergence := { enabled := true } } }
    let tape := (Tape.empty "RAIN" 360000).update (.trade ⟨"RAIN", 0, .yes, 30, 40⟩)
    ∃ composite composite', (ofConfig config).evaluate tape = .ok (some composite) ∧
      (ofConfig larger).evaluate tape = .ok (some composite') ∧
      composite.details.length = 1 ∧ composite'.details.length = 3 ∧
      composite'.score = composite.score ∧ composite'.confidence = composite.confidence ∧
      composite'.contributing = 1 := by
  intro config larger tape
  have hvalid : config.fault? = none := by decide +kernel
  have hvalid' : larger.fault? = none := by decide +kernel
  have hconfig : config.signals.enabled = [.tradeImbalance config.signals.tradeImbalance] := rfl
  have hlarger : larger.signals.enabled = [.tradeConcentration larger.signals.tradeConcentration,
      .volumeDivergence larger.signals.volumeDivergence,
      .tradeImbalance config.signals.tradeImbalance] := rfl
  have hextends : larger.signals.Extends config.signals := by
    intro signal hsignal
    rw [hconfig, List.mem_singleton] at hsignal
    rw [hlarger, hsignal]
    simp
  have hnone : ∃ reading, (Signal.volumeDivergence larger.signals.volumeDivergence).read tape =
      .ok reading ∧ (reading.score == 0.0) = true := exists_ok_of_any (by decide +kernel)
  have hsilent : ∀ signal ∈ larger.signals.enabled, signal ∉ config.signals.enabled →
      signal.IsSilent config.composer.confidenceWeighting tape := by
    intro signal hsignal hnew reading hread
    simp only [hlarger, List.mem_cons, List.not_mem_nil, or_false] at hsignal
    rcases hsignal with rfl | rfl | rfl
    · exact .inl (by decide)
    · obtain ⟨silent, hsilent, hscore⟩ := hnone
      rw [Except.ok.inj (hread.symm.trans hsilent)]
      exact .inr (.inl hscore)
    · exact absurd (hconfig ▸ List.mem_singleton_self _) hnew
  have hrun : ∃ composite, (ofConfig config).evaluate tape = .ok (some composite) ∧
      composite.details.length = 1 ∧ composite.contributing = 1 := exists_some_of_any (by decide +kernel)
  have hrun' : ∃ composite, (ofConfig larger).evaluate tape = .ok (some composite) ∧
      composite.details.length = 3 := exists_some_of_any (by decide +kernel)
  obtain ⟨only, honly, hone, hcount⟩ := hrun
  obtain ⟨all, hall, hthree⟩ := hrun'
  rcases unheard_signals_change_nothing.2 config larger tape hvalid hvalid' rfl rfl hextends hsilent with
    ⟨hnothing, -⟩ | ⟨composite, composite', hsome, hsome', -, -, hscore, hconfidence, hsame, -⟩
  · rw [honly] at hnothing
    cases hnothing
  · obtain rfl := Option.some.inj (Except.ok.inj (honly.symm.trans hsome))
    obtain rfl := Option.some.inj (Except.ok.inj (hall.symm.trans hsome'))
    exact ⟨only, all, honly, hall, hone, hthree, hscore, hconfidence, hsame.trans hcount⟩

end Composer

end SignalDesk
