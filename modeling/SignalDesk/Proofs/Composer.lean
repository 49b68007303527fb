import SignalDesk.Engine.Desk
import SignalDesk.Proofs.Config
import SignalDesk.Proofs.Tape.Horizon

/-!
# What a composer looks at

A signal sees no more of a tape than its windows, except for clustering, which also looks for the last
trade before its window. The lookback of a composer covers the windows of all its signals and of the
liquidity gate, so tapes that agree on every window up to the lookback have the same composite.
-/

namespace SignalDesk

section lists

variable {α β : Type}

private theorem mapM_ok_of_forall {f : α → Except Abort β} {items : List α}
    (h : ∀ a ∈ items, ∃ b, f a = .ok b) : ∃ results, items.mapM f = .ok results := by
  induction items with
  | nil => exact ⟨[], rfl⟩
  | cons a items ih =>
    obtain ⟨b, hb⟩ := h a List.mem_cons_self
    obtain ⟨results, hresults⟩ := ih fun c hc => h c (List.mem_cons_of_mem a hc)
    rw [List.mapM_cons, hb, hresults]
    exact ⟨b :: results, rfl⟩

theorem mapM_ok_map {f : α → Except Abort β} {g : α → β} {items : List α}
    (h : ∀ a ∈ items, f a = .ok (g a)) : items.mapM f = .ok (items.map g) := by
  induction items with
  | nil => rfl
  | cons a items ih =>
    rw [List.mapM_cons, h a List.mem_cons_self, ih fun b hb => h b (List.mem_cons_of_mem a hb)]
    rfl

private theorem forall₂_of_mapM_ok {f : α → Except Abort β} {items : List α} {results : List β}
    (h : items.mapM f = .ok results) : List.Forall₂ (fun a b => f a = .ok b) items results := by
  induction items generalizing results with
  | nil =>
    rw [List.mapM_nil, pure_ok_iff] at h
    rw [← h]
    exact .nil
  | cons a items ih =>
    simp only [List.mapM_cons, bind_ok_iff, pure_ok_iff] at h
    obtain ⟨b, hb, rest, hrest, rfl⟩ := h
    exact .cons hb (ih hrest)

private theorem mapM_ok_mem {f : α → Except Abort β} {items : List α} {results : List β}
    (h : items.mapM f = .ok results) :
    (∀ a ∈ items, ∃ b ∈ results, f a = .ok b) ∧ ∀ b ∈ results, ∃ a ∈ items, f a = .ok b := by
  have hall := forall₂_of_mapM_ok h
  clear h
  induction hall with
  | nil => simp
  | cons hb hrest ih => grind

theorem mapM_congr {f g : α → Except Abort β} {items : List α} (h : ∀ a ∈ items, f a = g a) :
    items.mapM f = items.mapM g := by
  induction items with
  | nil => rfl
  | cons a items ih =>
    rw [List.mapM_cons, List.mapM_cons, h a List.mem_cons_self,
      ih fun b hb => h b (List.mem_cons_of_mem a hb)]

private theorem foldl_max_le_iff {spans : List Span} {first bound : Span} :
    spans.foldl max first ≤ bound ↔ first ≤ bound ∧ ∀ span ∈ spans, span ≤ bound := by
  induction spans generalizing first with
  | nil => simp
  | cons span spans ih => simp [ih, and_assoc]

end lists

namespace Signal

variable {signal : Signal} {tape other : Tape}

/-- The one look behind a window: clustering asks for the last trade before it, which `history` has
not lost yet. -/
def Recalls (signal : Signal) (history : Tape) : Prop :=
  match signal with
  | tradeClustering s => ∀ window ∈ Span.ofSeconds? s.windowSecs, history.Remembers window
  | _ => True

instance (signal : Signal) (history : Tape) : Decidable (signal.Recalls history) :=
  match signal with
  | tradeClustering s =>
    inferInstanceAs (Decidable (∀ window ∈ Span.ofSeconds? s.windowSecs, history.Remembers window))
  | tradeConcentration _ | flowAsymmetry _ | spreadVelocity _ | volumeDivergence _
  | tradeImbalance _ => inferInstanceAs (Decidable True)

theorem windows_ok {window baseline : Span} (h : signal.windows = .ok (window, baseline)) :
    Span.ofSeconds? signal.windowSecs = some window ∧
      Span.ofSeconds? signal.baselineSecs = some baseline := by
  simp only [windows, bind_ok_iff, pure_ok_iff, orAbort_ok_iff, Prod.mk.injEq] at h
  obtain ⟨_, hwindow, _, hbaseline, rfl, rfl⟩ := h
  exact ⟨hwindow, hbaseline⟩

/-- A signal cannot tell apart tapes that agree on its windows and on what clustering looks for. -/
theorem readWithin_congr {window baseline : Span} (hwindow : tape.within window = other.within window)
    (hbaseline : tape.within baseline = other.within baseline)
    (hprior : ∀ s, signal = tradeClustering s →
      tape.lastTradeBefore? window = other.lastTradeBefore? window) :
    signal.readWithin tape window baseline = signal.readWithin other window baseline := by
  have htrades : tape.tradesWithin window = other.tradesWithin window := by
    rw [Tape.tradesWithin, Tape.tradesWithin, hwindow]
  have hquotes : tape.quotesWithin window = other.quotesWithin window := by
    rw [Tape.quotesWithin, Tape.quotesWithin, hwindow]
  have hflow : tape.tradeFlow window = other.tradeFlow window := by
    rw [Tape.tradeFlow, Tape.tradeFlow, htrades]
  unfold readWithin
  cases signal with
  | tradeConcentration s => simp only [TradeConcentration.read, htrades]
  | flowAsymmetry s => simp only [FlowAsymmetry.read, htrades]
  | spreadVelocity s =>
    have hhistory : tape.spreadHistory window = other.spreadHistory window := by
      rw [Tape.spreadHistory, Tape.spreadHistory, hquotes]
    simp only [SpreadVelocity.read, hhistory]
  | volumeDivergence s =>
    have hends : tape.quoteEnds? window = other.quoteEnds? window := by
      rw [Tape.quoteEnds?, Tape.quoteEnds?, hquotes]
    have hrate : tape.volumeRate window = other.volumeRate window := by
      rw [Tape.volumeRate, Tape.volumeRate, hends]
    have hnormal : tape.volumeRate baseline = other.volumeRate baseline := by
      simp only [Tape.volumeRate, Tape.quoteEnds?, Tape.quotesWithin, hbaseline]
    have hmove : tape.priceChange window = other.priceChange window := by
      rw [Tape.priceChange, Tape.priceChange, hends]
    simp only [VolumeDivergence.read]
    rw [hflow, hrate, hnormal, hmove]
  | tradeClustering s => simp only [TradeClustering.read, htrades, hprior s rfl]
  | tradeImbalance s =>
    simp only [TradeImbalance.read]
    rw [hflow]

theorem read_ok {window baseline : Span} (h : signal.windows = .ok (window, baseline)) (tape : Tape) :
    signal.read tape = .ok (signal.readWithin tape window baseline) := by
  rw [read, h]
  rfl

theorem lookback_ok {window baseline : Span} (h : signal.windows = .ok (window, baseline)) :
    signal.lookback = .ok (max window baseline) := by
  rw [lookback, h]
  rfl

end Signal

namespace Composer

variable {composer : Composer} {tape other : Tape} {lookback : Span}

/-- The lookback covers the window of the liquidity gate and all windows of all signals. -/
theorem le_lookback (h : composer.lookback = .ok lookback) :
    (∀ window, composer.activationWindow = .ok window → window ≤ lookback) ∧
      ∀ signal ∈ composer.signals, ∀ window baseline, signal.windows = .ok (window, baseline) →
        window ≤ lookback ∧ baseline ≤ lookback := by
  simp only [Composer.lookback, bind_ok_iff, pure_ok_iff] at h
  obtain ⟨lookbacks, hlookbacks, activation, hactivation, hmax⟩ := h
  obtain ⟨hfirst, hrest⟩ := foldl_max_le_iff.1 hmax.le
  refine ⟨fun window hwindow => ?_, fun signal hsignal window baseline hwindows => ?_⟩
  · rw [hactivation] at hwindow
    exact Except.ok.inj hwindow ▸ hfirst
  · obtain ⟨span, hspan, hlookback⟩ := (mapM_ok_mem hlookbacks).1 signal hsignal
    rw [Signal.lookback_ok hwindows] at hlookback
    exact max_le_iff.1 (Except.ok.inj hlookback ▸ hrest span hspan)

/-- The lookback of a valid configuration is a span of at most a year. -/
theorem lookback_of_valid {config : Config} (h : config.fault? = none) :
    ∃ lookback, (ofConfig config).lookback = .ok lookback ∧ 0 ≤ lookback ∧ lookback ≤ maxSpan := by
  have hsignals : ∀ signal ∈ config.signals.enabled,
      ∃ span, signal.lookback = .ok span ∧ span ≤ maxSpan := by
    intro signal hsignal
    obtain ⟨window, baseline, hwindows, hwindow, hbaseline⟩ := Config.windows_of_enabled h hsignal
    exact ⟨max window baseline, Signal.lookback_ok hwindows, max_le hwindow.2 hbaseline.2⟩
  obtain ⟨lookbacks, hlookbacks⟩ := mapM_ok_of_forall fun signal hsignal =>
    (hsignals signal hsignal).imp fun _ => And.left
  obtain ⟨activation, hactivation, hnonneg, hle⟩ := Config.activationWindow_of_valid h
  have hlookback : (ofConfig config).lookback = .ok (lookbacks.foldl max activation) := by
    have hmap : (ofConfig config).signals.mapM Signal.lookback = .ok lookbacks := hlookbacks
    rw [lookback, hmap, hactivation]
    rfl
  have hmax : lookbacks.foldl max activation ≤ maxSpan := by
    refine foldl_max_le_iff.2 ⟨hle, fun span hspan => ?_⟩
    obtain ⟨signal, hsignal, hspan'⟩ := (mapM_ok_mem hlookbacks).2 span hspan
    obtain ⟨span', hspan'', hle'⟩ := hsignals signal hsignal
    rw [hspan'] at hspan''
    exact Except.ok.inj hspan'' ▸ hle'
  exact ⟨_, hlookback, hnonneg.trans ((le_lookback hlookback).1 _ hactivation), hmax⟩

/-- The composer of a valid configuration can evaluate every tape. -/
theorem evaluate_of_valid {config : Config} (h : config.fault? = none) (tape : Tape) :
    ∃ composite, (ofConfig config).evaluate tape = .ok composite := by
  obtain ⟨window, hwindow, -⟩ := Config.activationWindow_of_valid h
  obtain ⟨passes, hpasses⟩ : ∃ passes, (ofConfig config).passesActivation tape = .ok passes := by
    rw [passesActivation, hwindow]
    exact ⟨_, rfl⟩
  obtain ⟨readings, hreadings⟩ :
      ∃ readings, ((ofConfig config).signals.mapM fun signal => signal.read tape) = .ok readings :=
    mapM_ok_of_forall fun signal hsignal => by
      obtain ⟨_, _, hwindows, -⟩ := Config.windows_of_enabled h hsignal
      exact ⟨_, Signal.read_ok hwindows tape⟩
  unfold evaluate
  cases tape.latest with
  | none => exact ⟨none, rfl⟩
  | some ts =>
    simp only [hpasses, hreadings]
    cases passes with
    | false => exact ⟨none, rfl⟩
    | true => exact ⟨some _, rfl⟩

theorem evaluate_some {composite : Composite} (h : composer.evaluate tape = .ok (some composite)) :
    ∃ ts readings, tape.latest = some ts ∧
      List.Forall₂ (fun signal reading => signal.read tape = .ok reading) composer.signals readings ∧
      composite = composer.compose tape.instrument ts readings := by
  unfold evaluate at h
  cases hlatest : tape.latest with
  | none =>
    rw [hlatest, pure_ok_iff] at h
    cases h
  | some ts =>
    simp only [hlatest, bind_ok_iff] at h
    obtain ⟨passes, -, h⟩ := h
    cases passes with
    | false =>
      cases pure_ok_iff.1 h
    | true =>
      simp only [if_pos, bind_ok_iff, pure_ok_iff, Option.some.injEq] at h
      obtain ⟨readings, hreadings, rfl⟩ := h
      exact ⟨ts, readings, rfl, forall₂_of_mapM_ok hreadings, rfl⟩

theorem evaluate_isSome_iff {composite : Option Composite} {ts : Timestamp}
    (h : composer.evaluate tape = .ok composite) (hlatest : tape.latest = some ts) :
    composite.isSome ↔ composer.passesActivation tape = .ok true := by
  simp only [evaluate, hlatest, bind_ok_iff] at h
  obtain ⟨passes, hpasses, h⟩ := h
  rw [hpasses]
  cases passes with
  | false =>
    cases pure_ok_iff.1 h
    simp
  | true =>
    simp only [if_pos, bind_ok_iff, pure_ok_iff] at h
    obtain ⟨readings, -, rfl⟩ := h
    simp

theorem passesActivation_congr
    (h : ∀ window, composer.activationWindow = .ok window → tape.within window = other.within window) :
    composer.passesActivation tape = composer.passesActivation other := by
  unfold passesActivation
  cases hwindow : composer.activationWindow with
  | error abort => rfl
  | ok window =>
    have hvolume : tape.dollarVolume window = other.dollarVolume window := by
      simp only [Tape.dollarVolume, Tape.quoteEnds?, Tape.quotesWithin, h window hwindow]
    change Except.ok (decide (_ ≤ tape.dollarVolume window)) =
      Except.ok (decide (_ ≤ other.dollarVolume window))
    rw [hvolume]

theorem evaluate_congr (hinstrument : tape.instrument = other.instrument)
    (hlatest : tape.latest = other.latest)
    (hgate : composer.passesActivation tape = composer.passesActivation other)
    (hread : ∀ signal ∈ composer.signals, signal.read tape = signal.read other) :
    composer.evaluate tape = composer.evaluate other := by
  simp only [evaluate, hinstrument, hlatest, hgate, mapM_congr hread]

end Composer

/-- A valid configuration opens a desk for every instrument; its tape reaches back by the lookback of
the composer and the margin. -/
theorem Desk.ofConfig_of_valid {config : Config} (h : config.fault? = none) (instrument : String) :
    ∃ lookback margin, (Composer.ofConfig config).lookback = .ok lookback ∧
      Span.ofSeconds? config.engine.retentionMarginSecs = some margin ∧ 0 ≤ lookback ∧ 0 ≤ margin ∧
      Desk.ofConfig (.ofConfig config) config instrument = .ok
        ⟨.empty instrument (lookback + margin),
          .idle instrument config.positions config.portfolio.tradeSize⟩ := by
  obtain ⟨lookback, hlookback, hnonneg, hle⟩ := Composer.lookback_of_valid h
  obtain ⟨margin, hmargin, hnonneg', hle'⟩ := Config.margin_of_valid h
  refine ⟨lookback, margin, hlookback, hmargin, hnonneg, hnonneg', ?_⟩
  have hsum : Span.add? lookback margin = some (lookback + margin) := by
    refine Span.check?_of_le (Int.add_nonneg hnonneg hnonneg') ?_
    rw [Int.two_mul]
    exact Int.add_le_add hle hle'
  rw [Desk.ofConfig, hlookback, hmargin]
  change (orAbort _ (Span.add? lookback margin) >>= _) = _
  rw [hsum]
  rfl

end SignalDesk
