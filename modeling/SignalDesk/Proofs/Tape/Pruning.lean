import SignalDesk.Proofs.Composer
import SignalDesk.Proofs.Desk

/-!
# Pruning

A desk forgets nothing that its composer looks at. The gate, the signals and the composite are those
of the complete history of the instrument, except that clustering may miss a trade that has left the
retention.
-/

namespace SignalDesk

section lookback

variable {config : Config} {lookback margin : Span} {records : List Record}

private theorem passesActivation_of_complete (hvalid : config.fault? = none)
    (hlookback : (Composer.ofConfig config).lookback = .ok lookback) (hmargin : 0 ≤ margin)
    (h : Chronological records) (instrument : String) :
    (Composer.ofConfig config).passesActivation
        ((Tape.empty instrument (lookback + margin)).updateAll records) =
      (Composer.ofConfig config).passesActivation
        (Tape.complete instrument (lookback + margin) records) := by
  refine Composer.passesActivation_congr fun window hwindow => ?_
  have hle := (Composer.le_lookback hlookback).1 window hwindow
  obtain ⟨window', hwindow', hnonneg, -⟩ := Config.activationWindow_of_valid hvalid
  rw [hwindow] at hwindow'
  obtain rfl := Except.ok.inj hwindow'
  exact Tape.within_updateAll h hnonneg (hle.trans (Int.le_add_of_nonneg_right hmargin))

private theorem read_of_complete (hvalid : config.fault? = none)
    (hlookback : (Composer.ofConfig config).lookback = .ok lookback) (hmargin : 0 ≤ margin)
    (h : Chronological records) (instrument : String) {signal : Signal}
    (hsignal : signal ∈ (Composer.ofConfig config).signals)
    (hrecalls : signal.Recalls (Tape.complete instrument (lookback + margin) records)) :
    signal.read ((Tape.empty instrument (lookback + margin)).updateAll records) =
      signal.read (Tape.complete instrument (lookback + margin) records) := by
  obtain ⟨window, baseline, hwindows, hwindow, hbaseline⟩ := Config.windows_of_enabled hvalid hsignal
  obtain ⟨hle, hle'⟩ := (Composer.le_lookback hlookback).2 signal hsignal window baseline hwindows
  have hreach : lookback ≤ lookback + margin := Int.le_add_of_nonneg_right hmargin
  rw [Signal.read_ok hwindows, Signal.read_ok hwindows]
  congr 1
  refine Signal.readWithin_congr (Tape.within_updateAll h hwindow.1 (hle.trans hreach))
    (Tape.within_updateAll h hbaseline.1 (hle'.trans hreach)) fun s hs => ?_
  subst hs
  exact Tape.lastTradeBefore?_updateAll h ((hwindow.1.trans hle).trans hreach)
    (hrecalls window (Signal.windows_ok hwindows).1)

end lookback

namespace Desk

/-- The desk after some records, each with the account as the desk finds it. -/
def afterAll (composer : Composer) (desk : Desk) (visits : List (Record × Account)) : Desk :=
  visits.foldl (fun desk visit => (onRecord composer visit.1 (desk, visit.2)).state.1) desk

private theorem afterAll_tape (composer : Composer) (desk : Desk) (visits : List (Record × Account)) :
    (desk.afterAll composer visits).tape = desk.tape.updateAll (visits.map Prod.fst) := by
  induction visits generalizing desk with
  | nil => rfl
  | cons visit visits ih =>
    have hrest := ih (onRecord composer visit.1 (desk, visit.2)).state.1
    rw [onRecord_tape] at hrest
    exact hrest

/-- Pruning is not noticed. The gate and every signal answer on the tape of a desk as on the complete
history, clustering if the last trade before its window is within the retention, and so does the
composer if this is so for every clustering signal. -/
theorem composite_of_complete_history {config : Config} (hvalid : config.fault? = none)
    (instrument : String) (visits : List (Record × Account))
    (haccepted : ∀ visit ∈ visits, visit.1.Accepted)
    (hsorted : visits.Pairwise fun a b => a.1.ts ≤ b.1.ts) :
    ∃ lookback margin desk,
      (Composer.ofConfig config).lookback = .ok lookback ∧
      Span.ofSeconds? config.engine.retentionMarginSecs = some margin ∧
      Desk.ofConfig (.ofConfig config) config instrument = .ok desk ∧
      let composer := Composer.ofConfig config
      let kept := (desk.afterAll composer visits).tape
      let whole := Tape.complete instrument (lookback + margin) (visits.map Prod.fst)
      composer.passesActivation kept = composer.passesActivation whole ∧
      (∀ signal ∈ composer.signals, signal.Recalls whole → signal.read kept = signal.read whole) ∧
      ((∀ signal ∈ composer.signals, signal.Recalls whole) →
        composer.evaluate kept = composer.evaluate whole) := by
  obtain ⟨lookback, margin, hlookback, hmargin, hnonneg, hnonneg', hdesk⟩ :=
    ofConfig_of_valid hvalid instrument
  refine ⟨lookback, margin, _, hlookback, hmargin, hdesk, ?_⟩
  have hchronological : Chronological (visits.map Prod.fst) := by
    refine ⟨fun record hrecord => ?_, List.pairwise_map.2 hsorted⟩
    obtain ⟨visit, hvisit, rfl⟩ := List.mem_map.1 hrecord
    exact (haccepted visit hvisit).dated
  simp only [afterAll_tape]
  generalize visits.map Prod.fst = records at hchronological
  have hgate := passesActivation_of_complete hvalid hlookback hnonneg' hchronological instrument
  refine ⟨hgate, fun signal hsignal hrecalls =>
    read_of_complete hvalid hlookback hnonneg' hchronological instrument hsignal hrecalls,
    fun hrecalls => ?_⟩
  have hheld := Tape.updateAll_empty instrument hchronological
    (Int.add_nonneg hnonneg hnonneg')
  refine Composer.evaluate_congr (by rw [hheld]; rfl) (by rw [hheld]) hgate fun signal hsignal => ?_
  exact read_of_complete hvalid hlookback hnonneg' hchronological instrument hsignal
    (hrecalls signal hsignal)

theorem composite_of_complete_history_of_old_trade :
    let config : Config := { signals := {
      tradeConcentration := { enabled := true }
      flowAsymmetry := { enabled := true }
      spreadVelocity := { enabled := true }
      volumeDivergence := { enabled := true }
      tradeClustering := { enabled := true } } }
    let visits : List (Record × Account) :=
      [(.trade ⟨"RAIN", 0, .yes, 10, 40⟩, .poisoned),
        (.quote ⟨"RAIN", 6000000, 41, 40, 42, 900, 500000⟩, .poisoned),
        (.trade ⟨"RAIN", 9000000, .yes, 20, 42⟩, .poisoned),
        (.quote ⟨"RAIN", 9500000, 42, 41, 43, 950, 900000⟩, .poisoned)]
    let composer := Composer.ofConfig config
    ∃ desk, Desk.ofConfig composer config "RAIN" = .ok desk ∧
      let kept := (desk.afterAll composer visits).tape
      kept.records = (visits.map Prod.fst).tail ∧ composer.evaluate kept =
        composer.evaluate (.complete "RAIN" 3660000 (visits.map Prod.fst)) := by
  intro config visits composer
  have hvalid : config.fault? = none := by decide +kernel
  have haccepted : ∀ visit ∈ visits, visit.1.Accepted := by decide +kernel
  have hsorted : visits.Pairwise fun a b => a.1.ts ≤ b.1.ts := by decide +kernel
  obtain ⟨lookback, margin, desk, hlookback, hmargin, hdesk, -, -, hevaluate⟩ :=
    composite_of_complete_history hvalid "RAIN" visits haccepted hsorted
  have hhour : ∃ span, composer.lookback = .ok span ∧ span = 3600000 :=
    exists_ok_of_any (by decide +kernel)
  obtain ⟨_, hhour, rfl⟩ := hhour
  have hminute : Span.ofSeconds? config.engine.retentionMarginSecs = some 60000 := by decide +kernel
  obtain rfl := Except.ok.inj (hlookback.symm.trans hhour)
  obtain rfl := Option.some.inj (hmargin.symm.trans hminute)
  have hpruned : ∃ desk, Desk.ofConfig composer config "RAIN" = .ok desk ∧
      (desk.tape.updateAll (visits.map Prod.fst)).records = (visits.map Prod.fst).tail :=
    exists_ok_of_any (by decide +kernel)
  obtain ⟨desk', hdesk', hrecords⟩ := hpruned
  obtain rfl := Except.ok.inj (hdesk.symm.trans hdesk')
  rw [← afterAll_tape composer] at hrecords
  exact ⟨desk, hdesk, hrecords, hevaluate (by decide +kernel)⟩

end Desk

end SignalDesk
