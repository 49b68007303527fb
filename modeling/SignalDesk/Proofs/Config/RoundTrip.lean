import SignalDesk.CommandLine.Program
import SignalDesk.Proofs.Bounds
import SignalDesk.Proofs.Config.Counts
import SignalDesk.Proofs.Config.Tables

/-!
# The effective configuration

A loaded configuration can be written, and what is written is loaded as the same configuration: the
counts are ones that a document can say, and no amount is a zero with a sign, as all are positive.
-/

namespace SignalDesk.Config

variable {text : String} {config : Config}

private theorem plain_of_valid (h : config.validate = .ok config) : config.Plain := by
  have hbounds := (validate_eq_ok_iff.1 h).portfolio
  exact ⟨Decimal.plain_of_toRat_pos hbounds.startingBalance,
    Decimal.plain_of_toRat_pos hbounds.tradeSize,
    Decimal.plain_of_toRat_pos hbounds.drawdownHaltPercent.1⟩

theorem eq_ok_of_toOption {ε α : Type} {result : Except ε α} {a : α} (h : result.toOption = some a) :
    result = .ok a := by
  cases result <;> cases h
  rfl

private theorem eq_of_validate_eq_ok {decoded : Config} (h : decoded.validate = .ok config) :
    decoded = config := by
  unfold validate at h
  split at h
  · cases h
  · cases h
    rfl

theorem ofToml_eq_ok_iff :
    ofToml text = .ok config ↔
      (∃ data, Toml.read? text = some data ∧ ofData? .toml data = some config) ∧
        config.validate = .ok config := by
  rw [← Option.bind_eq_some_iff]
  unfold ofToml
  constructor
  · intro h
    split at h
    · rename_i decoded hdecoded
      obtain rfl := eq_of_validate_eq_ok h
      exact ⟨hdecoded, h⟩
    · cases h
  · rintro ⟨hdecoded, hvalid⟩
    rw [hdecoded]
    exact hvalid

/-- A loaded configuration can be written. -/
theorem toToml?_of_ofToml (h : ofToml text = .ok config) :
    ∃ printed, config.toToml? = some printed := by
  obtain ⟨⟨data, hread, hdecode⟩, -⟩ := ofToml_eq_ok_iff.1 h
  exact exists_toToml? (writable_counts (Toml.bounded_read? hread) hdecode)

/-- A valid configuration is loaded from what is written for it. -/
theorem ofToml_toToml? (h : config.validate = .ok config) {printed : String}
    (hprinted : config.toToml? = some printed) : ofToml printed = .ok config :=
  ofToml_eq_ok_iff.2
    ⟨⟨_, read?_toToml? hprinted, ofData?_documentData (plain_of_valid h)⟩, h⟩

/--
For every text from which a configuration is loaded, the configuration can be written. What is
written is the output of the command that shows the configuration, unless its log level is malformed;
the same configuration is loaded from it, and is written as the same text again.
-/
theorem toml_round_trip (h : ofToml text = .ok config) :
    ∃ printed, config.toToml? = some printed ∧
      (∀ file stderr, (Program.execute config file stderr .showConfig).stdout =
        if (LogDirective.ofSetting config.telemetry.logLevel).isOk then printed else "") ∧
      ∃ again, ofToml printed = .ok again ∧ again = config ∧ again.toToml? = some printed := by
  obtain ⟨printed, hprinted⟩ := toToml?_of_ofToml h
  refine ⟨printed, hprinted, fun file stderr => ?_, config, ?_, rfl, hprinted⟩
  · rw [Program.execute]
    cases LogDirective.ofSetting config.telemetry.logLevel with
    | error => rfl
    | ok directives =>
      simp only [hprinted]
      rfl
  · exact ofToml_toToml? (ofToml_eq_ok_iff.1 h).2 hprinted

/-- An undefined float comes back, and so does a setting that has no default. -/
theorem undefined_round_trip :
    ∃ config printed,
      ofToml "signals.volumeDivergence.volumeMultiplier = nan\ntelemetry.metricsPort = 9_100" =
        .ok config ∧
      config.signals.volumeDivergence.volumeMultiplier.isNaN = true ∧
      config.telemetry.metricsPort = some 9100 ∧ config.toToml? = some printed ∧
      ∃ again, ofToml printed = .ok again ∧ again = config ∧ again.toToml? = some printed := by
  have hloaded :
      (ofToml "signals.volumeDivergence.volumeMultiplier = nan\ntelemetry.metricsPort = 9_100"
        ).toOption.map (fun config => (config.signals.volumeDivergence.volumeMultiplier.isNaN,
          config.telemetry.metricsPort)) = some (true, some 9100) := by
    decide +kernel
  obtain ⟨config, hconfig, hfields⟩ := Option.map_eq_some_iff.1 hloaded
  have hok := eq_ok_of_toOption hconfig
  obtain ⟨printed, hprinted, -, hagain⟩ := toml_round_trip hok
  exact ⟨config, printed, hok, congrArg Prod.fst hfields, congrArg Prod.snd hfields, hprinted, hagain⟩

end SignalDesk.Config
