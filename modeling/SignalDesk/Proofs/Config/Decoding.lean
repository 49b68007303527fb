import SignalDesk.Config.Document
import SignalDesk.Proofs.Decimal.Text
import SignalDesk.Proofs.Decimal.Value
import SignalDesk.Proofs.Wire

/-!
# Decoding what is written

Each section is decoded from the scalars that are written for it, so a configuration is decoded from
its own data. All that is asked of it is that no amount is a zero with a sign.
-/

namespace SignalDesk

namespace Data

private theorem uint16?_toNat (n : UInt16) : (Data.int n.toNat).uint16? = some n := by
  have hbounds : (0 : Int) ≤ n.toNat ∧ (n.toNat : Int) < UInt16.size :=
    ⟨Int.natCast_nonneg _, Int.ofNat_lt.2 n.toNat_lt_size⟩
  have hback : ((n.toNat : Int).toNat).toUInt16 = n := by
    rw [Int.toNat_natCast]
    exact UInt16.ofNat_toNat
  rw [uint16?, int?, Option.bind_eq_bind, Option.bind_some, if_pos hbounds, hback]
  rfl

end Data

namespace Decimal

theorem plain_of_toRat_pos {a : Decimal} (h : 0 < a.toRat) : a.Plain := by
  rintro - hzero
  have hmantissa : a.mantissa = 0 := by
    unfold mantissa
    rw [hzero]
    split <;> rfl
  rw [toRat, hmantissa] at h
  simp at h

theorem ofData?_text {a : Decimal} (h : a.Plain) : ofData? (.text a.toText) = some a :=
  (ofText?_toText a).trans (congrArg some (unsignZero_of_plain h))

end Decimal

theorem LogFormat.ofData?_text (dialect : Dialect) (format : LogFormat) :
    LogFormat.ofData? dialect (.text format.toText) = some format := by
  cases format <;> rfl

namespace Config

variable (config : Config)

private theorem portfolio_ofData? (hbalance : config.portfolio.startingBalance.Plain)
    (hsize : config.portfolio.tradeSize.Plain)
    (hpercent : config.portfolio.drawdownHaltPercent.Plain) :
    PortfolioSettings.ofData? .toml (config.sectionData "portfolio") = some config.portfolio := by
  simp only [PortfolioSettings.ofData?, Option.bind_eq_bind, Option.bind_eq_some_iff]
  exact ⟨_, rfl, _, Decimal.ofData?_text hbalance, _, Decimal.ofData?_text hsize, _,
    Decimal.ofData?_text hpercent, rfl⟩

private theorem positions_ofData? :
    PositionSettings.ofData? .toml (config.sectionData "positions") = some config.positions := by
  simp only [PositionSettings.ofData?, Option.bind_eq_bind, Option.bind_eq_some_iff]
  exact ⟨_, rfl, _, Data.int64?_toInt _, _, Data.int64?_toInt _, _, Data.uint64?_toNat _, _, rfl,
    rfl⟩

private theorem activation_ofData? :
    ActivationSettings.ofData? .toml (config.sectionData "activation") = some config.activation := by
  simp only [ActivationSettings.ofData?, Option.bind_eq_bind, Option.bind_eq_some_iff]
  exact ⟨_, rfl, _, rfl, _, Data.uint64?_toNat _, rfl⟩

private theorem composer_ofData? :
    ComposerSettings.ofData? .toml (config.sectionData "composer") = some config.composer := by
  simp only [ComposerSettings.ofData?, Option.bind_eq_bind, Option.bind_eq_some_iff]
  exact ⟨_, rfl, _, Data.uint64?_toNat _, _, rfl, rfl⟩

private theorem tradeConcentration_ofData? :
    TradeConcentrationSettings.ofData? .toml (config.sectionData "signals.tradeConcentration") =
      some config.signals.tradeConcentration := by
  simp only [TradeConcentrationSettings.ofData?, Option.bind_eq_bind, Option.bind_eq_some_iff]
  exact ⟨_, rfl, _, rfl, _, rfl, _, Data.uint64?_toNat _, _, Data.uint64?_toNat _, _, rfl, rfl⟩

private theorem flowAsymmetry_ofData? :
    FlowAsymmetrySettings.ofData? .toml (config.sectionData "signals.flowAsymmetry") =
      some config.signals.flowAsymmetry := by
  simp only [FlowAsymmetrySettings.ofData?, Option.bind_eq_bind, Option.bind_eq_some_iff]
  exact ⟨_, rfl, _, rfl, _, rfl, _, Data.uint64?_toNat _, _, Data.uint64?_toNat _, _, rfl, rfl⟩

private theorem spreadVelocity_ofData? :
    SpreadVelocitySettings.ofData? .toml (config.sectionData "signals.spreadVelocity") =
      some config.signals.spreadVelocity := by
  simp only [SpreadVelocitySettings.ofData?, Option.bind_eq_bind, Option.bind_eq_some_iff]
  exact ⟨_, rfl, _, rfl, _, rfl, _, Data.uint64?_toNat _, _, Data.uint64?_toNat _, _, rfl, rfl⟩

private theorem volumeDivergence_ofData? :
    VolumeDivergenceSettings.ofData? .toml (config.sectionData "signals.volumeDivergence") =
      some config.signals.volumeDivergence := by
  simp only [VolumeDivergenceSettings.ofData?, Option.bind_eq_bind, Option.bind_eq_some_iff]
  exact ⟨_, rfl, _, rfl, _, rfl, _, Data.uint64?_toNat _, _, Data.uint64?_toNat _, _, rfl, _, rfl,
    _, Data.uint64?_toNat _, rfl⟩

private theorem tradeClustering_ofData? :
    TradeClusteringSettings.ofData? .toml (config.sectionData "signals.tradeClustering") =
      some config.signals.tradeClustering := by
  simp only [TradeClusteringSettings.ofData?, Option.bind_eq_bind, Option.bind_eq_some_iff]
  exact ⟨_, rfl, _, rfl, _, rfl, _, Data.uint64?_toNat _, _, Data.uint64?_toNat _, _, rfl, _, rfl,
    rfl⟩

private theorem tradeImbalance_ofData? :
    TradeImbalanceSettings.ofData? .toml (config.sectionData "signals.tradeImbalance") =
      some config.signals.tradeImbalance := by
  simp only [TradeImbalanceSettings.ofData?, Option.bind_eq_bind, Option.bind_eq_some_iff]
  exact ⟨_, rfl, _, rfl, _, rfl, _, Data.uint64?_toNat _, _, Data.uint64?_toNat _, _, rfl, rfl⟩

private theorem engine_ofData? :
    EngineSettings.ofData? .toml (config.sectionData "engine") = some config.engine := by
  simp only [EngineSettings.ofData?, Option.bind_eq_bind, Option.bind_eq_some_iff]
  exact ⟨_, rfl, _, Data.uint64?_toNat _, _, Data.uint64?_toNat _, rfl⟩

private theorem sectionData_telemetry :
    config.sectionData "telemetry" =
      .table (("logLevel", .text config.telemetry.logLevel) ::
        ("logFormat", .text config.telemetry.logFormat.toText) ::
        config.telemetry.metricsPort.toList.map fun number => ("metricsPort", .int number.toNat)) := by
  unfold sectionData sections
  cases config.telemetry.metricsPort <;> rfl

private theorem telemetry_ofData? :
    TelemetrySettings.ofData? .toml (config.sectionData "telemetry") = some config.telemetry := by
  rw [sectionData_telemetry]
  obtain ⟨-, -, -, -, -, -, logLevel, logFormat, metricsPort⟩ := config
  cases metricsPort with
  | none =>
    simp only [TelemetrySettings.ofData?, Option.bind_eq_bind, Option.bind_eq_some_iff]
    exact ⟨_, rfl, _, rfl, _, LogFormat.ofData?_text .toml _, _, rfl, rfl⟩
  | some number =>
    have hmetrics : Position.optional? Data.uint16? (some (.int number.toNat)) = some (some number) := by
      rw [Position.optional?, Data.uint16?_toNat]
      · rfl
      · exact nofun
    simp only [TelemetrySettings.ofData?, Option.bind_eq_bind, Option.bind_eq_some_iff]
    exact ⟨_, rfl, _, rfl, _, LogFormat.ofData?_text .toml _, _, hmetrics, rfl⟩

/-- The configuration as a document says it, without unset metrics. -/
def documentData : Data :=
  let signals := ["tradeConcentration", "flowAsymmetry", "spreadVelocity", "volumeDivergence",
    "tradeClustering", "tradeImbalance"]
  .table (["portfolio", "positions", "activation", "composer"].map (fun name =>
      (name, config.sectionData name)) ++
    [("signals", .table (signals.map fun name => (name, config.sectionData ("signals." ++ name)))),
      ("engine", config.sectionData "engine"), ("telemetry", config.sectionData "telemetry")])

private theorem signals_ofData? :
    SignalSettings.ofData? .toml (.table (["tradeConcentration", "flowAsymmetry", "spreadVelocity",
      "volumeDivergence", "tradeClustering", "tradeImbalance"].map fun name =>
        (name, config.sectionData ("signals." ++ name)))) = some config.signals := by
  simp only [SignalSettings.ofData?, Option.bind_eq_bind, Option.bind_eq_some_iff]
  exact ⟨_, rfl, _, config.tradeConcentration_ofData?, _, config.flowAsymmetry_ofData?, _,
    config.spreadVelocity_ofData?, _, config.volumeDivergence_ofData?, _,
    config.tradeClustering_ofData?, _, config.tradeImbalance_ofData?, rfl⟩

/-- The amounts of a configuration have no zero with a sign among them. -/
structure Plain : Prop where
  startingBalance : config.portfolio.startingBalance.Plain
  tradeSize : config.portfolio.tradeSize.Plain
  drawdownHaltPercent : config.portfolio.drawdownHaltPercent.Plain

variable {config}

theorem ofData?_documentData (h : config.Plain) :
    ofData? .toml config.documentData = some config := by
  simp only [ofData?, Option.bind_eq_bind, Option.bind_eq_some_iff]
  exact ⟨_, rfl, _, config.portfolio_ofData? h.startingBalance h.tradeSize h.drawdownHaltPercent, _,
    config.positions_ofData?, _, config.activation_ofData?, _, config.composer_ofData?, _,
    config.signals_ofData?, _, config.engine_ofData?, _, config.telemetry_ofData?, rfl⟩

end Config

end SignalDesk
