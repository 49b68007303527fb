import SignalDesk.Config.Document
import SignalDesk.Proofs.Toml.Words
import SignalDesk.Proofs.Wire

/-!
# The counts of a configuration

A count has 64 bits without a sign, of which a document can say only those with a sign. The counts
that come from a document, and the default ones, are among these, so a loaded configuration can
always be written.
-/

namespace SignalDesk

def Writable (counts : List UInt64) : Prop := ∀ count ∈ counts, fitsInt64 count.toNat = true

namespace Writable

instance (counts : List UInt64) : Decidable (Writable counts) :=
  decidable_of_iff (counts.all (fun count => fitsInt64 count.toNat) = true) List.all_eq_true

theorem nil : Writable [] := nofun

theorem cons {count : UInt64} {counts : List UInt64} (hcount : fitsInt64 count.toNat = true)
    (h : Writable counts) : Writable (count :: counts) :=
  List.forall_mem_cons.2 ⟨hcount, h⟩

theorem append {first second : List UInt64} (hfirst : Writable first) (hsecond : Writable second) :
    Writable (first ++ second) :=
  List.forall_mem_append.2 ⟨hfirst, hsecond⟩

end Writable

namespace Data

theorem Bounded.members {dialect : Dialect} {names : List String} {data : Data} (h : data.Bounded)
    {members : List (String × Data)} (hmembers : dialect.members? names data = some members) :
    ∀ member ∈ members, member.2.Bounded := by
  cases h with
  | table hmember =>
    rw [Dialect.members?, Option.ite_none_right_eq_some, Option.some.injEq] at hmembers
    obtain ⟨-, rfl⟩ := hmembers
    exact hmember
  | list hitem =>
    rw [Dialect.members?, Option.ite_none_right_eq_some, Option.some.injEq] at hmembers
    obtain ⟨-, rfl⟩ := hmembers
    exact fun member hmem => hitem member.2 (List.of_mem_zip hmem).2
  | null => cases hmembers
  | bool => cases hmembers
  | int => cases hmembers
  | float => cases hmembers
  | text => cases hmembers
  | unreadable => cases hmembers

section Setting

variable {α : Type} {members : List (String × Data)} {name : String} {default : α}
  {read : Data → Option α} {a : α}

/-- What holds of the default of a setting and of what is read from bounded data holds of the
setting. -/
theorem setting?_induction (holds : α → Prop) (h : setting? members name default read = some a)
    (hmembers : ∀ member ∈ members, member.2.Bounded) (hdefault : holds default)
    (hread : ∀ {data a}, data.Bounded → read data = some a → holds a) : holds a := by
  unfold setting? at h
  split at h
  · rename_i data hfind
    have hvalue := List.mem_of_head? hfind
    obtain ⟨member, hmember, rfl⟩ := List.mem_map.1 hvalue
    exact hread (hmembers member (List.mem_filter.1 hmember |>.1)) h
  · cases h
    exact hdefault

end Setting

theorem Bounded.count {data : Data} (h : data.Bounded) {count : UInt64}
    (hcount : data.uint64? = some count) : fitsInt64 count.toNat = true := by
  simp only [uint64?, Option.bind_eq_bind, Option.bind_eq_some_iff] at hcount
  obtain ⟨n, hn, hcount⟩ := hcount
  split at hcount
  · rename_i hbounds
    cases hcount
    cases h with
    | int hfits =>
      cases hn
      have hback : (n.toNat.toUInt64.toNat : Int) = n := by
        have hsmall : n.toNat < UInt64.size := by omega
        have hmod : n.toNat.toUInt64.toNat = n.toNat := Nat.mod_eq_of_lt hsmall
        omega
      rw [hback]
      exact hfits
    | _ => cases hn
  · cases hcount

private theorem count_of_setting? {members : List (String × Data)} {name : String}
    {default count : UInt64} (h : setting? members name default uint64? = some count)
    (hmembers : ∀ member ∈ members, member.2.Bounded)
    (hdefault : fitsInt64 default.toNat = true) : fitsInt64 count.toNat = true :=
  setting?_induction (fun count => fitsInt64 count.toNat = true) h hmembers hdefault
    fun hdata hcount => hdata.count hcount

end Data

section Counts

variable {dialect : Dialect} {data : Data} (hdata : data.Bounded)

open Data (setting?_induction count_of_setting?)

namespace PositionSettings

def counts (s : PositionSettings) : List UInt64 := [s.timeStopMinutes]

include hdata in
theorem writable_counts {s : PositionSettings} (h : ofData? dialect data = some s) :
    Writable s.counts := by
  simp only [ofData?, Option.bind_eq_bind, Option.bind_eq_some_iff] at h
  obtain ⟨members, hmembers, takeProfit, -, stopLoss, -, timeStop, htimeStop, threshold, -, heq⟩ := h
  cases heq
  have hbounded := hdata.members hmembers
  exact .cons (count_of_setting? htimeStop hbounded (by decide)) .nil

end PositionSettings

namespace ActivationSettings

def counts (s : ActivationSettings) : List UInt64 := [s.windowSecs]

include hdata in
theorem writable_counts {s : ActivationSettings} (h : ofData? dialect data = some s) :
    Writable s.counts := by
  simp only [ofData?, Option.bind_eq_bind, Option.bind_eq_some_iff] at h
  obtain ⟨members, hmembers, volume, -, window, hwindow, heq⟩ := h
  cases heq
  have hbounded := hdata.members hmembers
  exact .cons (count_of_setting? hwindow hbounded (by decide)) .nil

end ActivationSettings

namespace ComposerSettings

def counts (s : ComposerSettings) : List UInt64 := [s.minSignals]

include hdata in
theorem writable_counts {s : ComposerSettings} (h : ofData? dialect data = some s) :
    Writable s.counts := by
  simp only [ofData?, Option.bind_eq_bind, Option.bind_eq_some_iff] at h
  obtain ⟨members, hmembers, signals, hsignals, weighting, -, heq⟩ := h
  cases heq
  have hbounded := hdata.members hmembers
  exact .cons (count_of_setting? hsignals hbounded (by decide)) .nil

end ComposerSettings

namespace TradeConcentrationSettings

def counts (s : TradeConcentrationSettings) : List UInt64 := [s.windowSecs, s.minTrades]

include hdata in
theorem writable_counts {s : TradeConcentrationSettings} (h : ofData? dialect data = some s) :
    Writable s.counts := by
  simp only [ofData?, Option.bind_eq_bind, Option.bind_eq_some_iff] at h
  obtain ⟨members, hmembers, enabled, -, weight, -, window, hwindow, trades, htrades, threshold, -,
    heq⟩ := h
  cases heq
  have hbounded := hdata.members hmembers
  refine .cons (count_of_setting? hwindow hbounded (by decide)) ?_
  exact .cons (count_of_setting? htrades hbounded (by decide)) .nil

end TradeConcentrationSettings

namespace FlowAsymmetrySettings

def counts (s : FlowAsymmetrySettings) : List UInt64 := [s.windowSecs, s.minTrades]

include hdata in
theorem writable_counts {s : FlowAsymmetrySettings} (h : ofData? dialect data = some s) :
    Writable s.counts := by
  simp only [ofData?, Option.bind_eq_bind, Option.bind_eq_some_iff] at h
  obtain ⟨members, hmembers, enabled, -, weight, -, window, hwindow, trades, htrades, threshold, -,
    heq⟩ := h
  cases heq
  have hbounded := hdata.members hmembers
  refine .cons (count_of_setting? hwindow hbounded (by decide)) ?_
  exact .cons (count_of_setting? htrades hbounded (by decide)) .nil

end FlowAsymmetrySettings

namespace SpreadVelocitySettings

def counts (s : SpreadVelocitySettings) : List UInt64 := [s.windowSecs, s.minSnapshots]

include hdata in
theorem writable_counts {s : SpreadVelocitySettings} (h : ofData? dialect data = some s) :
    Writable s.counts := by
  simp only [ofData?, Option.bind_eq_bind, Option.bind_eq_some_iff] at h
  obtain ⟨members, hmembers, enabled, -, weight, -, window, hwindow, snapshots, hsnapshots,
    threshold, -, heq⟩ := h
  cases heq
  have hbounded := hdata.members hmembers
  refine .cons (count_of_setting? hwindow hbounded (by decide)) ?_
  exact .cons (count_of_setting? hsnapshots hbounded (by decide)) .nil

end SpreadVelocitySettings

namespace VolumeDivergenceSettings

def counts (s : VolumeDivergenceSettings) : List UInt64 :=
  [s.windowSecs, s.baselineWindowSecs, s.minTrades]

include hdata in
theorem writable_counts {s : VolumeDivergenceSettings} (h : ofData? dialect data = some s) :
    Writable s.counts := by
  simp only [ofData?, Option.bind_eq_bind, Option.bind_eq_some_iff] at h
  obtain ⟨members, hmembers, enabled, -, weight, -, window, hwindow, baseline, hbaseline,
    multiplier, -, move, -, trades, htrades, heq⟩ := h
  cases heq
  have hbounded := hdata.members hmembers
  refine .cons (count_of_setting? hwindow hbounded (by decide)) ?_
  refine .cons (count_of_setting? hbaseline hbounded (by decide)) ?_
  exact .cons (count_of_setting? htrades hbounded (by decide)) .nil

end VolumeDivergenceSettings

namespace TradeClusteringSettings

def counts (s : TradeClusteringSettings) : List UInt64 := [s.windowSecs, s.minBurstTrades]

include hdata in
theorem writable_counts {s : TradeClusteringSettings} (h : ofData? dialect data = some s) :
    Writable s.counts := by
  simp only [ofData?, Option.bind_eq_bind, Option.bind_eq_some_iff] at h
  obtain ⟨members, hmembers, enabled, -, weight, -, window, hwindow, trades, htrades, gap, -, quiet,
    -, heq⟩ := h
  cases heq
  have hbounded := hdata.members hmembers
  refine .cons (count_of_setting? hwindow hbounded (by decide)) ?_
  exact .cons (count_of_setting? htrades hbounded (by decide)) .nil

end TradeClusteringSettings

namespace TradeImbalanceSettings

def counts (s : TradeImbalanceSettings) : List UInt64 := [s.windowSecs, s.minTrades]

include hdata in
theorem writable_counts {s : TradeImbalanceSettings} (h : ofData? dialect data = some s) :
    Writable s.counts := by
  simp only [ofData?, Option.bind_eq_bind, Option.bind_eq_some_iff] at h
  obtain ⟨members, hmembers, enabled, -, weight, -, window, hwindow, trades, htrades, threshold, -,
    heq⟩ := h
  cases heq
  have hbounded := hdata.members hmembers
  refine .cons (count_of_setting? hwindow hbounded (by decide)) ?_
  exact .cons (count_of_setting? htrades hbounded (by decide)) .nil

end TradeImbalanceSettings

namespace EngineSettings

def counts (s : EngineSettings) : List UInt64 := [s.retentionMarginSecs, s.channelCapacity]

include hdata in
theorem writable_counts {s : EngineSettings} (h : ofData? dialect data = some s) :
    Writable s.counts := by
  simp only [ofData?, Option.bind_eq_bind, Option.bind_eq_some_iff] at h
  obtain ⟨members, hmembers, margin, hmargin, capacity, hcapacity, heq⟩ := h
  cases heq
  have hbounded := hdata.members hmembers
  refine .cons (count_of_setting? hmargin hbounded (by decide)) ?_
  exact .cons (count_of_setting? hcapacity hbounded (by decide)) .nil

end EngineSettings

namespace SignalSettings

def counts (s : SignalSettings) : List UInt64 :=
  s.tradeConcentration.counts ++ (s.flowAsymmetry.counts ++ (s.spreadVelocity.counts ++
    (s.volumeDivergence.counts ++ (s.tradeClustering.counts ++ s.tradeImbalance.counts))))

include hdata in
theorem writable_counts {s : SignalSettings} (h : ofData? dialect data = some s) :
    Writable s.counts := by
  simp only [ofData?, Option.bind_eq_bind, Option.bind_eq_some_iff] at h
  obtain ⟨members, hmembers, concentration, hconcentration, asymmetry, hasymmetry, velocity,
    hvelocity, divergence, hdivergence, clustering, hclustering, imbalance, himbalance, heq⟩ := h
  cases heq
  have hbounded := hdata.members hmembers
  refine .append ?_ (.append ?_ (.append ?_ (.append ?_ (.append ?_ ?_))))
  · exact setting?_induction (fun s => Writable s.counts) hconcentration hbounded (by decide)
      fun hdata h => TradeConcentrationSettings.writable_counts hdata h
  · exact setting?_induction (fun s => Writable s.counts) hasymmetry hbounded (by decide)
      fun hdata h => FlowAsymmetrySettings.writable_counts hdata h
  · exact setting?_induction (fun s => Writable s.counts) hvelocity hbounded (by decide)
      fun hdata h => SpreadVelocitySettings.writable_counts hdata h
  · exact setting?_induction (fun s => Writable s.counts) hdivergence hbounded (by decide)
      fun hdata h => VolumeDivergenceSettings.writable_counts hdata h
  · exact setting?_induction (fun s => Writable s.counts) hclustering hbounded (by decide)
      fun hdata h => TradeClusteringSettings.writable_counts hdata h
  · exact setting?_induction (fun s => Writable s.counts) himbalance hbounded (by decide)
      fun hdata h => TradeImbalanceSettings.writable_counts hdata h

end SignalSettings

namespace Config

def counts (config : Config) : List UInt64 :=
  config.positions.counts ++ (config.activation.counts ++ (config.composer.counts ++
    (config.signals.counts ++ config.engine.counts)))

include hdata in
theorem writable_counts {config : Config} (h : ofData? dialect data = some config) :
    Writable config.counts := by
  simp only [ofData?, Option.bind_eq_bind, Option.bind_eq_some_iff] at h
  obtain ⟨members, hmembers, portfolio, -, positions, hpositions, activation, hactivation, composer,
    hcomposer, signals, hsignals, engine, hengine, telemetry, -, heq⟩ := h
  cases heq
  have hbounded := hdata.members hmembers
  refine .append ?_ (.append ?_ (.append ?_ (.append ?_ ?_)))
  · exact setting?_induction (fun s => Writable s.counts) hpositions hbounded (by decide)
      fun hdata h => PositionSettings.writable_counts hdata h
  · exact setting?_induction (fun s => Writable s.counts) hactivation hbounded (by decide)
      fun hdata h => ActivationSettings.writable_counts hdata h
  · exact setting?_induction (fun s => Writable s.counts) hcomposer hbounded (by decide)
      fun hdata h => ComposerSettings.writable_counts hdata h
  · exact setting?_induction (fun s => Writable s.counts) hsignals hbounded (by decide)
      fun hdata h => SignalSettings.writable_counts hdata h
  · exact setting?_induction (fun s => Writable s.counts) hengine hbounded (by decide)
      fun hdata h => EngineSettings.writable_counts hdata h

end Config

end Counts

namespace Toml

private theorem exists_mapM {α β : Type} {f : α → Option β} {l : List α}
    (h : ∀ a ∈ l, ∃ b, f a = some b) : ∃ bs, l.mapM f = some bs := by
  induction l with
  | nil => exact ⟨[], rfl⟩
  | cons a l ih =>
    rw [List.forall_mem_cons] at h
    obtain ⟨⟨b, hb⟩, hl⟩ := h
    obtain ⟨bs, hbs⟩ := ih hl
    exact ⟨b :: bs, by rw [List.mapM_cons, hb, hbs]; rfl⟩

private theorem exists_write? {tables : List Section}
    (h : ∀ table ∈ tables, ∀ pair ∈ table.pairs, ∃ text, writeScalar? pair.2 = some text) :
    ∃ text, write? tables = some text := by
  have hsection : ∀ table ∈ tables, ∃ text, writeSection? table = some text := by
    intro table htable
    have hpair : ∀ pair ∈ table.pairs, ∃ text, writePair? pair = some text := by
      intro pair hmem
      obtain ⟨text, htext⟩ := h table htable pair hmem
      exact ⟨_, by rw [writePair?, htext]; rfl⟩
    obtain ⟨lines, hlines⟩ := exists_mapM hpair
    exact ⟨_, by rw [writeSection?, hlines]; rfl⟩
  obtain ⟨texts, htexts⟩ := exists_mapM hsection
  exact ⟨_, by rw [write?, htexts]; rfl⟩

end Toml

namespace Config

open Toml (writeScalar?)

private theorem exists_writeScalar?_count {n : UInt64} (h : fitsInt64 n.toNat = true) :
    ∃ text, writeScalar? (count n) = some text :=
  ⟨_, if_pos h⟩

private theorem exists_writeScalar?_cents (n : Int64) : ∃ text, writeScalar? (cents n) = some text :=
  ⟨_, if_pos (Data.fitsInt64_toInt n)⟩

private theorem exists_writeScalar?_number (n : UInt16) :
    ∃ text, writeScalar? (.int n.toNat) = some text := by
  have hfits : fitsInt64 n.toNat = true := by
    have hlt : n.toNat < 65536 := n.toNat_lt_size
    simp only [fitsInt64, Bool.and_eq_true, decide_eq_true_eq]
    omega
  exact ⟨_, if_pos hfits⟩

theorem exists_toToml? {config : Config} (h : Writable config.counts) :
    ∃ text, config.toToml? = some text := by
  refine Toml.exists_write? ?_
  have hamount (a : Decimal) : ∃ text, writeScalar? (amount a) = some text := ⟨_, rfl⟩
  have hfloat (x : Float) : ∃ text, writeScalar? (.float x) = some text := ⟨_, rfl⟩
  have hbool (b : Bool) : ∃ text, writeScalar? (.bool b) = some text := ⟨_, rfl⟩
  have htext (s : String) : ∃ text, writeScalar? (.text s) = some text := ⟨_, rfl⟩
  simp only [counts, PositionSettings.counts, ActivationSettings.counts, ComposerSettings.counts,
    SignalSettings.counts, TradeConcentrationSettings.counts, FlowAsymmetrySettings.counts,
    SpreadVelocitySettings.counts, VolumeDivergenceSettings.counts, TradeClusteringSettings.counts,
    TradeImbalanceSettings.counts, EngineSettings.counts, Writable, List.cons_append,
    List.nil_append, List.forall_mem_cons] at h
  simp only [sections, List.forall_mem_cons, List.forall_mem_append, hamount, hfloat, hbool, htext,
    exists_writeScalar?_cents, exists_writeScalar?_count, h, List.forall_mem_map,
    exists_writeScalar?_number, List.not_mem_nil, false_implies, implies_true, and_true]

end Config

end SignalDesk
