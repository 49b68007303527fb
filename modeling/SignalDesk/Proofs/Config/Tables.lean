import SignalDesk.Proofs.Config.Decoding
import SignalDesk.Proofs.Toml.Building

/-!
# The document of a configuration

The text that is written for a configuration is read as its data: the headers open one table for each
section, six of them within one that only they mention.
-/

namespace SignalDesk

open Toml (Section Entries Node Builder rowsOf foldlM_section)

namespace Toml

def isBare (key : String) : Bool := !key.toList.isEmpty && key.toList.all isBareKeyChar

private theorem bare_of_isBare {key : String} (h : isBare key = true) : Bare key := by
  simp only [isBare, Bool.and_eq_true, Bool.not_eq_true', List.isEmpty_eq_false_iff,
    List.all_eq_true] at h
  exact ⟨h.1, h.2⟩

def Section.names (table : Section) : String × List String :=
  (table.header, table.pairs.map Prod.fst)

/-- Names with which a section can be read back from a header with the given path. -/
def wellNamed (names : String × List String) (path : List String) : Bool :=
  names.1.toList == dotted path && !path.isEmpty && path.length < depthLimit && path.all isBare &&
    names.2.all isBare && decide names.2.Nodup

variable {table : Section} {path : List String} (h : wellNamed table.names path = true)

include h

private theorem plain_of_wellNamed : table.Plain path := by
  simp only [wellNamed, Bool.and_eq_true, beq_iff_eq, decide_eq_true_eq, Bool.not_eq_true',
    List.isEmpty_eq_false_iff, List.all_eq_true] at h
  obtain ⟨⟨⟨⟨⟨hheader, hpath⟩, hlength⟩, hbare⟩, hkeys⟩, -⟩ := h
  exact ⟨hheader, hpath, hlength, fun key hkey => bare_of_isBare (hbare key hkey),
    fun pair hpair => bare_of_isBare (hkeys pair.1 (List.mem_map_of_mem hpair))⟩

private theorem nodup_of_wellNamed : (table.pairs.map Prod.fst).Nodup := by
  simp only [wellNamed, Bool.and_eq_true, decide_eq_true_eq] at h
  exact h.2

end Toml

namespace Config

def paths : List (List String) :=
  [["portfolio"], ["positions"], ["activation"], ["composer"], ["signals", "tradeConcentration"],
    ["signals", "flowAsymmetry"], ["signals", "spreadVelocity"], ["signals", "volumeDivergence"],
    ["signals", "tradeClustering"], ["signals", "tradeImbalance"], ["engine"], ["telemetry"]]

def wellNamedAll (names : List (String × List String)) : Bool :=
  (names.zip paths).all fun (names, path) => Toml.wellNamed names path

private theorem wellNamedAll_sections (config : Config) :
    wellNamedAll (config.sections.map Section.names) = true := by
  have hunset : wellNamedAll (Config.sections {} |>.map Section.names) = true := by
    decide +kernel
  have hset : wellNamedAll (Config.sections { telemetry := { metricsPort := some 0 } } |>.map
      Section.names) = true := by
    decide +kernel
  obtain ⟨-, -, -, -, -, -, logLevel, logFormat, metricsPort⟩ := config
  cases metricsPort with
  | none => exact hunset
  | some number => exact hset

section Built

variable {portfolio positions activation composer concentration asymmetry velocity divergence
  clustering imbalance engine telemetry : Section}

/-- The tables that the statements of all sections build. -/
theorem foldlM_sections
    (h : ∀ table ∈ [portfolio, positions, activation, composer, concentration, asymmetry, velocity,
      divergence, clustering, imbalance, engine, telemetry], (table.pairs.map Prod.fst).Nodup) :
    ((([portfolio, positions, activation, composer, concentration, asymmetry, velocity, divergence,
      clustering, imbalance, engine, telemetry].zip paths).flatMap fun table =>
        table.1.statements table.2).foldlM Builder.add? ⟨[], []⟩) =
      some ⟨[("portfolio", .table .explicit (rowsOf portfolio.pairs)),
        ("positions", .table .explicit (rowsOf positions.pairs)),
        ("activation", .table .explicit (rowsOf activation.pairs)),
        ("composer", .table .explicit (rowsOf composer.pairs)),
        ("signals", .table .implicit
          [("tradeConcentration", .table .explicit (rowsOf concentration.pairs)),
            ("flowAsymmetry", .table .explicit (rowsOf asymmetry.pairs)),
            ("spreadVelocity", .table .explicit (rowsOf velocity.pairs)),
            ("volumeDivergence", .table .explicit (rowsOf divergence.pairs)),
            ("tradeClustering", .table .explicit (rowsOf clustering.pairs)),
            ("tradeImbalance", .table .explicit (rowsOf imbalance.pairs))]),
        ("engine", .table .explicit (rowsOf engine.pairs)),
        ("telemetry", .table .explicit (rowsOf telemetry.pairs))], ["telemetry"]⟩ := by
  simp only [List.forall_mem_cons] at h
  obtain ⟨h₁, h₂, h₃, h₄, h₅, h₆, h₇, h₈, h₉, h₁₀, h₁₁, h₁₂, -⟩ := h
  simp only [paths, List.zip_cons_cons, List.zip_nil_left, List.flatMap_cons, List.flatMap_nil]
  refine Eq.trans (foldlM_section [] "portfolio" (Entries.files_top rfl) h₁ rfl _ _) ?_
  refine Eq.trans (foldlM_section [] "positions" (Entries.files_top rfl) h₂ rfl _ _) ?_
  refine Eq.trans (foldlM_section [] "activation" (Entries.files_top rfl) h₃ rfl _ _) ?_
  refine Eq.trans (foldlM_section [] "composer" (Entries.files_top rfl) h₄ rfl _ _) ?_
  refine Eq.trans (foldlM_section ["signals"] "tradeConcentration"
    (Entries.files_first rfl "tradeConcentration") h₅ rfl _ _) ?_
  refine Eq.trans (foldlM_section ["signals"] "flowAsymmetry" (Entries.files_next rfl rfl) h₆ rfl _ _)
    ?_
  refine Eq.trans (foldlM_section ["signals"] "spreadVelocity" (Entries.files_next rfl rfl) h₇ rfl _ _)
    ?_
  refine Eq.trans (foldlM_section ["signals"] "volumeDivergence" (Entries.files_next rfl rfl) h₈ rfl
    _ _) ?_
  refine Eq.trans (foldlM_section ["signals"] "tradeClustering" (Entries.files_next rfl rfl) h₉ rfl
    _ _) ?_
  refine Eq.trans (foldlM_section ["signals"] "tradeImbalance" (Entries.files_next rfl rfl) h₁₀ rfl
    _ _) ?_
  refine Eq.trans (foldlM_section [] "engine" (Entries.files_top rfl) h₁₁ rfl _ _) ?_
  exact foldlM_section [] "telemetry" (Entries.files_top rfl) h₁₂ rfl _ _

end Built

variable (config : Config)

private theorem sectionData_eq (header : String) {table : Section}
    (h : config.sections.filter (fun table => table.header == header) = [table]) :
    config.sectionData header = (Node.table .explicit (rowsOf table.pairs)).toData := by
  have hrows (pairs : List (String × Toml.Scalar)) :
      Node.entriesToData (rowsOf pairs) = pairs.map fun pair => (pair.1, scalarData pair.2) := by
    induction pairs with
    | nil => rfl
    | cons pair pairs ih => exact congrArg _ ih
  rw [sectionData, h, Node.toData, hrows, List.flatMap_singleton]

private theorem wellNamed_of_mem {table : Section × List String}
    (h : table ∈ config.sections.zip paths) : Toml.wellNamed table.1.names table.2 = true := by
  have hall := config.wellNamedAll_sections
  rw [wellNamedAll, List.zip_map_left, List.all_map, List.all_eq_true] at hall
  exact hall table h

private theorem sections_eq_map : config.sections = (config.sections.zip paths).map Prod.fst := rfl

/-- The sections build the document of the configuration. -/
theorem build_sections :
    ∃ builder, ((config.sections.zip paths).flatMap fun table =>
        table.1.statements table.2).foldlM Builder.add? ⟨[], []⟩ = some builder ∧
      Data.table (Node.entriesToData builder.entries) = config.documentData := by
  have hnodup : ∀ table ∈ config.sections, (table.pairs.map Prod.fst).Nodup := by
    intro table htable
    rw [sections_eq_map, List.mem_map] at htable
    obtain ⟨named, hmem, rfl⟩ := htable
    exact Toml.nodup_of_wellNamed (config.wellNamed_of_mem hmem)
  refine ⟨_, foldlM_sections hnodup, ?_⟩
  simp only [documentData, List.map_cons, List.map_nil, config.sectionData_eq "portfolio" rfl,
    config.sectionData_eq "positions" rfl, config.sectionData_eq "activation" rfl,
    config.sectionData_eq "composer" rfl,
    config.sectionData_eq ("signals." ++ "tradeConcentration") rfl,
    config.sectionData_eq ("signals." ++ "flowAsymmetry") rfl,
    config.sectionData_eq ("signals." ++ "spreadVelocity") rfl,
    config.sectionData_eq ("signals." ++ "volumeDivergence") rfl,
    config.sectionData_eq ("signals." ++ "tradeClustering") rfl,
    config.sectionData_eq ("signals." ++ "tradeImbalance") rfl,
    config.sectionData_eq "engine" rfl, config.sectionData_eq "telemetry" rfl]
  rfl

theorem read?_toToml? {config : Config} {text : String} (h : config.toToml? = some text) :
    Toml.read? text = some config.documentData := by
  obtain ⟨builder, hbuilder, hdata⟩ := config.build_sections
  rw [toToml?, sections_eq_map] at h
  have hplain : ∀ table ∈ config.sections.zip paths, table.1.Plain table.2 :=
    fun table htable => Toml.plain_of_wellNamed (config.wellNamed_of_mem htable)
  rw [Toml.read?_write? hplain h, hbuilder, Option.map_some, hdata]

end Config

end SignalDesk
