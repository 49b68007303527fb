import SignalDesk.Proofs.Config.RoundTrip

/-!
# The configuration of a run

A run has the configuration that its file decodes to, if the file is UTF-8 and the configuration is
within its bounds. If the file is UTF-8 and there is no such configuration, the run fails and neither
its command nor any other file has a part in it. The defaults stand in for every other file, also for
one that is there and not UTF-8.
-/

namespace SignalDesk

/-- The bytes of the file are the UTF-8 of a text. -/
def FileContent.Holds (source : FileContent) (text : String) : Prop :=
  source = .bytes text.toUTF8.data.toList

/-- The text decodes to a configuration that is within its bounds. -/
structure Config.DecodedFrom (text : String) (config : Config) : Prop where
  decoded : ∃ data, Toml.read? text = some data ∧ Config.ofData? .toml data = some config
  bounds : config.Bounds IsNotNonpositive

variable {text : String} {config : Config} {source : FileContent}

private theorem Config.decodedFrom_iff :
    Config.DecodedFrom text config ↔ Config.ofToml text = .ok config := by
  rw [Config.ofToml_eq_ok_iff, Config.validate_eq_ok_iff]
  exact ⟨fun h => ⟨h.decoded, h.bounds⟩, fun h => ⟨h.1, h.2⟩⟩

private theorem fromUTF8?_eq_some_iff {bytes : ByteArray} :
    String.fromUTF8? bytes = some text ↔ bytes = text.toUTF8 := by
  unfold String.fromUTF8?
  constructor
  · intro h
    split at h
    · cases h
      rfl
    · cases h
  · rintro rfl
    rw [String.toUTF8_eq_toByteArray, dif_pos text.isValidUTF8]
    rfl

private theorem FileContent.holds_bytes_iff {content : List UInt8} :
    (FileContent.bytes content).Holds text ↔ String.fromUTF8? ⟨content.toArray⟩ = some text := by
  rw [fromUTF8?_eq_some_iff, Holds, FileContent.bytes.injEq]
  constructor
  · rintro rfl
    rfl
  · intro h
    rw [← h]

namespace Program

private theorem loadConfig_of_holds (h : source.Holds text) :
    loadConfig source = (Config.ofToml text).map fun config => (config, false) := by
  obtain rfl := h
  have htext := FileContent.holds_bytes_iff.1 (rfl : (FileContent.bytes _).Holds text)
  unfold loadConfig
  simp only [htext]

private theorem loadConfig_of_not_holds (h : ∀ text, ¬ source.Holds text) :
    loadConfig source = .ok ({}, true) := by
  unfold loadConfig
  split
  · split
    · rename_i htext
      exact absurd (FileContent.holds_bytes_iff.2 htext) (h _)
    · rfl
  · rfl

private theorem execute_stderr (config : Config) (file : String → FileContent) (stderr : String)
    (command : Command) : (execute config file stderr command).stderr = stderr := by
  unfold execute
  split
  · rfl
  · cases command with
    | replay options => rfl
    | showConfig =>
      simp only
      split <;> rfl

private theorem execute_showConfig_defaults (file : String → FileContent) (stderr : String) :
    (execute {} file stderr .showConfig).exitCode = 0 := by
  have hsplit : "info".splitOn "," = ["info"] := by cbv
  have hlevel : (LogDirective.ofSetting ({} : Config).telemetry.logLevel).toOption.isSome = true := by
    show (LogDirective.ofSetting "info").toOption.isSome = true
    unfold LogDirective.ofSetting
    rw [hsplit]
    decide +kernel
  have hprinted : (({} : Config).toToml?).isSome = true := by decide +kernel
  obtain ⟨directives, hdirectives⟩ := Option.isSome_iff_exists.1 hlevel
  obtain ⟨text, htext⟩ := Option.isSome_iff_exists.1 hprinted
  unfold execute
  simp only [Config.eq_ok_of_toOption hdirectives, htext]

private theorem head?_toList_append {first rest : String} {c : Char}
    (h : first.toList.head? = some c) : (first ++ rest).toList.head? = some c := by
  rw [String.toList_append, List.head?_append, h]
  rfl

private theorem ne_defaultedText {stderr : String} (h : stderr.toList.head? ≠ some 'W')
    (path : String) : stderr ≠ defaultedText path := by
  rintro rfl
  exact h (head?_toList_append (head?_toList_append (by decide +kernel)))

private theorem head?_configErrorText (error : ConfigError) :
    (configErrorText error).toList.head? = some 'E' := by
  cases error with
  | malformed => decide +kernel
  | invalid fault => exact head?_toList_append (head?_toList_append (by decide +kernel))

section run

variable {args : List String} {invocation : Invocation} {file : String → FileContent}

private theorem run_of_decoded (hrun : Arguments.parse args = .run invocation)
    (hholds : (file invocation.configPath).Holds text) (h : Config.DecodedFrom text config) :
    run args file = execute config file "" invocation.command := by
  unfold run
  simp only [hrun, loadConfig_of_holds hholds, Config.decodedFrom_iff.1 h]
  rfl

private theorem run_of_not_decoded (hrun : Arguments.parse args = .run invocation)
    (hholds : (file invocation.configPath).Holds text) (h : ∀ config, ¬ Config.DecodedFrom text config) :
    ∃ error, Config.ofToml text = .error error ∧ run args file = ⟨1, "", [], configErrorText error⟩ := by
  cases hload : Config.ofToml text with
  | ok config => exact absurd (Config.decodedFrom_iff.2 hload) (h config)
  | error error =>
    refine ⟨error, rfl, ?_⟩
    unfold run
    simp only [hrun, loadConfig_of_holds hholds, hload]
    rfl

private theorem run_of_not_holds (hrun : Arguments.parse args = .run invocation)
    (h : ∀ text, ¬ (file invocation.configPath).Holds text) :
    run args file = execute {} file (defaultedText invocation.configPath) invocation.command := by
  unfold run
  simp only [hrun, loadConfig_of_not_holds h]
  rfl

/--
A run whose file is UTF-8 executes its command with the configuration that the text decodes to, or, if
there is none, fails: it prints nothing, and all runs with this file end alike, whatever their command
is and whatever other files hold. The command is executed with the defaults in place of the file, and
a warning says so, exactly when the file is missing, cannot be read or is not UTF-8.
-/
theorem configuration_of_run (hrun : Arguments.parse args = .run invocation) :
    (∀ text config, (file invocation.configPath).Holds text → Config.DecodedFrom text config →
      run args file = execute config file "" invocation.command) ∧
    (∀ text, (file invocation.configPath).Holds text → (∀ config, ¬ Config.DecodedFrom text config) →
      ((run args file).exitCode = 1 ∧ (run args file).stdout = "" ∧ (run args file).logs = []) ∧
      ∀ args' file' invocation', Arguments.parse args' = .run invocation' →
        file' invocation'.configPath = file invocation.configPath → run args' file' = run args file) ∧
    ((∀ text, ¬ (file invocation.configPath).Holds text) →
      run args file = execute {} file (defaultedText invocation.configPath) invocation.command) ∧
    ((run args file).stderr = defaultedText invocation.configPath ↔
      ∀ text, ¬ (file invocation.configPath).Holds text) := by
  refine ⟨fun text config => run_of_decoded hrun, fun text hholds hnone => ?_, run_of_not_holds hrun,
    ?_, fun h => ?_⟩
  · obtain ⟨error, herror, hfailed⟩ := run_of_not_decoded hrun hholds hnone
    rw [hfailed]
    refine ⟨⟨rfl, rfl, rfl⟩, fun args' file' invocation' hrun' hsame => ?_⟩
    obtain ⟨error', herror', hfailed'⟩ := run_of_not_decoded hrun' (hsame ▸ hholds) hnone
    obtain rfl := Except.error.inj (herror.symm.trans herror')
    exact hfailed'
  · intro hwarned text hholds
    by_cases hdecoded : ∃ config, Config.DecodedFrom text config
    · obtain ⟨config, hconfig⟩ := hdecoded
      rw [run_of_decoded hrun hholds hconfig, execute_stderr] at hwarned
      exact ne_defaultedText (by decide) _ hwarned
    · obtain ⟨error, -, hfailed⟩ := run_of_not_decoded hrun hholds (not_exists.1 hdecoded)
      rw [hfailed] at hwarned
      refine ne_defaultedText ?_ _ hwarned
      rw [head?_configErrorText]
      decide
  · rw [run_of_not_holds hrun h, execute_stderr]

end run

/-- A file that sets a trade size is obeyed, and one that sets it to nothing is fatal. -/
theorem configuration_of_run_of_trade_size :
    let args := ["-c", "desk.toml", "config"]
    let invocation : Invocation := ⟨"desk.toml", .showConfig⟩
    let file (text : String) (path : String) : FileContent :=
      if path = "desk.toml" then .bytes text.toUTF8.data.toList else .missing
    Arguments.parse args = .run invocation ∧
      (∃ config, Config.DecodedFrom "portfolio.tradeSize = 5" config ∧
        config.portfolio.tradeSize = ⟨false, 5, 0, by decide, by decide⟩ ∧
        run args (file "portfolio.tradeSize = 5") =
          execute config (file "portfolio.tradeSize = 5") "" .showConfig) ∧
      (run args (file "portfolio.tradeSize = 0")).exitCode = 1 := by
  intro args invocation file
  have hrun : Arguments.parse args = .run invocation := by decide +kernel
  have hholds (text : String) : (file text invocation.configPath).Holds text := if_pos rfl
  have hloaded : (Config.ofToml "portfolio.tradeSize = 5").toOption.map
      (fun config => config.portfolio.tradeSize) = some ⟨false, 5, 0, by decide, by decide⟩ := by
    decide +kernel
  obtain ⟨config, hconfig, hsize⟩ := Option.map_eq_some_iff.1 hloaded
  have hdecoded := Config.decodedFrom_iff.2 (Config.eq_ok_of_toOption hconfig)
  have hrefused : (Config.ofToml "portfolio.tradeSize = 0").toOption.isNone = true := by decide +kernel
  have hnone (other : Config) : ¬ Config.DecodedFrom "portfolio.tradeSize = 0" other := by
    intro h
    rw [Config.decodedFrom_iff.1 h] at hrefused
    cases hrefused
  refine ⟨hrun, ⟨config, hdecoded, hsize, ?_⟩, ?_⟩
  · exact (configuration_of_run hrun).1 _ config (hholds _) hdecoded
  · exact ((configuration_of_run hrun).2.1 _ (hholds _) hnone).1.1

/-- A byte that is not UTF-8 in a comment sets the trade size of the file aside. -/
theorem bad_byte_sets_file_aside :
    let content := "portfolio.tradeSize = 5 # caf".toUTF8.data.toList ++ [0xE9, 0x0A]
    let file (path : String) : FileContent :=
      if path = "config.toml" then .bytes content else .missing
    ¬ ((∃ text config, (file "config.toml").Holds text ∧ Config.DecodedFrom text config ∧
        run ["config"] file = execute config file "" .showConfig) ∨
      (run ["config"] file).exitCode ≠ 0) := by
  intro content file
  have hcontent : file "config.toml" = .bytes content := if_pos rfl
  have hnone : (String.fromUTF8? ⟨content.toArray⟩).isNone = true := by decide +kernel
  have hnot (text : String) : ¬ (file "config.toml").Holds text := by
    intro hholds
    rw [hcontent, FileContent.holds_bytes_iff] at hholds
    rw [hholds] at hnone
    cases hnone
  rintro (⟨text, config, hholds, -⟩ | hfailed)
  · exact hnot text hholds
  · have hrun : Arguments.parse ["config"] = .run ⟨"config.toml", .showConfig⟩ := by decide +kernel
    rw [run_of_not_holds hrun hnot] at hfailed
    exact hfailed (execute_showConfig_defaults file _)

end Program

end SignalDesk
