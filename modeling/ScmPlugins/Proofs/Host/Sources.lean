import ScmPlugins.Proofs.Host.Layers

namespace ScmPlugins.Host

namespace Sources

inductive Reads (s : Sources) (flags : Flags) : Assignment → Prop
  | flag {f : File} {path : String} {a : Assignment} (file : s.file = some f)
      (flag : flags.lookup .configPath = some path) (leads : f.isAt path = true)
      (content : f.Says a) : Reads s flags a
  | environment {f : File} {path : String} {a : Assignment} (file : s.file = some f)
      (flag : flags.lookup .configPath = none)
      (set : s.environment.get? pathVariable = some path) (leads : f.isAt path = true)
      (content : f.Says a) : Reads s flags a
  | nothing (flag : flags.lookup .configPath = none)
      (astray : ∀ f path, s.file = some f → s.environment.get? pathVariable = some path →
        f.isAt path = false) : Reads s flags fun _ => none

/-- What the sources say, layer by layer. -/
structure Says (s : Sources) (flags : Flags) (fromEnvironment fromFile : Assignment) : Prop where
  arguments : s.arguments = flags.written
  proper : flags.Proper
  environment : s.environment.Says fromEnvironment
  file : s.Reads flags fromFile
  formed : fromEnvironment.Formed ∧ fromFile.Formed

variable {s : Sources} {flags : Flags} {fromEnvironment fromFile : Assignment} {c : Config}

theorem Reads.exists_layer (h : s.Reads flags fromFile) :
    ∃ l, s.fileLayer flags = .ok l ∧ ∀ f, l f = (fromFile f).map .text := by
  cases h with
  | flag found flag leads content =>
    obtain ⟨l, read, fields⟩ := content.layer
    exact ⟨l, by simp [fileLayer, chosenFile, found, flag, Option.filter, leads, read], fields⟩
  | environment found flag set leads content =>
    obtain ⟨l, read, fields⟩ := content.layer
    exact ⟨l, by simp [fileLayer, chosenFile, found, flag, set, Option.filter, leads, read], fields⟩
  | nothing flag astray =>
    refine ⟨.empty, ?_, fun f => rfl⟩
    have none : s.file.filter (fun f => (s.environment.get? pathVariable).any f.isAt) = none := by
      rw [Option.filter_eq_none_iff]
      intro f found
      cases set : s.environment.get? pathVariable with
      | none => simp
      | some path => simp [astray f path found set]
    simp [fileLayer, chosenFile, flag, none]

/-- The texts of the highest layer that has one, flags before variables and these before the file,
and the defaults below. -/
def wanted (fromFlags fromEnvironment fromFile : Assignment) : Assignment :=
  (fromFlags.onto (fromEnvironment.onto fromFile)).onto ({} : Config).text?

theorem Says.exists_layer (h : s.Says flags fromEnvironment fromFile)
    (answers : s.environment.Answers) :
    ∃ l : Layer, s.load = Attempt.ofExcept (l.config.mapError .unfit) ∧
      ∀ f, l f = ((flags.heard f).map .text).or
        (((fromEnvironment f).bind Environment.reading?).or ((fromFile f).map .text)) := by
  obtain ⟨environment, read, fields⟩ := h.environment.exists_layer answers
  obtain ⟨file, found, lower⟩ := h.file.exists_layer
  have parsed : Flags.parse? s.arguments = some flags := h.arguments ▸ h.proper.parse?
  refine ⟨flags.layer.onto (environment.onto file), ?_, fun f => ?_⟩
  · simp [load, read, layer, parsed, found, Except.map, Attempt.ofExcept]
  · simp only [Layer.onto, Flags.layer_apply, fields, lower]

theorem Says.exists_read (h : s.Says flags fromEnvironment fromFile)
    (answers : s.environment.Answers) {f : Field} {v : String}
    (given : fromEnvironment f = some v) :
    ∃ e, Environment.read (ε := LoadError) (Text.trim v.toList) = .ok e ∧
      Environment.reading? v = some e := by
  have set : (Environment.nameOf f, v) ∈ s.environment.entries := by
    rw [← OrderedMap.get?_eq_some_iff, h.environment.fields, given]
  have about : Environment.path? (Environment.nameOf f) ≠ none :=
    Environment.path?_nameOf f ▸ Option.some_ne_none _
  have answer := answers _ set about
  exact Environment.exists_read answer

theorem load_stopped (h : ¬s.environment.Answers) : s.load = .stopped := by
  simp [load, Environment.layer_stopped h]

theorem ofExcept_mapError_eq_ok_iff {x : Except Field Config} :
    Attempt.ofExcept (x.mapError LoadError.unfit) = .ok c ↔ x = .ok c := by
  cases x <;> simp [Attempt.ofExcept, Except.mapError]

theorem load_wanted_iff (h : s.Says flags fromEnvironment fromFile) :
    (∃ c, s.load = .ok c ∧ c.text? = wanted flags.heard fromEnvironment fromFile) ↔
      s.environment.Answers ∧ ∀ f v, flags.heard f = none → fromEnvironment f = some v →
        Environment.Verbatim v.toList := by
  by_cases answers : s.environment.Answers
  case neg => simp [load_stopped answers, answers]
  case pos =>
    obtain ⟨l, load, fields⟩ := h.exists_layer answers
    have formed : (flags.heard.onto (fromEnvironment.onto fromFile)).Formed :=
      h.proper.heard_formed.onto (h.formed.1.onto h.formed.2)
    have same (f : Field) :
        l f = none ↔ (flags.heard.onto (fromEnvironment.onto fromFile)) f = none := by
      rw [fields, Assignment.onto, Assignment.onto]
      cases set : fromEnvironment f with
      | none => simp
      | some v =>
        obtain ⟨e, -, found⟩ := h.exists_read answers set
        simp [found]
    have kept (f : Field) :
        l f = ((flags.heard.onto (fromEnvironment.onto fromFile)) f).map .text ↔
          ∀ v, flags.heard f = none → fromEnvironment f = some v →
            Environment.Verbatim v.toList := by
      rw [fields, Assignment.onto, Assignment.onto]
      cases flags.heard f with
      | some v => simp
      | none =>
        cases set : fromEnvironment f with
        | none => simp
        | some v =>
          obtain ⟨e, read, found⟩ := h.exists_read answers set
          have verbatim : Environment.Verbatim v.toList ↔ e = .text v := by
            rw [← Environment.read_trim_iff (ε := LoadError), read, Attempt.ok.injEq]
          simp [found, verbatim]
    rw [load]
    simp only [ofExcept_mapError_eq_ok_iff, wanted, Layer.config_text?_iff formed same, kept,
      answers, true_and]

theorem exists_says {fromFlags : Assignment} (h : fromFlags.Formed) (h' : fromEnvironment.Formed)
    (h'' : fromFile.Formed) :
    ∃ s flags, flags.said = fromFlags ∧ ¬flags.Idle ∧ Says s flags fromEnvironment fromFile := by
  let flags := Flags.holding "tether.toml" fromFlags
  let file := File.holding "tether.toml" fromFile
  have leads : file.isAt "tether.toml" = true := by
    change File.isAt ⟨"tether.toml", ""⟩ "tether.toml" = true
    decide +kernel
  refine ⟨⟨some file, Environment.holding fromEnvironment, flags.written⟩, flags,
    Flags.said_holding _ _, fun idle => ?_, rfl, Flags.proper_holding (by decide) h,
    Environment.says_holding _, .flag rfl rfl leads (File.says_holding _ _), h', h''⟩
  cases idle.1

/-- No version can be given in the environment as it is displayed. -/
theorem displayed_version_lost (h : s.Says flags fromEnvironment fromFile) {v : Version}
    (given : fromEnvironment .maxProtocolVersion = some v.text)
    (hidden : flags.heard .maxProtocolVersion = none) :
    ¬∃ c, s.load = .ok c ∧ c.text? = wanted flags.heard fromEnvironment fromFile := by
  rw [load_wanted_iff h]
  rintro ⟨-, kept⟩
  have verbatim := kept .maxProtocolVersion _ hidden given
  rw [Version.text, String.toList_ofList] at verbatim
  exact Environment.not_bland_digits v verbatim.bland

/-- Each field has the text of the highest layer that gives one exactly if every value of the
environment that no flag hides is kept as it stands and none makes the reader stop. Flags that only
repeat the defaults are not heard. -/
theorem load_layered (h : s.Says flags fromEnvironment fromFile) :
    (¬flags.Idle →
      ((∃ c, s.load = .ok c ∧ c.text? = wanted flags.said fromEnvironment fromFile) ↔
        s.environment.Answers ∧ ∀ f v, flags.said f = none → fromEnvironment f = some v →
          Environment.Verbatim v.toList)) ∧
      (flags.Idle →
        ((∃ c, s.load = .ok c ∧ c.text? = wanted .nothing fromEnvironment fromFile) ↔
          s.environment.Answers ∧
            ∀ f v, fromEnvironment f = some v → Environment.Verbatim v.toList)) := by
  have heard := load_wanted_iff h
  constructor
  · intro busy
    rwa [Flags.heard_of_not_idle busy] at heard
  · intro idle
    rw [Flags.heard_of_idle idle] at heard
    simpa [Assignment.nothing] using heard

theorem load_layered_each :
    let s : Sources := {
      file := some ⟨"tether.toml", "log_filter = \"warn\"\nmax_protocol_version = \"1.0\"\n"⟩
      environment := .ofList [("TETHER_LOG_FILTER", "debug"), ("TETHER_EXTENSION_NAME", "my scm")]
      arguments := ["--config-path=tether.toml", "--log-filter=trace"] }
    ∃ c, s.load = .ok c ∧ c.logFilter = "trace" ∧ c.extensionName = "my scm" ∧
      c.maxProtocolVersion = some "1.0" := by
  have told : Says
      ⟨some ⟨"tether.toml", "log_filter = \"warn\"\nmax_protocol_version = \"1.0\"\n"⟩,
        .ofList [("TETHER_LOG_FILTER", "debug"), ("TETHER_EXTENSION_NAME", "my scm")],
        ["--config-path=tether.toml", "--log-filter=trace"]⟩
      (Flags.holding "tether.toml" (.of [(.logFilter, "trace")]))
      (.of [(.logFilter, "debug"), (.extensionName, "my scm")])
      (.of [(.logFilter, "warn"), (.maxProtocolVersion, "1.0")]) := by
    have environment :
        OrderedMap.ofList [("TETHER_LOG_FILTER", "debug"), ("TETHER_EXTENSION_NAME", "my scm")] =
          Environment.holding (.of [(.logFilter, "debug"), (.extensionName, "my scm")]) := by
      decide +kernel
    refine ⟨by decide +kernel, Flags.proper_holding (by decide) nofun, ?_, ?_, nofun, nofun⟩
    · rw [environment]
      exact Environment.says_holding _
    · have file := File.says_holding "tether.toml"
        (.of [(.logFilter, "warn"), (.maxProtocolVersion, "1.0")])
      exact .flag (by decide +kernel) rfl (by decide +kernel) file
  have answers : Environment.Answers
      (.ofList [("TETHER_LOG_FILTER", "debug"), ("TETHER_EXTENSION_NAME", "my scm")]) := by
    unfold Environment.Answers
    decide +kernel
  have plain : Environment.Verbatim "my scm".toList := by
    have start : ∀ c ∈ "my scm".toList.head?, c ∉ Environment.opening := by
      simp [Environment.opening]
    refine ⟨Text.trim_eq_self_iff.1 (by decide), .word start (by decide) (by decide) ?_⟩
    unfold Environment.IsNumeral
    decide
  obtain ⟨c, load, texts⟩ := ((load_layered told).1 fun idle => by cases idle.1).2
    ⟨answers, fun f v above given => by cases f <;> cases above <;> cases given; exact plain⟩
  have text := congrFun texts
  exact ⟨c, load, Option.some.inj (text .logFilter), Option.some.inj (text .extensionName),
    text .maxProtocolVersion⟩

/-- A text with a point is taken for a number, and flags that repeat the defaults are not heard. -/
theorem layers_misread :
    Sources.load { environment := .ofList [("TETHER_MAX_PROTOCOL_VERSION", "1.0")] } =
      .error (.unfit .maxProtocolVersion) ∧
    Sources.load {
        environment := .ofList [("TETHER_LOG_FILTER", "warn")]
        arguments := ["--log-filter=info", "--log-format=json", "--extension-name=scm"] } =
      .ok { logFilter := "warn" } := by
  decide +kernel

end Sources

end ScmPlugins.Host
