import PageCheck.Proofs.Settings.Discovery
import PageCheck.Proofs.Text.Blank

/-! # Which setting is in effect

What the command line gives comes before what the settings file holds, and that before the defaults,
for each setting on its own. A settings file that cannot be loaded is a problem in any case; a name
of no output mode is one only where it is in effect. So what is overridden might as well be missing
in the file, or be wrong.
-/

namespace PageCheck

/-- The value in effect, of one on the command line, one in the settings file, and the default. -/
inductive InEffect {α : Type} (own file : Option α) (default : α) : α → Prop where
  | override {value : α} (given : own = some value) : InEffect own file default value
  | file {value : α} (missing : own = none) (given : file = some value) :
      InEffect own file default value
  | default (missing : own = none) (absent : file = none) : InEffect own file default default

inductive ReportLevel.IsSelectedBy (words : String) : ReportLevel → Prop where
  | all (named : Text.IsTrimmed words "all") : IsSelectedBy words .all
  | mostImportant (named : Text.IsTrimmed words "most important") :
      IsSelectedBy words .mostImportant
  | noWarnings (named : Text.IsTrimmed words "no warnings") : IsSelectedBy words .noWarnings
  /-- Words that name no level select the normal one. -/
  | normal (unnamed : ∀ name ∈ ["all", "most important", "no warnings"],
      ¬ Text.IsTrimmed words name) : IsSelectedBy words .normal

/-- The settings in effect for a project root whose settings file, if it has one, is `found`. -/
structure Settings.IsMerged (root : String) (overrides : Overrides) (found : Option SettingsFile)
    (settings : Settings) : Prop where
  root_eq : settings.root = root
  fileFound_eq : settings.fileFound = found.isSome
  output : InEffect overrides.output (found.bind (·.output)) "human" settings.output.name
  profile : InEffect overrides.profile (found.bind (·.profile)) "css3" settings.style.profile
  medium : InEffect overrides.media (found.bind (·.media)) "all" settings.style.medium
  /-- The words are chosen first, and only those in effect are looked at. -/
  level : ∃ words, InEffect overrides.reportType (found.bind (·.reportType)) "default" words ∧
    settings.style.level.IsSelectedBy words
  htmlUrl : InEffect none (found.bind (·.htmlUrl)) "https://validator.w3.org/nu/" settings.htmlUrl
  cssUrl : InEffect none (found.bind (·.cssUrl)) "https://jigsaw.w3.org/css-validator/validator"
    settings.cssUrl
  timeout_eq : settings.timeout = found.bind (·.timeout)

/-- The output mode in effect is called by a name that none has. -/
structure Overrides.AskForUnknown (overrides : Overrides) (found : Option SettingsFile)
    (name : String) : Prop where
  inEffect : InEffect overrides.output (found.bind (·.output)) "human" name
  not_human : name ≠ "human"
  not_json : name ≠ "json"

/-- Two settings files are the same but for what is overridden. -/
structure Overrides.Mask (overrides : Overrides) (file other : SettingsFile) : Prop where
  output : overrides.output = none → file.output = other.output
  profile : overrides.profile = none → file.profile = other.profile
  media : overrides.media = none → file.media = other.media
  reportType : overrides.reportType = none → file.reportType = other.reportType
  htmlUrl : file.htmlUrl = other.htmlUrl
  cssUrl : file.cssUrl = other.cssUrl
  timeout : file.timeout = other.timeout

/-- What the settings come to. -/
inductive FileTree.Settles (tree : FileTree) (overrides : Overrides) :
    Except Problem Settings → Prop where
  /-- Nothing that is overridden makes up for a settings file that cannot be loaded. -/
  | unloadable {root : String} {problem : Problem}
      (isRoot : tree.IsRootFrom (tree.start overrides) root)
      (loads : tree.LoadsFrom root (.error problem)) : Settles tree overrides (.error problem)
  | unknownOutput {root name : String} {found : Option SettingsFile}
      (isRoot : tree.IsRootFrom (tree.start overrides) root)
      (loads : tree.LoadsFrom root (.ok found)) (unknown : overrides.AskForUnknown found name) :
      Settles tree overrides (.error (.unknownOutput name))
  | settled {root : String} {found : Option SettingsFile} {settings : Settings}
      (isRoot : tree.IsRootFrom (tree.start overrides) root)
      (loads : tree.LoadsFrom root (.ok found)) (merged : settings.IsMerged root overrides found) :
      Settles tree overrides (.ok settings)

theorem inEffect_iff {α : Type} {own file : Option α} {default value : α} :
    InEffect own file default value ↔ (own.or file).getD default = value := by
  constructor
  · intro chosen
    cases chosen with
    | override given => rw [given, Option.some_or, Option.getD_some]
    | file missing given => rw [missing, given, Option.none_or, Option.getD_some]
    | default missing absent => rw [missing, absent, Option.none_or, Option.getD_none]
  · rintro rfl
    cases own with
    | some value => exact .override rfl
    | none =>
        cases file with
        | some value => exact .file rfl rfl
        | none => exact .default rfl rfl

theorem InEffect.unique {α : Type} {own file : Option α} {default value other : α}
    (first : InEffect own file default value) (second : InEffect own file default other) :
    value = other :=
  (inEffect_iff.mp first).symm.trans (inEffect_iff.mp second)

theorem OutputMode.ofName?_eq_none_iff {text : String} :
    ofName? text = none ↔ text ≠ "human" ∧ text ≠ "json" := by
  unfold ofName?
  split
  · simp_all
  · split <;> simp_all

theorem OutputMode.name_injective : Function.Injective OutputMode.name := by
  intro mode other equal
  cases mode <;> cases other <;> first | rfl | exact absurd equal (by decide)

theorem ReportLevel.isSelectedBy_iff {words : String} {level : ReportLevel} :
    level.IsSelectedBy words ↔ ofText words = level := by
  constructor
  · intro selected
    cases selected with
    | all named | mostImportant named | noWarnings named => simp [ofText, named.trim_eq]
    | normal unnamed =>
        unfold ofText
        split
        · next named => exact absurd (Text.isTrimmed_iff.mpr named) (unnamed "all" (by simp))
        · next named =>
            exact absurd (Text.isTrimmed_iff.mpr named) (unnamed "most important" (by simp))
        · next named =>
            exact absurd (Text.isTrimmed_iff.mpr named) (unnamed "no warnings" (by simp))
        · rfl
  · rintro rfl
    unfold ofText
    split
    · next named => exact .all (Text.isTrimmed_iff.mpr named)
    · next named => exact .mostImportant (Text.isTrimmed_iff.mpr named)
    · next named => exact .noWarnings (Text.isTrimmed_iff.mpr named)
    · next not_all not_important not_quiet =>
        refine .normal ?_
        simp only [Text.isTrimmed_iff, List.forall_mem_cons]
        exact ⟨not_all, not_important, not_quiet, List.forall_mem_nil _⟩

variable {root : String} {overrides : Overrides} {found : Option SettingsFile}

theorem or_congr_of_none {α : Type} {own file other : Option α}
    (same : own = none → file = other) : own.or file = own.or other := by
  cases own with
  | some value => rfl
  | none => rw [same rfl]

theorem Overrides.Mask.merge_eq {file other : SettingsFile} (mask : overrides.Mask file other) :
    Settings.merge root overrides (some file) = Settings.merge root overrides (some other) := by
  unfold Settings.merge Settings.styleOptions
  simp only [Option.getD_some, Option.isSome_some, or_congr_of_none mask.output,
    or_congr_of_none mask.profile, or_congr_of_none mask.media, or_congr_of_none mask.reportType,
    mask.htmlUrl, mask.cssUrl, mask.timeout]

theorem inEffect_getD {α : Type} {field : SettingsFile → Option α} (unset : field {} = none)
    (own : Option α) (default : α) :
    InEffect own (found.bind field) default ((own.or (field (found.getD {}))).getD default) := by
  rw [inEffect_iff]
  cases found with
  | none => rw [Option.bind_none, Option.getD_none, unset]
  | some file => rfl

/-- No words at all have the effect of the words for the default level. -/
theorem ReportLevel.getD_map_ofText (words : Option String) :
    (words.map ofText).getD normal = ofText (words.getD "default") := by
  have default_normal : ofText "default" = normal := by decide
  cases words with
  | none => rw [Option.map_none, Option.getD_none, Option.getD_none, default_normal]
  | some words => rw [Option.map_some, Option.getD_some, Option.getD_some]

/-- Merging ends in the settings in effect, or with an output mode that does not exist. -/
theorem Settings.merge_cases (root : String) (overrides : Overrides)
    (found : Option SettingsFile) :
    (∃ settings, merge root overrides found = .ok settings ∧
      settings.IsMerged root overrides found) ∨
    ∃ name, merge root overrides found = .error (.unknownOutput name) ∧
      overrides.AskForUnknown found name := by
  have inEffect : InEffect overrides.output (found.bind (·.output)) "human"
      ((overrides.output.or (found.getD {}).output).getD "human") := inEffect_getD rfl _ _
  unfold merge
  dsimp only [OutputMode.name]
  -- Whether there are settings depends on the name of the output mode alone.
  generalize (overrides.output.or (found.getD {}).output).getD "human" = name at inEffect ⊢
  cases called : OutputMode.ofName? name with
  | none =>
      obtain ⟨not_human, not_json⟩ := OutputMode.ofName?_eq_none_iff.mp called
      exact .inr ⟨name, rfl, inEffect, not_human, not_json⟩
  | some mode =>
      obtain rfl := OutputMode.ofName?_eq_some_iff.mp called
      refine .inl ⟨_, rfl, ?_⟩
      exact
        { root_eq := rfl
          fileFound_eq := rfl
          output := inEffect
          profile := inEffect_getD rfl _ _
          medium := inEffect_getD rfl _ _
          level := by
            refine ⟨_, inEffect_getD rfl _ _, ReportLevel.isSelectedBy_iff.mpr ?_⟩
            rw [← ReportLevel.getD_map_ofText]
            rfl
          htmlUrl := inEffect_getD rfl none _
          cssUrl := inEffect_getD rfl none _
          timeout_eq := by cases found <;> rfl }

theorem Settings.IsMerged.unique {settings other : Settings}
    (first : settings.IsMerged root overrides found)
    (second : other.IsMerged root overrides found) : settings = other := by
  obtain ⟨words, chosen, selected⟩ := first.level
  obtain ⟨other_words, other_chosen, other_selected⟩ := second.level
  obtain rfl := chosen.unique other_chosen
  have level : settings.style.level = other.style.level :=
    (ReportLevel.isSelectedBy_iff.mp selected).symm.trans
      (ReportLevel.isSelectedBy_iff.mp other_selected)
  have root_eq := first.root_eq.trans second.root_eq.symm
  have fileFound := first.fileFound_eq.trans second.fileFound_eq.symm
  have output := OutputMode.name_injective (first.output.unique second.output)
  have profile := first.profile.unique second.profile
  have medium := first.medium.unique second.medium
  have htmlUrl := first.htmlUrl.unique second.htmlUrl
  have cssUrl := first.cssUrl.unique second.cssUrl
  have timeout := first.timeout_eq.trans second.timeout_eq.symm
  cases settings with
  | mk _ _ _ style =>
      cases other with
      | mk _ _ _ other_style =>
          cases style
          cases other_style
          simp_all

theorem Settings.IsMerged.not_askForUnknown {settings : Settings} {name : String}
    (merged : settings.IsMerged root overrides found) : ¬ overrides.AskForUnknown found name := by
  intro unknown
  obtain rfl := unknown.inEffect.unique merged.output
  cases named : settings.output with
  | human => exact unknown.not_human (congrArg OutputMode.name named)
  | json => exact unknown.not_json (congrArg OutputMode.name named)

theorem Settings.merge_eq_ok_iff {settings : Settings} :
    merge root overrides found = .ok settings ↔
      settings.IsMerged root overrides found := by
  rcases merge_cases root overrides found with ⟨own, merge_eq, merged⟩ | ⟨name, merge_eq, unknown⟩
  · rw [merge_eq, Except.ok.injEq]
    constructor
    · rintro rfl
      exact merged
    · exact merged.unique
  · rw [merge_eq]
    constructor
    · rintro ⟨⟩
    · intro merged
      exact absurd unknown merged.not_askForUnknown

theorem Settings.merge_eq_error_iff {problem : Problem} :
    merge root overrides found = .error problem ↔
      ∃ name, problem = .unknownOutput name ∧ overrides.AskForUnknown found name := by
  rcases merge_cases root overrides found with ⟨own, merge_eq, merged⟩ | ⟨name, merge_eq, unknown⟩
  · rw [merge_eq]
    constructor
    · rintro ⟨⟩
    · rintro ⟨name, -, unknown⟩
      exact absurd unknown merged.not_askForUnknown
  · rw [merge_eq, Except.error.injEq]
    constructor
    · rintro rfl
      exact ⟨name, rfl, unknown⟩
    · rintro ⟨other, rfl, other_unknown⟩
      rw [unknown.inEffect.unique other_unknown.inEffect]

namespace FileTree

variable {tree other : FileTree}

theorem settings_of_loadsFrom {loaded : Except Problem (Option SettingsFile)}
    (isRoot : tree.IsRootFrom (tree.start overrides) root) (loads : tree.LoadsFrom root loaded) :
    tree.settings overrides = loaded.bind (Settings.merge root overrides) :=
  settings_eq_iff.mpr ⟨root, loaded, isRoot, loads, rfl⟩

theorem settles_iff {result : Except Problem Settings} :
    tree.Settles overrides result ↔ tree.settings overrides = result := by
  constructor
  · intro settles
    cases settles with
    | unloadable isRoot loads => exact settings_of_loadsFrom isRoot loads
    | unknownOutput isRoot loads unknown =>
        rw [settings_of_loadsFrom isRoot loads]
        exact Settings.merge_eq_error_iff.mpr ⟨_, rfl, unknown⟩
    | settled isRoot loads merged =>
        rw [settings_of_loadsFrom isRoot loads]
        exact Settings.merge_eq_ok_iff.mpr merged
  · intro settings_eq
    obtain ⟨root, loaded, isRoot, loads, rfl⟩ := settings_eq_iff.mp settings_eq
    cases loaded with
    | error problem => exact .unloadable isRoot loads
    | ok found =>
        rcases Settings.merge_cases root overrides found with
          ⟨_, merge_eq, merged⟩ | ⟨_, merge_eq, unknown⟩
        · rw [Except.bind, merge_eq]
          exact .settled isRoot loads merged
        · rw [Except.bind, merge_eq]
          exact .unknownOutput isRoot loads unknown

/-- Settings come from the command line, else from the settings file, else from the defaults, each
    on its own. A settings file that cannot be loaded is the problem whatever is overridden beside
    the start of the search; an unknown output mode is one exactly if it is in effect; and there is
    no other. So two settings files that differ only in what is overridden have the same effect, and
    overriding words that name no report level select the normal one, whatever the file says. -/
theorem settings_precedence (tree : FileTree) (overrides : Overrides) :
    (∀ result, tree.settings overrides = result ↔ tree.Settles overrides result) ∧
    (∀ root problem, tree.IsRootFrom (tree.start overrides) root →
      tree.LoadsFrom root (.error problem) →
      ∀ others : Overrides, others.repoRoot = overrides.repoRoot →
        tree.settings others = .error problem) ∧
    (∀ root found, tree.IsRootFrom (tree.start overrides) root →
      tree.LoadsFrom root (.ok found) →
      (∀ name, tree.settings overrides = .error (.unknownOutput name) ↔
        overrides.AskForUnknown found name) ∧
      ∀ settings, tree.settings overrides = .ok settings ↔
        settings.IsMerged root overrides found) ∧
    (∀ (other : FileTree) root file other_file,
      tree.IsRootFrom (tree.start overrides) root → tree.LoadsFrom root (.ok (some file)) →
      other.IsRootFrom (other.start overrides) root → other.LoadsFrom root (.ok (some other_file)) →
      overrides.Mask file other_file → tree.settings overrides = other.settings overrides) ∧
    ∀ words settings, overrides.reportType = some words →
      (∀ name ∈ ["all", "most important", "no warnings"], ¬ Text.IsTrimmed words name) →
      tree.settings overrides = .ok settings → settings.style.level = .normal := by
  refine ⟨?_, ?_, ?_, ?_, ?_⟩
  · intro result
    exact settles_iff.symm
  · intro root problem isRoot loads others same
    have start_eq : tree.start others = tree.start overrides := by rw [start, start, same]
    rw [← start_eq] at isRoot
    exact settings_of_loadsFrom isRoot loads
  · intro root found isRoot loads
    rw [settings_of_loadsFrom isRoot loads, Except.bind]
    constructor
    · intro name
      rw [Settings.merge_eq_error_iff]
      constructor
      · rintro ⟨_, equal, unknown⟩
        cases equal
        exact unknown
      · intro unknown
        exact ⟨name, rfl, unknown⟩
    · intro settings
      exact Settings.merge_eq_ok_iff
  · intro other root file other_file isRoot loads other_isRoot other_loads mask
    rw [settings_of_loadsFrom isRoot loads, settings_of_loadsFrom other_isRoot other_loads]
    exact mask.merge_eq
  · intro words settings given unnamed settings_eq
    cases settles_iff.mpr settings_eq with
    | settled _ _ merged =>
        obtain ⟨chosen, inEffect, selected⟩ := merged.level
        obtain rfl := inEffect.unique (.override given)
        exact (ReportLevel.isSelectedBy_iff.mp selected).symm.trans
          (ReportLevel.isSelectedBy_iff.mp (.normal unnamed))

/-- The output mode of the file is unknown and its report level is not the normal one, but both are
    overridden. Without a closing bracket nothing is. -/
theorem settings_precedence_masked :
    let site (text : String) : FileTree := ⟨[("w3c-validation.toml", .file text.toUTF8)], []⟩
    let file := "output = \"xml\"\n[css]\nreport_type = \"all\""
    let overrides : Overrides := { output := some "json", reportType := some "everything" }
    (site file).settings {} = .error (.unknownOutput "xml") ∧
      (site file).settings overrides = (site "").settings overrides ∧
      (∃ settings, (site file).settings overrides = .ok settings ∧
        settings.output = .json ∧ settings.style.level = .normal) ∧
      (site "[").settings overrides =
        .error (.malformedSettings "/w3c-validation.toml" "malformed content") := by
  intro site file overrides
  let read : SettingsFile := { output := some "xml", reportType := some "all" }
  have isRoot : (site file).IsRootFrom ((site file).start overrides) "/" :=
    projectRoot_eq_iff.mp (by decide +kernel)
  have loads : (site file).LoadsFrom "/" (.ok (some read)) :=
    loadSettings_eq_iff.mp (by decide +kernel)
  have isRoot_bare : (site "").IsRootFrom ((site "").start overrides) "/" :=
    projectRoot_eq_iff.mp (by decide +kernel)
  have loads_bare : (site "").LoadsFrom "/" (.ok (some {})) :=
    loadSettings_eq_iff.mp (by decide +kernel)
  have isRoot_open : (site "[").IsRootFrom ((site "[").start {}) "/" :=
    projectRoot_eq_iff.mp (by decide +kernel)
  have loads_open : (site "[").LoadsFrom "/"
      (.error (.malformedSettings "/w3c-validation.toml" "malformed content")) :=
    loadSettings_eq_iff.mp (by decide +kernel)
  have mask : overrides.Mask read {} :=
    { output := fun missing => absurd missing (by decide)
      profile := fun _ => rfl
      media := fun _ => rfl
      reportType := fun missing => absurd missing (by decide)
      htmlUrl := rfl
      cssUrl := rfl
      timeout := rfl }
  have unnamed : ∀ name ∈ ["all", "most important", "no warnings"],
      ¬ Text.IsTrimmed "everything" name := by
    simp only [Text.isTrimmed_iff]
    decide
  obtain ⟨-, -, -, masked, level⟩ := settings_precedence (site file) overrides
  obtain ⟨-, -, single, -⟩ := settings_precedence (site file) {}
  obtain ⟨-, broken, -⟩ := settings_precedence (site "[") {}
  refine ⟨?_, ?_, ?_, ?_⟩
  · exact ((single "/" (some read) isRoot loads).1 "xml").mpr
      ⟨.file rfl rfl, by decide, by decide⟩
  · exact masked (site "") "/" read {} isRoot loads isRoot_bare loads_bare mask
  · let settings : Settings :=
      { root := "/"
        fileFound := true
        output := .json
        style := {}
        htmlUrl := Settings.defaultHtmlUrl
        cssUrl := Settings.defaultCssUrl
        timeout := none }
    have settings_eq : (site file).settings overrides = .ok settings :=
      (settings_of_loadsFrom isRoot loads).trans (by decide +kernel)
    exact ⟨settings, settings_eq, rfl, level "everything" settings rfl unnamed settings_eq⟩
  · exact broken "/" _ isRoot_open loads_open overrides rfl

end FileTree

end PageCheck
