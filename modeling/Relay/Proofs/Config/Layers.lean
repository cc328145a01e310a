import Relay.Program
import Relay.Proofs.Config.Environment

namespace Relay

/-! The layers of a configuration: defaults under a file, under variables, under options.
Main statement: each setting is decided on its own by the topmost layer that says anything
about it, and a configuration is refused exactly if the topmost value of some setting, the
options apart, cannot be converted. -/

namespace Config

/-! ## The file -/

def fileEntries? (directory : Directory) (path : Option String) : Option Branches :=
  match File.find directory (path.getD defaultPath) with
  | .ok file => file.format.entries? file.origin file.text
  | .error _ => if path.isNone then some .nil else none

theorem layer_of_entries? {file : File} {entries : Branches}
    (read : file.format.entries? file.origin file.text = some entries) :
    file.layer = .ok ⟨entries.assignments⟩ := by
  rw [File.layer, read]

theorem fileLayer_of_fileEntries? {directory : Directory} {path : Option String}
    {entries : Branches} (read : fileEntries? directory path = some entries) :
    fileLayer directory path = .ok ⟨entries.assignments⟩ := by
  unfold fileEntries? at read
  cases path with
  | some path =>
      rw [fileLayer]
      cases found : File.find directory path with
      | ok file =>
          rw [Option.getD_some, found] at read
          exact layer_of_entries? read
      | error error =>
          rw [Option.getD_some, found] at read
          cases read
  | none =>
      rw [fileLayer]
      cases found : File.find directory defaultPath with
      | ok file =>
          rw [Option.getD_none, found] at read
          exact layer_of_entries? read
      | error error =>
          rw [Option.getD_none, found] at read
          cases read
          rfl

theorem isDistinct_of_fileEntries? {directory : Directory} {path : Option String}
    {entries : Branches} (read : fileEntries? directory path = some entries) :
    entries.IsDistinct := by
  rw [fileEntries?] at read
  split at read
  · exact Format.isDistinct_of_entries? read
  · split at read
    · cases read
      trivial
    · cases read

/-! ## One setting -/

def effective? (setting : Setting) (environment : List (String × String))
    (entries : Branches) : Option Tree :=
  match Environment.text? setting environment with
  | some text => some (.scalar (some Environment.origin) (Environment.scalarOf text))
  | none => (entries.valueOf? setting).filter fun value => !value.isNothing

namespace Setting

def readEffective (setting : Setting) (value? : Option Tree) :
    Except ReadingError (Option setting.Value) :=
  match value? with
  | some value => setting.read (value.assign .nothing)
  | none => .ok none

theorem not_read_table {setting : Setting} {origin : Option String} {entries : Branches}
    {converted : Option setting.Value} : setting.read (.table origin entries) ≠ .ok converted := by
  cases setting <;> exact nofun

theorem read_assign_iff {setting : Setting} {value : Tree} {converted : Option setting.Value} :
    setting.read (value.assign .nothing) = .ok converted ↔
      setting.read value = .ok converted := by
  cases value with
  | scalar origin value => exact Iff.rfl
  | array origin elements => exact Iff.rfl
  | table origin entries =>
      rcases entries.exists_assignInto none .nil with ⟨newOrigin, inner, isTable⟩
      have assigned : (Tree.table origin entries).assign .nothing = .table newOrigin inner :=
        isTable
      rw [assigned]
      exact ⟨fun read => absurd read not_read_table, fun read => absurd read not_read_table⟩

theorem readEffective_eq_ok {setting : Setting} {value? : Option Tree}
    {converted : Option setting.Value} (read : setting.readEffective value? = .ok converted) :
    converted = value?.bind setting.convert? := by
  cases value? with
  | none =>
      cases read
      rfl
  | some value => rw [Option.bind_some, convert?, read_assign_iff.mp read]

theorem exists_readEffective_iff {setting : Setting} {value? : Option Tree}
    (present : ∀ value ∈ value?, value.isNothing = false) :
    (∃ converted, setting.readEffective value? = .ok converted) ↔
      ∀ value ∈ value?, (setting.convert? value).isSome := by
  cases value? with
  | none => exact ⟨fun _ => nofun, fun _ => ⟨none, rfl⟩⟩
  | some value =>
      simp only [readEffective, read_assign_iff, Option.mem_some_iff, forall_eq', convert?]
      cases read : setting.read value with
      | error error => simp
      | ok converted? =>
          cases converted? with
          | none =>
              have isNothing := isNothing_of_read read
              rw [present value rfl] at isNothing
              cases isNothing
          | some converted => simp

end Setting

theorem isNothing_scalarOf (text : String) :
    (Tree.scalar (some Environment.origin) (Environment.scalarOf text)).isNothing = false := by
  unfold Environment.scalarOf
  split
  · rfl
  · rfl
  · split
    · rfl
    · split <;> rfl

theorem isNothing_of_effective? (setting : Setting) (environment : List (String × String))
    (entries : Branches) :
    ∀ value ∈ effective? setting environment entries, value.isNothing = false := by
  intro value isEffective
  rw [effective?] at isEffective
  split at isEffective
  · rename_i text _
    cases isEffective
    exact isNothing_scalarOf text
  · have present := (Option.filter_eq_some_iff.mp isEffective).2
    simpa using present

/-! ## All settings -/

/-- Reading all layers reads each setting from the value that decides about it. -/
theorem layered_eq {environment : List (String × String)} {entries : Branches}
    (distinct : entries.IsDistinct) (plain : ∀ key ∈ entries.keys, Path.IsPlain key)
    (sections : entries.HasSections) (names : Environment.NamesSettings environment) :
    layered ⟨entries.assignments⟩ environment =
      (Choices.gather fun setting =>
        setting.readEffective (effective? setting environment entries)).map
          fun choices => choices.orElse Settings.default := by
  have fileSections := Layer.hasSections_onto_assignments distinct plain sections
  rw [layered, Choices.ofTree_eq_gather (names.hasSections_onto fileSections)]
  have sameReading (setting : Setting) :
      setting.read (((Environment.layer environment).onto
        (Layer.onto ⟨entries.assignments⟩ (.table none .nil))).valueOf setting) =
        setting.readEffective (effective? setting environment entries) := by
    rw [names.valueOf_onto, Layer.valueOf_onto_assignments distinct plain, effective?]
    cases Environment.text? setting environment with
    | some text => rfl
    | none =>
        cases entries.valueOf? setting with
        | none => exact Setting.read_of_isNothing rfl setting
        | some value =>
            rw [Option.filter_some]
            cases isNothing : value.isNothing with
            | false => rfl
            -- What a file sets to nothing stays in the tree, but it is read like what is missing.
            | true =>
                exact Setting.read_assign_iff.mpr (Setting.read_of_isNothing isNothing setting)
  simp only [sameReading]

end Config

namespace Program

open Config

/-- Whether the configuration consists of what a file says and of variables, each in its
proper place. The file has plain keys, its parts are tables, and each variable of the
configuration names a setting. -/
structure HasLayers (surroundings : Surroundings) (path : Option String)
    (entries : Branches) : Prop where
  read : fileEntries? surroundings.directory path = some entries
  plain : ∀ key ∈ entries.keys, Path.IsPlain key
  sections : entries.HasSections
  names : Environment.NamesSettings (fullEnvironment surroundings)

theorem settings_eq {surroundings : Surroundings} {arguments : Arguments} {entries : Branches}
    (layers : HasLayers surroundings arguments.config entries) :
    settings surroundings arguments =
      match Choices.gather fun setting =>
        setting.readEffective (effective? setting (fullEnvironment surroundings) entries) with
      | .ok choices => .ok (arguments.onto (choices.orElse Settings.default))
      | .error error => .error (.configuration error.message) := by
  rw [settings, load, fileLayer_of_fileEntries? layers.read]
  dsimp only
  rw [layered_eq (isDistinct_of_fileEntries? layers.read) layers.plain layers.sections layers.names]
  cases Choices.gather fun setting =>
    setting.readEffective (effective? setting (fullEnvironment surroundings) entries) <;> rfl

theorem settings_eq_ok_iff {surroundings : Surroundings} {arguments : Arguments}
    {entries : Branches} (layers : HasLayers surroundings arguments.config entries)
    {loaded : Settings} :
    settings surroundings arguments = .ok loaded ↔
      ∃ choices, (Choices.gather fun setting => setting.readEffective
          (effective? setting (fullEnvironment surroundings) entries)) = .ok choices ∧
        arguments.onto (choices.orElse Settings.default) = loaded := by
  rw [settings_eq layers]
  cases Choices.gather fun setting =>
      setting.readEffective (effective? setting (fullEnvironment surroundings) entries) with
  | error error => simp
  | ok choices => simp

/-- Where the configuration consists of layers it is accepted exactly if for each setting the
value that decides about it, if there is one, can be converted. Each setting is then what its
option gives, or else what this value stands for, or else what holds by default. Nothing but
these values and the options decides, not even about the description of an error; in
particular the order of the variables does not. -/
theorem settings_of_layers {surroundings : Surroundings} {arguments : Arguments}
    {entries : Branches} (layers : HasLayers surroundings arguments.config entries) :
    let result := settings surroundings arguments
    let value? (setting : Setting) := effective? setting (fullEnvironment surroundings) entries
    ((∃ loaded, result = .ok loaded) ↔
      ∀ setting, ∀ value ∈ value? setting, (setting.convert? value).isSome) ∧
    (∀ loaded, result = .ok loaded → ∀ setting,
      loaded.get setting = (arguments.given? setting).getD
        (((value? setting).bind setting.convert?).getD (Settings.default.get setting))) ∧
    (∀ (others : Surroundings) (otherArguments : Arguments) (otherEntries : Branches),
      HasLayers others otherArguments.config otherEntries →
      (∀ setting, effective? setting (fullEnvironment others) otherEntries = value? setting) →
      otherArguments.host = arguments.host → otherArguments.port = arguments.port →
      settings others otherArguments = result) ∧
    ∀ others : Surroundings, others.directory = surroundings.directory →
      (fullEnvironment surroundings).Perm (fullEnvironment others) →
      settings others arguments = result := by
  intro result value?
  have determined (others : Surroundings) (otherArguments : Arguments) (otherEntries : Branches)
      (otherLayers : HasLayers others otherArguments.config otherEntries)
      (sameValues : ∀ setting,
        effective? setting (fullEnvironment others) otherEntries = value? setting)
      (sameHost : otherArguments.host = arguments.host)
      (samePort : otherArguments.port = arguments.port) :
      settings others otherArguments = result := by
    have sameOptions : otherArguments.onto = arguments.onto := by
      funext settings
      rw [Arguments.onto, Arguments.onto, sameHost, samePort]
    rw [settings_eq otherLayers, sameOptions]
    simp only [sameValues]
    exact (settings_eq layers).symm
  refine ⟨?_, ?_, determined, ?_⟩
  · have readable (setting : Setting) :
        (∃ converted, setting.readEffective (value? setting) = .ok converted) ↔
          ∀ value ∈ value? setting, (setting.convert? value).isSome :=
      Setting.exists_readEffective_iff (isNothing_of_effective? setting _ entries)
    rw [← forall_congr' readable, ← Choices.exists_gather_iff]
    constructor
    · rintro ⟨loaded, isLoaded⟩
      rcases (settings_eq_ok_iff layers).mp isLoaded with ⟨choices, gathered, _⟩
      exact ⟨choices, gathered⟩
    · rintro ⟨choices, gathered⟩
      exact ⟨_, (settings_eq_ok_iff layers).mpr ⟨choices, gathered, rfl⟩⟩
  · intro loaded isLoaded setting
    rcases (settings_eq_ok_iff layers).mp isLoaded with ⟨choices, gathered, rfl⟩
    have chosen := Setting.readEffective_eq_ok (Choices.gather_eq_ok_iff.mp gathered setting)
    rw [Arguments.get_onto, Settings.get_orElse, chosen]
  · intro others sameDirectory sameVariables
    have otherLayers : HasLayers others arguments.config entries :=
      ⟨sameDirectory ▸ layers.read, layers.plain, layers.sections,
        layers.names.of_perm sameVariables⟩
    refine determined others arguments entries otherLayers (fun setting => ?_) rfl rfl
    have sameText := layers.names.text?_of_perm sameVariables setting
    change effective? _ _ _ = effective? _ _ _
    rw [effective?, effective?, sameText]

/-- A file whose port is no number does no harm if a variable names one, and an option comes
over both. -/
theorem settings_of_layers_overridden :
    let text := "[server]\nhost = \"0.0.0.0\"\nport = \"never\"\n" ++
      "[relay]\nping_timeout_secs = 15\ncolour = 1\n"
    let directory : Directory := ⟨".", [("relay.toml", text.toUTF8.toList)]⟩
    let environment :=
      [("PATH", "/bin"), ("wsrelay_Server__PORT", "8080"),
        ("WSRELAY_RELAY__PING_INTERVAL_SECS", "yes")]
    let surroundings : Surroundings := ⟨.isolated, directory, environment, []⟩
    let arguments : Arguments := ⟨none, some 80, some "relay.toml", false⟩
    let origin := some "relay.toml"
    let entries : Branches := .ofList
      [("server", .table origin (.ofList
          [("host", .scalar origin (.string "0.0.0.0")),
            ("port", .scalar origin (.string "never"))])),
        ("relay", .table origin (.ofList
          [("ping_timeout_secs", .scalar origin (.integer 15)),
            ("colour", .scalar origin (.integer 1))]))]
    let loaded : Settings := ⟨"0.0.0.0", 80, 30, 1, 15, "info"⟩
    HasLayers surroundings arguments.config entries ∧
      settings surroundings arguments = .ok loaded ∧
      ∀ setting, loaded.get setting = (arguments.given? setting).getD
        (((effective? setting environment entries).bind setting.convert?).getD
          (Settings.default.get setting)) := by
  intro text directory environment surroundings arguments origin entries loaded
  have isEnvironment : fullEnvironment surroundings = environment := by decide +kernel
  have names : Environment.NamesSettings (fullEnvironment surroundings) := by
    rw [isEnvironment]
    refine ⟨fun binding member isOwn => ?_, by decide +kernel⟩
    simp only [environment, List.mem_cons, List.not_mem_nil, or_false] at member
    rcases member with rfl | rfl | rfl
    · exact absurd isOwn (by decide +kernel)
    · exact ⟨.port, by decide +kernel⟩
    · exact ⟨.pingInterval, by decide +kernel⟩
  have sections : entries.HasSections := by
    intro part
    cases part with
    | server | relay => exact .inr ⟨_, _, rfl⟩
    | log => exact .inl rfl
  have layers : HasLayers surroundings arguments.config entries :=
    ⟨by decide +kernel, by decide +kernel, sections, names⟩
  have isLoaded : settings surroundings arguments = .ok loaded := by decide +kernel
  have decided := (settings_of_layers layers).2.1 loaded isLoaded
  rw [isEnvironment] at decided
  exact ⟨layers, isLoaded, decided⟩

end Program

end Relay
