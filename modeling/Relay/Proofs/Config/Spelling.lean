import Relay.Proofs.Config.Layers
import Relay.Proofs.Double.Extended

namespace Relay.Config

/-! The settings that are texts, as variables give them. What looks like a truth value or a
number is taken for one before it is known that a text is wanted, and is written again as a
text. So a text is kept exactly if it looks like neither, or is the one text in which a truth
value or a number is written. -/

open ExtendedDouble (IsReal)

/-! ## What texts look like -/

def IsWord (text : String) (value : Bool) : Prop :=
  Text.lower text.toList = (toString value).toList

def IsInteger (text : String) (value : Int) : Prop :=
  Text.IsSigned text.toList value ∧ -0x8000000000000000 ≤ value ∧ value < 0x8000000000000000

def IsFloating (text : String) (number : ExtendedDouble) : Prop :=
  IsReal text.toList number ∧ ∀ value, ¬IsInteger text value

def IsGuessed (text : String) : Prop :=
  (∃ value, IsWord text value) ∨ ∃ number, IsReal text.toList number

/-- What a text becomes: a truth value and a number are written in their own way. -/
inductive Respells (text : String) : String → Prop
  | word {value : Bool} (isWord : IsWord text value) : Respells text (toString value)
  | integer {value : Int} (isInteger : IsInteger text value) : Respells text (toString value)
  | real {number : ExtendedDouble} (isFloating : IsFloating text number) :
      Respells text number.render
  | kept (notGuessed : ¬IsGuessed text) : Respells text text

/-- The texts in which truth values and numbers are written. The lower one of the two zeros is
not written as it is read. -/
def IsCanonical (text : String) : Prop :=
  (∃ value : Bool, text = toString value) ∨
    (∃ value : Int, -0x8000000000000000 ≤ value ∧ value < 0x8000000000000000 ∧
      text = toString value) ∨
    ∃ number : ExtendedDouble, text = number.render ∧ text ≠ "-0"

/-! ## Guessing -/

theorem integer?_eq_some_iff {text : String} {value : Int} :
    Environment.integer? text.toList = some value ↔ IsInteger text value := by
  have same : Environment.integer? text.toList =
      (Text.readSigned? text.toList).filter fun value =>
        -0x8000000000000000 ≤ value ∧ value < 0x8000000000000000 := by
    rw [Environment.integer?, Text.readSigned?]
    rcases Text.readSign text.toList with ⟨negative, unsigned⟩
    dsimp only
    rcases Text.readDigits unsigned with _ | ⟨digits, _ | ⟨character, rest⟩⟩
    · rfl
    · simp only [Option.filter_some, decide_eq_true_eq]
      rfl
    · rfl
  rw [same, Option.filter_eq_some_iff, Text.readSigned?_eq_some_iff, decide_eq_true_eq]
  rfl

theorem IsInteger.exists_isReal {text : String} {value : Int} (isInteger : IsInteger text value) :
    ∃ number, IsReal text.toList number :=
  ExtendedDouble.exists_isReal_of_isSigned isInteger.1

theorem not_isWord_of_isReal {text : String} {number : ExtendedDouble}
    (isReal : IsReal text.toList number) (value : Bool) : ¬IsWord text value := by
  cases value with
  | true => exact isReal.lower_ne (.inl rfl)
  | false => exact isReal.lower_ne (.inr rfl)

section Guess

open Environment (scalarOf)

variable {text : String}

theorem scalarOf_of_isWord {value : Bool} (isWord : IsWord text value) :
    scalarOf text = .boolean value := by
  rw [scalarOf, isWord, String.ofList_toList]
  cases value <;> rfl

theorem scalarOf_of_not_isWord (notWord : ∀ value, ¬IsWord text value) :
    scalarOf text =
      match Environment.integer? text.toList with
      | some value => .integer value
      | none =>
          match ExtendedDouble.parse? text.toList with
          | some value => .real value
          | none => .string text := by
  have isWord (value : Bool) (same : String.ofList (Text.lower text.toList) = toString value) :
      IsWord text value := by
    rw [IsWord, ← same, String.toList_ofList]
  rw [scalarOf]
  split
  · rename_i same
    exact absurd (isWord true same) (notWord true)
  · rename_i same
    exact absurd (isWord false same) (notWord false)
  · rfl

theorem scalarOf_of_isInteger {value : Int} (isInteger : IsInteger text value) :
    scalarOf text = .integer value := by
  rcases isInteger.exists_isReal with ⟨number, isReal⟩
  rw [scalarOf_of_not_isWord (not_isWord_of_isReal isReal), integer?_eq_some_iff.mpr isInteger]

theorem integer?_eq_none (noInteger : ∀ value, ¬IsInteger text value) :
    Environment.integer? text.toList = none := by
  rw [Option.eq_none_iff_forall_ne_some]
  intro value isRead
  exact noInteger value (integer?_eq_some_iff.mp isRead)

theorem scalarOf_of_isFloating {number : ExtendedDouble} (isFloating : IsFloating text number) :
    scalarOf text = .real number := by
  rw [scalarOf_of_not_isWord (not_isWord_of_isReal isFloating.1), integer?_eq_none isFloating.2,
    ExtendedDouble.parse?_eq_some_iff.mpr isFloating.1]

theorem scalarOf_of_not_isGuessed (notGuessed : ¬IsGuessed text) :
    scalarOf text = .string text := by
  rw [IsGuessed, not_or, not_exists, not_exists] at notGuessed
  have noInteger (value : Int) : ¬IsInteger text value := by
    intro isInteger
    rcases isInteger.exists_isReal with ⟨number, isReal⟩
    exact notGuessed.2 number isReal
  have noNumber : ExtendedDouble.parse? text.toList = none := by
    rw [Option.eq_none_iff_forall_ne_some]
    intro number isRead
    exact notGuessed.2 number (ExtendedDouble.parse?_eq_some_iff.mp isRead)
  rw [scalarOf_of_not_isWord notGuessed.1, integer?_eq_none noInteger, noNumber]

end Guess

def Scalar.written : Scalar → String
  | .nothing => ""
  | .boolean value => toString value
  | .integer value => toString value
  | .real value => value.render
  | .string value => value

/-- What a text becomes is what it looks like, written again. -/
theorem respells_iff {text loaded : String} :
    Respells text loaded ↔ (Environment.scalarOf text).written = loaded := by
  constructor
  · intro respells
    cases respells with
    | word isWord => rw [scalarOf_of_isWord isWord, Scalar.written]
    | integer isInteger => rw [scalarOf_of_isInteger isInteger, Scalar.written]
    | real isFloating => rw [scalarOf_of_isFloating isFloating, Scalar.written]
    | kept notGuessed => rw [scalarOf_of_not_isGuessed notGuessed, Scalar.written]
  · rintro rfl
    by_cases isGuessed : IsGuessed text
    · by_cases isInteger : ∃ value, IsInteger text value
      · rcases isInteger with ⟨value, isInteger⟩
        rw [scalarOf_of_isInteger isInteger]
        exact .integer isInteger
      · rcases isGuessed with ⟨value, isWord⟩ | ⟨number, isReal⟩
        · rw [scalarOf_of_isWord isWord]
          exact .word isWord
        · have isFloating : IsFloating text number := ⟨isReal, not_exists.mp isInteger⟩
          rw [scalarOf_of_isFloating isFloating]
          exact .real isFloating
    · rw [scalarOf_of_not_isGuessed isGuessed]
      exact .kept isGuessed

theorem Respells.isReal {text loaded : String} (respells : Respells text loaded)
    {number : ExtendedDouble} (isFloating : IsFloating text number) :
    IsReal loaded.toList number := by
  have isWritten := respells_iff.mp respells
  rw [scalarOf_of_isFloating isFloating, Scalar.written] at isWritten
  rw [← isWritten, ExtendedDouble.render, String.toList_ofList]
  exact number.isReal_text

/-! ## Texts that are kept -/

theorem isInteger_minusZero : IsInteger "-0" 0 :=
  ⟨.digits .minus Json.isDigits_zero, by decide, by decide⟩

theorem isCanonical_of_respells {text loaded : String} (respells : Respells text loaded)
    (same : loaded = text) : ¬IsGuessed text ∨ IsCanonical text := by
  cases respells with
  | word isWord => exact .inr (.inl ⟨_, same.symm⟩)
  | integer isInteger =>
      exact .inr (.inr (.inl ⟨_, isInteger.2.1, isInteger.2.2, same.symm⟩))
  | real isFloating =>
      refine .inr (.inr (.inr ⟨_, same.symm, ?_⟩))
      intro isZero
      rw [isZero] at isFloating
      exact isFloating.2 0 isInteger_minusZero
  | kept notGuessed => exact .inl notGuessed

theorem respells_self_of_isCanonical {text : String} (canonical : IsCanonical text) :
    Respells text text := by
  rcases canonical with ⟨value, rfl⟩ | ⟨value, low, high, rfl⟩ | ⟨number, same, notZero⟩
  · refine .word ?_
    cases value <;> rfl
  · exact .integer ⟨ExtendedDouble.isSigned_toString value, low, high⟩
  · have isText : text.toList = number.text := by
      rw [same, ExtendedDouble.render, String.toList_ofList]
    -- The text of a number may be taken for an integer, which is then written in the same way.
    by_cases isInteger : ∃ value, IsInteger text value
    · rcases isInteger with ⟨value, isInteger⟩
      have isSigned := isInteger.1
      rw [isText] at isSigned
      rcases ExtendedDouble.text_of_isSigned isSigned with isWritten | isZero
      · rw [← isText, String.toList_inj] at isWritten
        have respells := Respells.integer isInteger
        rwa [← isWritten] at respells
      · rw [← isText] at isZero
        exact absurd (String.toList_inj.mp isZero) notZero
    · have isReal := number.isReal_text
      rw [← isText] at isReal
      have respells := Respells.real ⟨isReal, not_exists.mp isInteger⟩
      rwa [← same] at respells

/-- A text becomes itself exactly if it looks like a text, or is written as what it looks like
is. -/
theorem Respells.eq_iff {text loaded : String} (respells : Respells text loaded) :
    loaded = text ↔ ¬IsGuessed text ∨ IsCanonical text := by
  constructor
  · exact isCanonical_of_respells respells
  · intro isKept
    have kept : Respells text text := isKept.elim .kept respells_self_of_isCanonical
    rw [respells_iff] at respells kept
    rw [← respells, kept]

/-! ## Loading -/

inductive TextSetting where
  | host
  | logLevel
  deriving DecidableEq, Repr

namespace TextSetting

def setting : TextSetting → Setting
  | .host => .host
  | .logLevel => .logLevel

def valueIn (settings : Settings) : TextSetting → String
  | .host => settings.host
  | .logLevel => settings.logLevel

def ofText : (chosen : TextSetting) → String → chosen.setting.Value
  | .host, text => text
  | .logLevel, text => text

theorem valueIn_of_get {chosen : TextSetting} {settings : Settings} {text : String}
    (isText : settings.get chosen.setting = chosen.ofText text) :
    chosen.valueIn settings = text := by
  cases chosen <;> exact isText

end TextSetting

theorem string?_scalar {scalar : Scalar} (present : scalar ≠ .nothing) (place : Place)
    (origin : Option String) :
    Entry.string? ⟨place, .scalar origin scalar⟩ = .ok (some scalar.written) := by
  cases scalar with
  | nothing => exact absurd rfl present
  | _ => rfl

theorem TextSetting.convert?_scalar {scalar : Scalar} (present : scalar ≠ .nothing)
    (chosen : TextSetting) (origin : Option String) :
    chosen.setting.convert? (.scalar origin scalar) = some (chosen.ofText scalar.written) := by
  have isRead : chosen.setting.read (.scalar origin scalar) =
      .ok (some (chosen.ofText scalar.written)) := by
    cases chosen <;> exact string?_scalar present _ origin
  rw [Setting.convert?, isRead]

section Load

variable {directory : Directory} {path : Option String} {environment : List (String × String)}
  {entries : Branches} (chosen : TextSetting)
  (read : fileEntries? directory path = some entries)
  (plain : ∀ key ∈ entries.keys, Path.IsPlain key) (sections : entries.HasSections)
  (names : Environment.NamesSettings environment)
  (others : ∀ setting, setting ≠ chosen.setting →
    ∀ value ∈ effective? setting environment entries, (setting.convert? value).isSome)
include read plain sections names others

theorem exists_load {origin : Option String} {scalar : Scalar}
    (isEffective : effective? chosen.setting environment entries = some (.scalar origin scalar)) :
    ∃ loaded, load directory path environment = .ok loaded ∧
      chosen.valueIn loaded = scalar.written := by
  have present : scalar ≠ .nothing := by
    rintro rfl
    cases isNothing_of_effective? chosen.setting environment entries _ isEffective
  have isConverted := chosen.convert?_scalar present origin
  have readable (setting : Setting) : ∃ converted,
      setting.readEffective (effective? setting environment entries) = .ok converted := by
    apply (Setting.exists_readEffective_iff (isNothing_of_effective? setting _ entries)).mpr
    by_cases isChosen : setting = chosen.setting
    · rw [isChosen, isEffective]
      rintro value ⟨⟩
      rw [isConverted]
      rfl
    · exact others setting isChosen
  rcases Choices.exists_gather_iff.mpr readable with ⟨choices, gathered⟩
  have isRead := Setting.readEffective_eq_ok (Choices.gather_eq_ok_iff.mp gathered chosen.setting)
  rw [isEffective, Option.bind_some, isConverted] at isRead
  refine ⟨choices.orElse Settings.default, ?_, TextSetting.valueIn_of_get ?_⟩
  · rw [load, fileLayer_of_fileEntries? read]
    dsimp only
    rw [layered_eq (isDistinct_of_fileEntries? read) plain sections names, gathered]
    rfl
  · rw [Settings.get_orElse, isRead, Option.getD_some]

/-- A text that a file gives is kept, whatever it looks like. -/
theorem load_keeps_text {origin : Option String} {text : String}
    (open? : Environment.text? chosen.setting environment = none)
    (said : entries.valueOf? chosen.setting = some (.scalar origin (.string text))) :
    ∃ loaded, load directory path environment = .ok loaded ∧ chosen.valueIn loaded = text := by
  have isEffective : effective? chosen.setting environment entries =
      some (.scalar origin (.string text)) := by
    rw [effective?, open?, said]
    rfl
  exact exists_load chosen read plain sections names others isEffective

/-- The text of a variable is always loaded, as what it becomes. A number stays the same one.
The text itself is not kept in general: it is kept exactly if it looks like neither a truth
value nor a number, or is written as what it looks like is. -/
theorem load_respells {text : String}
    (given : Environment.text? chosen.setting environment = some text) :
    ∃ loaded, load directory path environment = .ok loaded ∧
      Respells text (chosen.valueIn loaded) ∧
      (∀ number, IsFloating text number → IsReal (chosen.valueIn loaded).toList number) ∧
      (chosen.valueIn loaded = text ↔ ¬IsGuessed text ∨ IsCanonical text) := by
  have isEffective : effective? chosen.setting environment entries =
      some (.scalar (some Environment.origin) (Environment.scalarOf text)) := by
    rw [effective?, given]
  rcases exists_load chosen read plain sections names others isEffective
    with ⟨loaded, isLoaded, isWritten⟩
  have respells := respells_iff.mpr isWritten.symm
  exact ⟨loaded, isLoaded, respells, fun _ => respells.isReal, respells.eq_iff⟩

end Load

/-- A level of a variable comes over that of a file and is kept. A host of the file is kept
although it looks like a number. -/
theorem load_respells_level :
    let text := "[server]\nhost = \"1.10\"\n[log]\nlevel = \"warn\"\n"
    let directory : Directory := ⟨".", [("relay.toml", text.toUTF8.toList)]⟩
    let environment := [("PATH", "/bin"), ("WSRELAY_LOG__LEVEL", "debug")]
    let origin := some "relay.toml"
    let entries : Branches := .ofList
      [("server", .table origin (.ofList [("host", .scalar origin (.string "1.10"))])),
        ("log", .table origin (.ofList [("level", .scalar origin (.string "warn"))]))]
    let loaded : Settings := ⟨"1.10", 3004, 30, 20, 10, "debug"⟩
    fileEntries? directory (some "relay.toml") = some entries ∧
      (∀ key ∈ entries.keys, Path.IsPlain key) ∧ entries.HasSections ∧
      Environment.NamesSettings environment ∧
      (∀ setting, setting ≠ .logLevel →
        ∀ value ∈ effective? setting environment entries, (setting.convert? value).isSome) ∧
      Environment.text? .logLevel environment = some "debug" ∧
      load directory (some "relay.toml") environment = .ok loaded ∧
      Respells "debug" loaded.logLevel ∧
      (∀ number, IsFloating "debug" number → IsReal loaded.logLevel.toList number) ∧
      (loaded.logLevel = "debug" ↔ ¬IsGuessed "debug" ∨ IsCanonical "debug") := by
  intro text directory environment origin entries loaded
  have read : fileEntries? directory (some "relay.toml") = some entries := by decide +kernel
  have plain : ∀ key ∈ entries.keys, Path.IsPlain key := by decide +kernel
  have sections : entries.HasSections := by
    intro part
    cases part with
    | server | log => exact .inr ⟨_, _, rfl⟩
    | relay => exact .inl rfl
  have names : Environment.NamesSettings environment := by
    refine ⟨fun binding member isOwn => ?_, by decide +kernel⟩
    simp only [environment, List.mem_cons, List.not_mem_nil, or_false] at member
    rcases member with rfl | rfl
    · exact absurd isOwn (by decide +kernel)
    · exact ⟨.logLevel, by decide +kernel⟩
  have others : ∀ setting, setting ≠ .logLevel →
      ∀ value ∈ effective? setting environment entries, (setting.convert? value).isSome := by
    intro setting isOther
    cases setting with
    | logLevel => exact absurd rfl isOther
    | _ => decide +kernel
  have given : Environment.text? .logLevel environment = some "debug" := by decide +kernel
  have isLoaded : load directory (some "relay.toml") environment = .ok loaded := by decide +kernel
  rcases load_respells .logLevel read plain sections names others given
    with ⟨other, isOther, result⟩
  rw [isLoaded] at isOther
  cases isOther
  exact ⟨read, plain, sections, names, others, given, isLoaded, result⟩

/-- A zero at the end of a host is lost, so that two hosts are loaded as the same one. -/
theorem load_drops_zero :
    let loadHost (host : String) := load ⟨".", []⟩ none [("WSRELAY_SERVER__HOST", host)]
    let loaded : Settings := { Settings.default with host := "1.1" }
    loadHost "1.10" = .ok loaded ∧ loadHost "1.1" = .ok loaded ∧
      ¬∀ host, ∃ settings, loadHost host = .ok settings ∧ settings.host = host := by
  intro loadHost loaded
  have isLoaded : loadHost "1.10" = .ok loaded := by decide +kernel
  refine ⟨isLoaded, by decide +kernel, fun keeps => ?_⟩
  rcases keeps "1.10" with ⟨settings, isOther, isKept⟩
  rw [isLoaded] at isOther
  cases isOther
  exact absurd isKept (by decide)

end Relay.Config
