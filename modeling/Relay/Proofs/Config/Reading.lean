import Mathlib.Tactic.Choose
import Relay.Arguments
import Relay.Config.Reading

namespace Relay

/-! Reading settings, seen from one setting at a time. Where the parts of a configuration are
tables, what is read for a setting depends on the value of its own key only, and reading
succeeds exactly if every setting can be read. -/

namespace Config

inductive Setting where
  | host
  | port
  | heartbeatInterval
  | pingInterval
  | pingTimeout
  | logLevel
  deriving DecidableEq, Repr

namespace Setting

def part : Setting → Section
  | .host | .port => .server
  | .heartbeatInterval | .pingInterval | .pingTimeout => .relay
  | .logLevel => .log

def key : Setting → String
  | .host => "host"
  | .port => "port"
  | .heartbeatInterval => "heartbeat_interval_secs"
  | .pingInterval => "ping_interval_secs"
  | .pingTimeout => "ping_timeout_secs"
  | .logLevel => "level"

def place (setting : Setting) : List Tree.Step := [.key setting.part.name, .key setting.key]

theorem key_inj {first second : Setting} : first.key = second.key ↔ first = second := by
  constructor
  · cases first <;> cases second <;> decide
  · exact congrArg key

theorem place_inj {first second : Setting} : first.place = second.place ↔ first = second := by
  constructor
  · intro same
    injection same with _ keys
    injection keys with sameKey _
    injection sameKey with sameName
    exact key_inj.mp sameName
  · exact congrArg place

def Value : Setting → Type
  | .host | .logLevel => String
  | .port => UInt16
  | .heartbeatInterval | .pingInterval | .pingTimeout => UInt64

/-- Converts a value to the type of the setting. There is no result for nothing. -/
def read (setting : Setting) (value : Tree) : Except ReadingError (Option setting.Value) :=
  let entry : Entry := ⟨.key setting.part.name setting.key, value⟩
  match setting with
  | .host | .logLevel => entry.string?
  | .port => entry.port?
  | .heartbeatInterval | .pingInterval | .pingTimeout => entry.natural?

def convert? (setting : Setting) (value : Tree) : Option setting.Value :=
  match setting.read value with
  | .ok converted => converted
  | .error _ => none

end Setting

def Choices.get (choices : Choices) : (setting : Setting) → Option setting.Value
  | .host => choices.host
  | .port => choices.port
  | .heartbeatInterval => choices.heartbeatInterval
  | .pingInterval => choices.pingInterval
  | .pingTimeout => choices.pingTimeout
  | .logLevel => choices.logLevel

end Config

namespace Settings

open Config (Setting Choices)

def get (settings : Settings) : (setting : Setting) → setting.Value
  | .host => settings.host
  | .port => settings.port
  | .heartbeatInterval => settings.heartbeatInterval
  | .pingInterval => settings.pingInterval
  | .pingTimeout => settings.pingTimeout
  | .logLevel => settings.logLevel

theorem get_orElse (choices : Choices) (settings : Settings) (setting : Setting) :
    (choices.orElse settings).get setting =
      (choices.get setting).getD (settings.get setting) := by
  cases setting <;> rfl

end Settings

namespace Arguments

def given? (arguments : Arguments) : (setting : Config.Setting) → Option setting.Value
  | .host => arguments.host
  | .port => arguments.port
  | .heartbeatInterval | .pingInterval | .pingTimeout | .logLevel => none

theorem get_onto (arguments : Arguments) (settings : Settings) (setting : Config.Setting) :
    (arguments.onto settings).get setting =
      (arguments.given? setting).getD (settings.get setting) := by
  cases setting <;> rfl

end Arguments

namespace Config

/-! ## Conversions -/

def Tree.isNothing : Tree → Bool
  | .scalar _ .nothing => true
  | _ => false

namespace Setting

theorem read_of_isNothing {value : Tree} (isNothing : value.isNothing = true)
    (setting : Setting) : setting.read value = .ok none := by
  cases value with
  | table origin entries => cases isNothing
  | array origin elements => cases isNothing
  | scalar origin value =>
      cases value with
      | nothing => cases setting <;> rfl
      | _ => cases isNothing

end Setting

namespace Entry

theorem isNothing_of_string? {entry : Entry} (open? : entry.string? = .ok none) :
    entry.value.isNothing = true := by
  unfold string? at open?
  split at open?
  · rename_i origin isNothing
    rw [isNothing]
    rfl
  all_goals cases open?

theorem isNothing_of_natural? {entry : Entry} (open? : entry.natural? = .ok none) :
    entry.value.isNothing = true := by
  unfold natural? at open?
  split at open?
  · rename_i origin isNothing
    rw [isNothing]
    rfl
  · cases open?
  · split at open?
    all_goals cases open?
  · cases open?
  · split at open?
    all_goals cases open?
  · cases open?

theorem isNothing_of_port? {entry : Entry} (open? : entry.port? = .ok none) :
    entry.value.isNothing = true := by
  apply isNothing_of_natural?
  unfold port? at open?
  cases isRead : entry.natural? with
  | error error =>
      rw [isRead] at open?
      cases open?
  | ok value? =>
      rw [isRead] at open?
      cases value? with
      | none => rfl
      | some value =>
          simp only [Except.bind] at open?
          split at open?
          all_goals cases open?

end Entry

theorem Setting.isNothing_of_read {setting : Setting} {value : Tree}
    (open? : setting.read value = .ok none) : value.isNothing = true := by
  cases setting with
  | host | logLevel => exact Entry.isNothing_of_string? open?
  | port => exact Entry.isNothing_of_port? open?
  | heartbeatInterval | pingInterval | pingTimeout => exact Entry.isNothing_of_natural? open?

/-! ## All settings -/

namespace Choices

variable {read : (setting : Setting) → Except ReadingError (Option setting.Value)}

def gather (read : (setting : Setting) → Except ReadingError (Option setting.Value)) :
    Except ReadingError Choices := do
  let host ← read .host
  let port ← read .port
  let heartbeatInterval ← read .heartbeatInterval
  let pingInterval ← read .pingInterval
  let pingTimeout ← read .pingTimeout
  let logLevel ← read .logLevel
  .ok ⟨host, port, heartbeatInterval, pingInterval, pingTimeout, logLevel⟩

theorem exists_of_bind {α β : Type} {first : Except ReadingError α}
    {next : α → Except ReadingError β} {result : β} (succeeds : first >>= next = .ok result) :
    ∃ value, first = .ok value ∧ next value = .ok result := by
  cases first with
  | error error => cases succeeds
  | ok value => exact ⟨value, rfl, succeeds⟩

theorem gather_eq_ok_iff {choices : Choices} :
    gather read = .ok choices ↔ ∀ setting, read setting = .ok (choices.get setting) := by
  constructor
  · intro gathered
    rcases exists_of_bind gathered with ⟨host, isHost, gathered⟩
    rcases exists_of_bind gathered with ⟨port, isPort, gathered⟩
    rcases exists_of_bind gathered with ⟨heartbeatInterval, isHeartbeatInterval, gathered⟩
    rcases exists_of_bind gathered with ⟨pingInterval, isPingInterval, gathered⟩
    rcases exists_of_bind gathered with ⟨pingTimeout, isPingTimeout, gathered⟩
    rcases exists_of_bind gathered with ⟨logLevel, isLogLevel, gathered⟩
    cases gathered
    intro setting
    cases setting <;> assumption
  · intro all
    rw [gather, all .host, all .port, all .heartbeatInterval, all .pingInterval,
      all .pingTimeout, all .logLevel]
    rfl

theorem exists_gather_iff :
    (∃ choices, gather read = .ok choices) ↔ ∀ setting, ∃ value, read setting = .ok value := by
  constructor
  · rintro ⟨choices, gathered⟩ setting
    exact ⟨_, gather_eq_ok_iff.mp gathered setting⟩
  · intro all
    choose value isRead using all
    refine ⟨⟨value .host, value .port, value .heartbeatInterval, value .pingInterval,
      value .pingTimeout, value .logLevel⟩, gather_eq_ok_iff.mpr fun setting => ?_⟩
    rw [isRead]
    cases setting <;> rfl

end Choices

/-! ## Sections -/

def Branches.valueOf? (setting : Setting) (entries : Branches) : Option Tree :=
  (entries.get? setting.part.name).bind fun inner => inner.entries.get? setting.key

def Tree.valueOf (setting : Setting) (root : Tree) : Tree :=
  (root.entries.valueOf? setting).getD .nothing

def Branches.HasSections (entries : Branches) : Prop :=
  ∀ part : Section, entries.get? part.name = none ∨
    ∃ origin inner, entries.get? part.name = some (.table origin inner)

theorem Section.exists_contents {root : Tree} (sections : root.entries.HasSections)
    (part : Section) :
    ∃ contents, part.contents root = .ok contents ∧
      ∀ (setting : Setting) (index : Nat), setting.part = part →
        part.keys.getD index "" = setting.key →
        part.entry index contents = .ok ⟨.key part.name setting.key, root.valueOf setting⟩ := by
  rcases sections part with missing | ⟨origin, inner, found⟩
  · refine ⟨.missing, by rw [contents, missing], ?_⟩
    rintro setting index rfl sameKey
    rw [entry, sameKey, Tree.valueOf, Branches.valueOf?, missing]
    rfl
  · refine ⟨.byName inner, by rw [contents, found], ?_⟩
    rintro setting index rfl sameKey
    rw [entry, sameKey, Tree.valueOf, Branches.valueOf?, found]
    rfl

/-- Each setting is read from the value under its own key. -/
theorem Choices.ofTree_eq_gather {root : Tree} (sections : root.entries.HasSections) :
    Choices.ofTree root = gather fun setting => setting.read (root.valueOf setting) := by
  rcases Section.exists_contents sections .server with ⟨server, isServer, server?⟩
  rcases Section.exists_contents sections .relay with ⟨relay, isRelay, relay?⟩
  rcases Section.exists_contents sections .log with ⟨log, isLog, log?⟩
  rw [ofTree, isServer, isRelay, isLog]
  simp only [bind, Except.bind]
  rw [server? .host 0 rfl rfl, server? .port 1 rfl rfl, relay? .heartbeatInterval 0 rfl rfl,
    relay? .pingInterval 1 rfl rfl, relay? .pingTimeout 2 rfl rfl, log? .logLevel 0 rfl rfl]
  rfl

end Config

end Relay
