import Relay.Config.Tree
import Relay.Settings
import Relay.Text.Quoted
import Relay.Text.Reader

namespace Relay.Config

/-! Settings from a configuration tree. A setting that is missing or nothing is
left open. A value of another type than the setting's is converted if it can be;
the first value in the order of the settings that cannot be is reported. -/

/-! ## Errors -/

inductive Place where
  | key (parent : String) (name : String)
  | position (parent : String) (index : Nat)
  deriving DecidableEq, Repr

def Place.text : Place → String
  | .key parent name => parent ++ "." ++ name
  | .position parent index => parent ++ "[" ++ toString index ++ "]"

inductive Found where
  | nothing
  | boolean (value : Bool)
  | integer (value : Int)
  /-- The natural that a value stands for. -/
  | natural (value : UInt64)
  | real (value : ExtendedDouble)
  | string (value : String)
  | sequence
  | map
  deriving DecidableEq, Repr

def Found.ofTree : Tree → Found
  | .scalar _ .nothing => .nothing
  | .scalar _ (.boolean value) => .boolean value
  | .scalar _ (.integer value) => .integer value
  | .scalar _ (.real value) => .real value
  | .scalar _ (.string value) => .string value
  | .array .. => .sequence
  | .table .. => .map

inductive Expected where
  | string
  | integer
  | natural
  | port
  deriving DecidableEq, Repr

def Expected.text : Expected → String
  | .string => "a string"
  | .integer => "an integer"
  | .natural => "an unsigned 64 bit or less integer"
  | .port => "an unsigned 16 bit integer"

inductive Section where
  | server
  | relay
  | log
  deriving DecidableEq, Repr

namespace Section

def name : Section → String
  | .server => "server"
  | .relay => "relay"
  | .log => "log"

def keys : Section → List String
  | .server => ["host", "port"]
  | .relay => ["heartbeat_interval_secs", "ping_interval_secs", "ping_timeout_secs"]
  | .log => ["level"]

def description : Section → String
  | .server => "struct PartialServerSettings"
  | .relay => "struct PartialRelaySettings"
  | .log => "struct PartialLogSettings"

end Section

inductive ReadingError where
  /-- A setting has a value that cannot be converted. -/
  | setting (found : Found) (expected : Expected) (place : Place) (origin : Option String)
  /-- A section is neither a table nor an array. -/
  | notSection (found : Found) (part : Section)
  /-- A section is an array with too few elements. -/
  | tooShort (length : Nat) (part : Section)
  deriving DecidableEq, Repr

namespace ReadingError

def foundText : Found → String
  | .nothing => "unit value"
  | .boolean value => "boolean `" ++ toString value ++ "`"
  | .integer value => "64-bit integer `" ++ toString value ++ "`"
  | .natural value => "64-bit unsigned integer `" ++ toString value ++ "`"
  | .real value => "floating point `" ++ value.render ++ "`"
  | .string value => "string " ++ Text.quote value
  | .sequence => "sequence"
  | .map => "map"

def sectionText : Found → String
  | .integer value => "integer `" ++ toString value ++ "`"
  | .real value => "floating point `" ++ value.renderWithPoint ++ "`"
  | found => foundText found

def elements (count : Nat) : String :=
  toString count ++ if count = 1 then " element" else " elements"

def message : ReadingError → String
  | .setting found expected place origin =>
      "invalid type: " ++ foundText found ++ ", expected " ++ expected.text ++ " for key `" ++
        place.text ++ "`" ++ ((origin.map fun origin => " in " ++ origin).getD "")
  | .notSection found part =>
      "invalid type: " ++ sectionText found ++ ", expected " ++ part.description ++
        " for key `" ++ part.name ++ "`"
  | .tooShort length part =>
      "invalid length " ++ toString length ++ ", expected " ++ part.description ++ " with " ++
        elements part.keys.length ++ " for key `" ++ part.name ++ "`"

end ReadingError

/-! ## Conversions -/

structure Entry where
  place : Place
  value : Tree
  deriving DecidableEq, Repr

namespace Entry

def refuse {α : Type} (entry : Entry) (expected : Expected) : Except ReadingError α :=
  .error (.setting (.ofTree entry.value) expected entry.place entry.value.origin)

def string? (entry : Entry) : Except ReadingError (Option String) :=
  match entry.value with
  | .scalar _ .nothing => .ok none
  | .scalar _ (.boolean value) => .ok (some (toString value))
  | .scalar _ (.integer value) => .ok (some (toString value))
  | .scalar _ (.real value) => .ok (some value.render)
  | .scalar _ (.string value) => .ok (some value)
  | _ => entry.refuse .string

/-- The natural that a text stands for: a word for on or off, or decimal digits
with an optional plus. -/
def naturalOfText (text : String) : Option UInt64 :=
  match String.ofList (Text.lower text.toList) with
  | "true" | "on" | "yes" => some 1
  | "false" | "off" | "no" => some 0
  | _ =>
      let digits :=
        match text.toList with
        | '+' :: digits => digits
        | digits => digits
      match Text.readDigits digits with
      | some (digits, []) =>
          let value := Text.valueOf 10 digits
          if value < UInt64.size then some (.ofNat value) else none
      | _ => none

example : naturalOfText "Yes" = some 1 ∧ naturalOfText "+80" = some 80 ∧
    naturalOfText "-80" = none := by decide +kernel

def natural? (entry : Entry) : Except ReadingError (Option UInt64) :=
  match entry.value with
  | .scalar _ .nothing => .ok none
  | .scalar _ (.boolean value) => .ok (some (if value then 1 else 0))
  | .scalar _ (.integer value) =>
      if value < 0 then entry.refuse .natural else .ok (some (.ofNat value.toNat))
  | .scalar _ (.real value) => .ok (some value.toCount)
  | .scalar _ (.string value) =>
      match naturalOfText value with
      | some value => .ok (some value)
      | none => entry.refuse .integer
  | _ => entry.refuse .integer

def port? (entry : Entry) : Except ReadingError (Option UInt16) :=
  entry.natural?.bind fun
    | none => .ok none
    | some value =>
        if value.toNat < UInt16.size then .ok (some value.toUInt16)
        else .error (.setting (.natural value) .port entry.place none)

end Entry

/-! ## Sections -/

structure Choices where
  host : Option String
  port : Option UInt16
  heartbeatInterval : Option UInt64
  pingInterval : Option UInt64
  pingTimeout : Option UInt64
  logLevel : Option String
  deriving DecidableEq, Repr

def Choices.orElse (choices : Choices) (settings : Settings) : Settings :=
  { host := choices.host.getD settings.host
    port := choices.port.getD settings.port
    heartbeatInterval := choices.heartbeatInterval.getD settings.heartbeatInterval
    pingInterval := choices.pingInterval.getD settings.pingInterval
    pingTimeout := choices.pingTimeout.getD settings.pingTimeout
    logLevel := choices.logLevel.getD settings.logLevel }

namespace Section

/-- What a section says under its keys: a table by name, an array by position.
Elements beyond the keys are left aside. -/
inductive Contents where
  | missing
  | byName (entries : Branches)
  | byPosition (elements : List Tree)
  deriving DecidableEq, Repr

def contents (part : Section) (root : Tree) : Except ReadingError Contents :=
  match root.entries.get? part.name with
  | none => .ok .missing
  | some (.scalar _ .nothing) => .ok .missing
  | some (.table _ entries) => .ok (.byName entries)
  | some (.array _ elements) => .ok (.byPosition elements.toList)
  | some value => .error (.notSection (.ofTree value) part)

def entry (part : Section) (index : Nat) (contents : Contents) :
    Except ReadingError Entry :=
  let key := part.keys.getD index ""
  match contents with
  | .missing => .ok ⟨.key part.name key, .nothing⟩
  | .byName entries => .ok ⟨.key part.name key, (entries.get? key).getD .nothing⟩
  | .byPosition elements =>
      match elements[index]? with
      | some value => .ok ⟨.position part.name index, value⟩
      | none => .error (.tooShort elements.length part)

end Section

def Choices.ofTree (root : Tree) : Except ReadingError Choices := do
  let server ← Section.server.contents root
  let host ← (← Section.server.entry 0 server).string?
  let port ← (← Section.server.entry 1 server).port?
  let relay ← Section.relay.contents root
  let heartbeatInterval ← (← Section.relay.entry 0 relay).natural?
  let pingInterval ← (← Section.relay.entry 1 relay).natural?
  let pingTimeout ← (← Section.relay.entry 2 relay).natural?
  let log ← Section.log.contents root
  let logLevel ← (← Section.log.entry 0 log).string?
  .ok ⟨host, port, heartbeatInterval, pingInterval, pingTimeout, logLevel⟩

example :
    let server : Tree := .array none (.ofList [.nothing])
    (Choices.ofTree (.table none (.ofList [("server", server)]))).toOption = none := by
  decide +kernel

end Relay.Config
