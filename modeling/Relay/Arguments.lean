import Relay.Config.Environment
import Relay.Settings

namespace Relay

/-! The command line: options that come over the configuration. An option may be
given once; its value is the next argument, or stands behind a sign of equality
in the same one. -/

structure Arguments where
  host : Option String
  port : Option UInt16
  config : Option String
  debug : Bool
  deriving DecidableEq, Repr

inductive Usage where
  | help
  | invalid
  deriving DecidableEq, Repr

namespace Arguments

def empty : Arguments := ⟨none, none, none, false⟩

inductive Setting where
  | host
  | port
  | config
  deriving DecidableEq, Repr

def Setting.ofName? : String → Option Setting
  | "host" => some .host
  | "port" => some .port
  | "config" => some .config
  | _ => none

def port? (value : String) : Option UInt16 :=
  match Config.Environment.integer? value.toList with
  | some (.ofNat value) => if value < UInt16.size then some (.ofNat value) else none
  | _ => none

/-- Sets an option that was not given before. A path must not be empty. -/
def give (setting : Setting) (value : String) (arguments : Arguments) : Option Arguments :=
  match setting with
  | .host =>
      if arguments.host.isSome then none
      else some { arguments with host := some value }
  | .port =>
      if arguments.port.isSome then none
      else (port? value).map fun port => { arguments with port := some port }
  | .config =>
      if arguments.config.isSome ∨ value = "" then none
      else some { arguments with config := some value }

inductive Word where
  /-- Two hyphens, after which there are no options. -/
  | separator
  /-- Two hyphens and a name, perhaps with a value. -/
  | long (name : String) (value : Option String)
  /-- A hyphen and letters. -/
  | short (letters : List Char)
  | plain
  deriving DecidableEq, Repr

def Word.ofText (text : String) : Word :=
  match text.toList with
  | ['-', '-'] => .separator
  | '-' :: '-' :: rest =>
      let name := String.ofList (rest.takeWhile (· ≠ '='))
      match rest.dropWhile (· ≠ '=') with
      | _ :: value => .long name (some (String.ofList value))
      | [] => .long name none
  | '-' :: letter :: rest => .short (letter :: rest)
  | _ => .plain

def read : List String → Arguments → Except Usage Arguments
  | [], arguments => .ok arguments
  | text :: rest, arguments =>
      match Word.ofText text with
      | .separator => if rest = [] then .ok arguments else .error .invalid
      | .plain => .error .invalid
      | .short letters => .error (if letters.head? = some 'h' then .help else .invalid)
      | .long "help" value => .error (if value.isNone then .help else .invalid)
      | .long "debug" value =>
          if value.isSome ∨ arguments.debug then .error .invalid
          else read rest { arguments with debug := true }
      | .long name value =>
          match Setting.ofName? name, value with
          | none, _ => .error .invalid
          | some setting, some value =>
              match arguments.give setting value with
              | some arguments => read rest arguments
              | none => .error .invalid
          | some setting, none =>
              match rest with
              | [] => .error .invalid
              | value :: rest =>
                  match Word.ofText value, arguments.give setting value with
                  | .plain, some arguments => read rest arguments
                  | _, _ => .error .invalid

def parse (words : List String) : Except Usage Arguments := read words empty

example : (parse ["--host", "-", "--port=+080", "--debug"]).toOption =
      some ⟨some "-", some 80, none, true⟩ ∧
    (parse ["--port", "-1"]).toOption = none ∧
    (parse ["--config="]).toOption = none := by decide +kernel

def onto (arguments : Arguments) (settings : Settings) : Settings :=
  { settings with
    host := arguments.host.getD settings.host
    port := arguments.port.getD settings.port }

end Arguments

end Relay
