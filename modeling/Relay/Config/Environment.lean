import Relay.Config.Path

namespace Relay.Config

/-! Settings from environment variables. A variable belongs to the configuration
if its name starts with `WSRELAY_`; what follows names a place, with two
underscores for a point. Capital and small letters are the same in names. The
value is read as a truth value or a number if it looks like one. -/

namespace Environment

def namePrefix : String := "WSRELAY"

def origin : String := "the environment"

/-- The small form of a letter. The Kelvin sign is the only character outside
ASCII whose small form belongs to ASCII; the small forms of all others are of no
account, because a name with them is a key of its own either way. -/
def lowerCharacter (character : Char) : Char :=
  if character = '\u212a' then 'k' else character.toLower

def withPoints : List Char → List Char
  | '_' :: '_' :: rest => '.' :: withPoints rest
  | character :: rest => character :: withPoints rest
  | [] => []

example : withPoints "a___b".toList = "a._b".toList := by decide

def place? (name : String) : Option (List Tree.Step) :=
  let start := (namePrefix.toList ++ ['_']).map lowerCharacter
  (Text.dropWord start (name.toList.map lowerCharacter)).map fun rest =>
    Path.ofName (String.ofList (withPoints rest))

example : place? "WSRelay_SERVER__port" = some [.key "server", .key "port"] ∧
    place? "WSRELAYX" = none := by decide +kernel

def integer? (text : List Char) : Option Int :=
  let (negative, text) := Text.readSign text
  match Text.readDigits text with
  | some (digits, []) =>
      let size : Int := Text.valueOf 10 digits
      let value := if negative then -size else size
      if -0x8000000000000000 ≤ value ∧ value < 0x8000000000000000 then some value else none
  | _ => none

def scalarOf (text : String) : Scalar :=
  match String.ofList (Text.lower text.toList) with
  | "true" => .boolean true
  | "false" => .boolean false
  | _ =>
      match integer? text.toList with
      | some value => .integer value
      | none =>
          match ExtendedDouble.parse? text.toList with
          | some value => .real value
          | none => .string text

example : scalarOf "TRUE" = .boolean true ∧ scalarOf "+080" = .integer 80 ∧
    scalarOf "nan" = .real .notANumber ∧ scalarOf "127.0.0.1" = .string "127.0.0.1" := by
  decide +kernel

/-- The last of several variables whose names differ in the size of letters
only. -/
def latest (assignments : List (List Tree.Step × String)) :
    List (List Tree.Step × String) :=
  assignments.foldr (fun (place, value) kept =>
    if kept.any fun other => other.1 = place then kept else (place, value) :: kept) []

def layer (environment : List (String × String)) : Layer :=
  let places := environment.filterMap fun (name, value) =>
    (place? name).map fun place => (place, value)
  ⟨(latest places).map fun (place, value) =>
    (place, .scalar (some origin) (scalarOf value))⟩

end Environment

end Relay.Config
