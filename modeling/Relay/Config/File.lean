import Relay.Config.Path
import Relay.Json.Parser
import Relay.Toml.Parser
import Relay.Utf8

namespace Relay.Config

/-! ## Directories -/

structure Directory where
  name : String
  files : List (String × List UInt8)
  deriving DecidableEq, Repr

def pathNames (path : String) : List String :=
  (Text.parts '/' path.toList).map String.ofList

/-- The names in a path that lead to another place. A point stands for the same
place. A path that starts with a slash keeps it as a part of its own. -/
def pathParts (path : String) : List String :=
  let parts := (pathNames path).filter fun part => part ≠ "" ∧ part ≠ "."
  if path.toList.head? = some '/' then "/" :: parts else parts

def pathText : List String → String
  | "/" :: parts => "/" ++ "/".intercalate parts
  | parts => "/".intercalate parts

example : pathText (pathParts "./a//b") = "a/b" ∧ pathText (pathParts "/a/") = "/a" := by
  decide +kernel

namespace Directory

def absolute (path : String) (directory : Directory) : String :=
  if path.toList.head? = some '/' then path else directory.name ++ "/" ++ path

def contains (parts : List String) (directory : Directory) : Bool :=
  directory.files.any fun (path, _) =>
    parts.isPrefixOf (pathParts path) && parts.length < (pathParts path).length

/-- Follows two points, which lead out of a directory, as far as the directory
is known. -/
def resolve (directory : Directory) : List String → List String → Option (List String)
  | place, [] => some place
  | place, part :: rest =>
      if part ≠ ".." ∨ place = [] ∨ place.getLast? = some ".." then
        resolve directory (place ++ [part]) rest
      else if directory.contains place then resolve directory place.dropLast rest
      else none

def read? (parts : List String) (directory : Directory) : Option (List UInt8) := do
  let place ← directory.resolve [] parts
  let (_, octets) ← directory.files.find? fun (path, _) => pathParts path = place
  some octets

end Directory

/-! ## Formats -/

/-- Files in other formats that could hold settings, such as YAML, INI, RON and
JSON5, are left out: one that is named by its whole path is of an unknown format
here, and one whose extension would have to be tried is not found. -/
inductive Format where
  | toml
  | json
  deriving DecidableEq, Repr

namespace Format

def extensions : List (String × Format) := [("toml", .toml), ("json", .json)]

/-- What follows the last point of a name. A point in front starts no
extension. -/
def extension? (name : String) : Option String :=
  match (Text.parts '.' name.toList).map String.ofList with
  | [] | [_] | ["", _] => none
  | parts => parts.getLast?

def ofName? (name : String) : Option Format :=
  (extension? name).bind fun extension => (extensions.find? (·.1 = extension)).map (·.2)

example : ofName? "relay.prod.toml" = some .toml ∧ ofName? ".toml" = none ∧
    ofName? "relay.TOML" = none := by decide +kernel

end Format

/-! ## Values -/

/-- An integer that does not fit 64 bits with a sign is taken as a binary
number. -/
def Scalar.ofNumber : Json.Number → Scalar
  | .integer value _ =>
      if value < 0x8000000000000000 then .integer value
      else .real (.ofDecimal false value.toNat 0)
  | .real value => .real (.finite value)

mutual
def Tree.ofJson (origin : String) : Json → Tree
  | .null => .scalar (some origin) .nothing
  | .boolean value => .scalar (some origin) (.boolean value)
  | .number value => .scalar (some origin) (.ofNumber value)
  | .string value => .scalar (some origin) (.string value)
  | .array elements => .array (some origin) (Trees.ofElements origin elements)
  | .object members => .table (some origin) (Branches.ofMembers origin members)

def Trees.ofElements (origin : String) : Elements → Trees
  | .nil => .nil
  | .cons head tail => .cons (Tree.ofJson origin head) (Trees.ofElements origin tail)

def Branches.ofMembers (origin : String) : Members → Branches
  | .nil => .nil
  | .cons key value rest =>
      .cons key (Tree.ofJson origin value) (Branches.ofMembers origin rest)
end

def Scalar.ofToml : Toml.Scalar → Scalar
  | .boolean value => .boolean value
  | .integer value _ => .integer value
  | .real value => .real value
  | .string value => .string value
  | .moment text => .string text

mutual
def Tree.ofToml (origin : String) : Toml.Value → Tree
  | .scalar value => .scalar (some origin) (.ofToml value)
  | .array elements => .array (some origin) (Trees.ofToml origin elements)
  | .tables items => .array (some origin) (Trees.ofToml origin items)
  | .table _ entries => .table (some origin) (Branches.ofToml origin entries)

def Trees.ofToml (origin : String) : List Toml.Value → Trees
  | [] => .nil
  | head :: tail => .cons (Tree.ofToml origin head) (Trees.ofToml origin tail)

def Branches.ofToml (origin : String) : List (String × Toml.Value) → Branches
  | [] => .nil
  | (key, value) :: rest =>
      .cons key (Tree.ofToml origin value) (Branches.ofToml origin rest)
end

def Format.entries? (origin : String) (text : List Char) : Format → Option Branches
  | .toml =>
      match Toml.parse? text with
      | some (.table _ entries) => some (Branches.ofToml origin entries)
      | _ => none
  | .json =>
      match (Json.parse? text).map Json.normalize with
      | some (.object members) => some (Branches.ofMembers origin members)
      | _ => none

def Branches.assignments : Branches → List (List Tree.Step × Tree)
  | .nil => []
  | .cons key value rest => (Path.ofName key, value) :: rest.assignments

/-! ## Files -/

inductive FileError where
  | notFound (path : String)
  | unknownFormat (path : String)
  | malformed (origin : String)
  deriving DecidableEq, Repr

namespace FileError

def message? : FileError → Option String
  | .notFound path => some ("configuration file \"" ++ path ++ "\" not found")
  | .unknownFormat path =>
      some ("configuration file \"" ++ path ++ "\" is not of a supported file format")
  | .malformed _ => none

end FileError

structure File where
  origin : String
  format : Format
  octets : List UInt8
  deriving DecidableEq, Repr

namespace File

def namesFile (path : String) : Bool :=
  match (pathNames path).getLast? with
  | some part => part ≠ "" && part ≠ "."
  | none => false

def withExtension (extension : String) (parts : List String) : List String :=
  match parts.getLast? with
  | some name => parts.dropLast ++ [name ++ "." ++ extension]
  | none => []

def candidates (path : String) : List String :=
  path :: Format.extensions.map fun (extension, _) =>
    pathText (withExtension extension (pathParts path))

def findExtended (directory : Directory) (parts : List String) : Option File :=
  Format.extensions.findSome? fun (extension, format) =>
    let extended := withExtension extension parts
    (directory.read? extended).map fun octets =>
      ⟨pathText extended, format, octets⟩

/-- Looks for the file of a path. A file with exactly this path needs a known
extension; otherwise the extensions are tried. -/
def find (directory : Directory) (path : String) : Except FileError File :=
  let parts := pathParts path
  let exact := if namesFile path then directory.read? parts else none
  match exact with
  | some octets =>
      match Format.ofName? (parts.getLast?.getD "") with
      | some format => .ok ⟨pathText parts, format, octets⟩
      | none => .error (.unknownFormat (directory.absolute path))
  | none =>
      match findExtended directory parts with
      | some file => .ok file
      | none => .error (.notFound path)

def text (file : File) : List Char :=
  match file.octets with
  | 0xef :: 0xbb :: 0xbf :: rest => Utf8.decodeLossy rest
  | octets => Utf8.decodeLossy octets

def layer (file : File) : Except FileError Layer :=
  match file.format.entries? file.origin file.text with
  | some entries => .ok ⟨entries.assignments⟩
  | none => .error (.malformed file.origin)

end File

end Relay.Config
