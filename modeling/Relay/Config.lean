import Relay.Config.Environment
import Relay.Config.File
import Relay.Config.Reading

namespace Relay

/-! Loading settings: defaults under a file under environment variables. -/

namespace Config

def defaultPath : String := "config/default"

inductive LoadError where
  | file (error : FileError)
  | reading (error : ReadingError)
  deriving DecidableEq, Repr

def LoadError.message? : LoadError → Option String
  | .file error => error.message?
  | .reading error => some error.message

/-- The layer of the file with a path. Without a path there need be no file. -/
def fileLayer (directory : Directory) (path : Option String) : Except FileError Layer :=
  match path with
  | some path => (File.find directory path).bind File.layer
  | none =>
      match File.find directory defaultPath with
      | .ok file => file.layer
      | .error _ => .ok ⟨[]⟩

def layered (fileLayer : Layer) (environment : List (String × String)) :
    Except ReadingError Settings :=
  let tree := (Environment.layer environment).onto (fileLayer.onto (.table none .nil))
  (Choices.ofTree tree).map fun choices => choices.orElse Settings.default

def load (directory : Directory) (path : Option String) (environment : List (String × String)) :
    Except LoadError Settings :=
  match fileLayer directory path with
  | .error error => .error (.file error)
  | .ok layer =>
      match layered layer environment with
      | .error error => .error (.reading error)
      | .ok settings => .ok settings

end Config

end Relay
