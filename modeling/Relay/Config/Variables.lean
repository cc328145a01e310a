import Relay.Text.Blank
import Relay.Utf8

namespace Relay.Config

/-! Files of environment variables: a line `NAME=value` each, with comments,
quotes and escapes. A value may refer to variables that are set, or that an
earlier line defines, by a dollar sign and a name. Reading stops at the first
line that is wrong; the lines before it count. -/

namespace Variables

/-! ## Lines

A line goes on while a quote is open. -/

inductive Position where
  | plain
  /-- After a blank, where a comment may start. -/
  | blank
  | escaped
  | single
  | singleEscaped
  | double
  | doubleEscaped
  | comment
  deriving DecidableEq, Repr

def opening (character : Char) : Position :=
  if character = '\\' then .escaped
  else if character = '"' then .double
  else if character = '\'' then .single
  else .plain

def next (character : Char) : Position → Position
  | .plain =>
      if Text.isBlank character ∧ character ≠ '\n' ∧ character ≠ '\x0d' then .blank
      else opening character
  | .blank => if character = '#' then .comment else opening character
  | .escaped => .plain
  | .single =>
      if character = '\\' then .singleEscaped
      else if character = '\'' then .plain
      else .single
  | .singleEscaped => .single
  | .double =>
      if character = '\\' then .doubleEscaped
      else if character = '"' then .plain
      else .double
  | .doubleEscaped => .double
  | .comment => .comment

def scan : Position → List Char → List Char × Position
  | position, [] => ([], position)
  | position, character :: rest =>
      match next character position with
      | .comment => ([], .comment)
      | following =>
          let (kept, last) := scan following rest
          (character :: kept, last)

def isCommentLine (line : List Char) : Bool := (line.dropWhile Text.isBlank).head? = some '#'

/-- Joins the lines that an open quote connects. `start` holds what was read
before. The last one is left out if its quote is never closed. -/
def joined : List (List Char) → List Char → Position → List (List Char)
  | [], _, _ => []
  | line :: rest, start, position =>
      if isCommentLine (start ++ line) then joined rest [] .plain
      else
        let (kept, last) := scan position line
        if last = .plain ∨ last = .comment then (start ++ kept) :: joined rest [] .plain
        else joined rest (start ++ kept) last

/-! ## Values -/

structure Scope where
  environment : List (String × String)
  defined : List (String × String)
  deriving DecidableEq, Repr

def lookup? (name : String) (bindings : List (String × String)) : Option String :=
  (bindings.find? fun entry => entry.1 = name).map Prod.snd

namespace Scope

def valueOf (name : List Char) (scope : Scope) : List Char :=
  let name := String.ofList name
  (((lookup? name scope.environment).orElse fun _ => lookup? name scope.defined).getD "").toList

def define (name value : String) (scope : Scope) : Scope :=
  { environment :=
      if (lookup? name scope.environment).isSome then scope.environment
      else scope.environment ++ [(name, value)]
    defined := (name, value) :: scope.defined }

end Scope

/-- The part of a value that a character belongs to. The flags say whether
double quotes are open. -/
inductive Part where
  | plain (quoted : Bool)
  | escape (quoted : Bool)
  | single
  /-- A name after a dollar sign. -/
  | name (quoted : Bool) (read : List Char)
  /-- A name in braces. -/
  | braced (quoted : Bool) (read : List Char)
  /-- Nothing but a comment may follow. -/
  | finished
  deriving DecidableEq, Repr

def isNameCharacter (character : Char) : Bool :=
  character.isAlphanum || 0x80 ≤ character.toNat

def escaped? (character : Char) : Option Char :=
  if character = 'n' then some '\n'
  else if ['\\', '\'', '"', '$', ' '].contains character then some character
  else none

/-- The value that is read, from a part of it on. A name without braces is
followed by the next character as it is. -/
def readValue (scope : Scope) : Part → List Char → Option (List Char)
  | .plain quoted, [] => if quoted then none else some []
  | .escape quoted, [] => if quoted then none else some []
  | .single, [] => none
  | .name quoted read, [] => if quoted then none else some (scope.valueOf read.reverse)
  | .braced _ _, [] => none
  | .finished, [] => some []
  | .plain quoted, character :: rest =>
      if character = '$' then readValue scope (.name quoted []) rest
      else if character = '\\' then readValue scope (.escape quoted) rest
      else if character = '"' then readValue scope (.plain (!quoted)) rest
      else if quoted then (readValue scope (.plain true) rest).map (character :: ·)
      else if character = '\'' then readValue scope .single rest
      else if character = ' ' ∨ character = '\t' then readValue scope .finished rest
      else (readValue scope (.plain false) rest).map (character :: ·)
  | .escape quoted, character :: rest =>
      match escaped? character with
      | some value => (readValue scope (.plain quoted) rest).map (value :: ·)
      | none => none
  | .single, character :: rest =>
      if character = '\'' then readValue scope (.plain false) rest
      else (readValue scope .single rest).map (character :: ·)
  | .name quoted read, character :: rest =>
      if isNameCharacter character then readValue scope (.name quoted (character :: read)) rest
      else if character = '\x7b' ∧ read = [] then readValue scope (.braced quoted []) rest
      else
        let value := scope.valueOf read.reverse
        if character = '$' then (readValue scope (.name quoted []) rest).map (value ++ ·)
        else (readValue scope (.plain quoted) rest).map (value ++ character :: ·)
  | .braced quoted read, character :: rest =>
      if character = '\x7d' then
        (readValue scope (.plain quoted) rest).map (scope.valueOf read.reverse ++ ·)
      else readValue scope (.braced quoted (character :: read)) rest
  | .finished, character :: rest =>
      if character = ' ' ∨ character = '\t' then readValue scope .finished rest
      else if character = '#' then some []
      else none

/-! ## Definitions -/

def skipBlanks (text : List Char) : List Char := text.dropWhile Text.isBlank

def readName : List Char → Option (List Char × List Char)
  | [] => none
  | first :: rest =>
      if first.isAlpha ∨ first = '_' then
        let isInside (character : Char) :=
          character.isAlphanum || character = '_' || character = '.'
        some (first :: rest.takeWhile isInside, rest.dropWhile isInside)
      else none

def dropSign (text : List Char) : Option (List Char) :=
  match skipBlanks text with
  | '=' :: rest => some rest
  | _ => none

/-- A name and what follows the sign of equality. The word `export` may stand
before the name. -/
def readAssignment (text : List Char) : Option (List Char × List Char) := do
  let (name, text) ← readName text
  match dropSign text with
  | some rest => some (name, rest)
  | none =>
      if name = "export".toList then
        let (name, text) ← readName (skipBlanks text)
        (dropSign text).map fun rest => (name, rest)
      else none

def readLine (line : List Char) (scope : Scope) : Option Scope :=
  match skipBlanks (Text.trim line) with
  | [] => some scope
  | '#' :: _ => some scope
  | text => do
      let (name, text) ← readAssignment text
      let name := String.ofList name
      match skipBlanks text with
      | [] | '#' :: _ => some (scope.define name "")
      | text =>
          (readValue scope (.plain false) text).map fun value =>
            scope.define name (String.ofList value)

def readLines : List (List Char) → Scope → Scope
  | [], scope => scope
  | line :: rest, scope =>
      match readLine line scope with
      | some scope => readLines rest scope
      | none => scope

/-! ## Files -/

def octetLines : List UInt8 → List (List UInt8)
  | [] => []
  | octet :: rest =>
      if octet = 0x0a then [octet] :: octetLines rest
      else
        match octetLines rest with
        | [] => [[octet]]
        | first :: others => (octet :: first) :: others

def textLines : List (List UInt8) → List (List Char)
  | [] => []
  | line :: rest =>
      match Utf8.decode line with
      | .ok text => text :: textLines rest
      | .error _ => []

def load (octets : List UInt8) (environment : List (String × String)) :
    List (String × String) :=
  let octets := match octets with
    | 0xef :: 0xbb :: 0xbf :: rest => rest
    | octets => octets
  (readLines (joined (textLines (octetLines octets)) [] .plain) ⟨environment, []⟩).environment

example : load "# one\nexport A = 'x y' # two\nB=\"$\x7bA\x7d!\"\nC=1 2\nD=3\n".toUTF8.toList
    [("B", "set")] = [("B", "set"), ("A", "x y")] := by decide +kernel

end Variables

end Relay.Config
