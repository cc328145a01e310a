import Relay.Toml.Scalar

namespace Relay.Toml

/-! Documents of TOML: the tables that the statements of a text build. A table
is defined once. What may be added to it afterwards depends on how it came to
be. -/

inductive Form where
  /-- As the parent of a table with a header. -/
  | implicit
  | header
  /-- As the parent of a key with dots. -/
  | dotted
  /-- In braces. Nothing can be added to it. -/
  | inline
  deriving DecidableEq, Repr

inductive Value where
  | scalar (value : Scalar)
  | array (elements : List Value)
  | table (form : Form) (entries : List (String × Value))
  /-- Tables under headers in double brackets. -/
  | tables (items : List Value)

/-- What a text says, line by line. No list of keys is empty. -/
inductive Statement where
  | entry (keys : List String) (value : Value)
  | header (keys : List String)
  | itemHeader (keys : List String)

namespace Value

def emptyTable (form : Form) : Value := .table form []

def alter (key : String) (change : Option Value → Option Value) :
    List (String × Value) → Option (List (String × Value))
  | [] => (change none).map fun value => [(key, value)]
  | (other, value) :: rest =>
      if other = key then (change (some value)).map fun value => (key, value) :: rest
      else (alter key change rest).map ((other, value) :: ·)

/-- Changes the table at a path and makes the tables on the way that do not
exist. A path with dots does not lead through tables with a header, and no path
leads into tables in braces. Of tables in double brackets the last one is
meant. -/
def descend (byDots : Bool) (change : Value → Option Value) :
    List String → Value → Option Value
  | [], value => change value
  | key :: rest, .table form entries =>
      let step (existing : Option Value) : Option Value :=
        match existing with
        | none => descend byDots change rest (emptyTable (if byDots then .dotted else .implicit))
        | some (.table inner entries) =>
            if inner = .inline ∨ (byDots ∧ inner = .header) then none
            else descend byDots change rest (.table inner entries)
        | some (.tables items) =>
            items.getLast?.bind fun last =>
              (descend byDots change rest last).map fun last =>
                .tables (items.dropLast ++ [last])
        | some _ => none
      (alter key step entries).map (.table form)
  | _ :: _, _ => none

def insertNew (key : String) (value : Value) : Value → Option Value
  | .table form entries =>
      (alter key (fun existing => if existing.isSome then none else some value) entries).map
        (.table form)
  | _ => none

def isDotted : Value → Bool
  | .table .dotted _ => true
  | _ => false

def insertAt (keys : List String) (value : Value) (table : Value) : Option Value :=
  match keys.getLast? with
  | none => none
  | some key =>
      let parents := keys.dropLast
      descend true (fun target =>
        if parents ≠ [] ∧ ¬ target.isDotted then none else insertNew key value target)
        parents table

def openTable (keys : List String) (table : Value) : Option Value :=
  let start (existing : Option Value) : Option Value :=
    match existing with
    | none => some (emptyTable .header)
    | some (.table .implicit entries) => some (.table .header entries)
    | some _ => none
  match keys.getLast? with
  | none => none
  | some key =>
      descend false (fun
        | .table form entries => (alter key start entries).map (.table form)
        | _ => none) keys.dropLast table

def openItem (keys : List String) (table : Value) : Option Value :=
  let start (existing : Option Value) : Option Value :=
    match existing with
    | none => some (.tables [emptyTable .header])
    | some (.tables items) => some (.tables (items ++ [emptyTable .header]))
    | some _ => none
  match keys.getLast? with
  | none => none
  | some key =>
      descend false (fun
        | .table form entries => (alter key start entries).map (.table form)
        | _ => none) keys.dropLast table

def ofEntries (entries : List (List String × Value)) : Option Value :=
  let table? := entries.foldl (fun table? (keys, value) => table?.bind (insertAt keys value))
    (some (emptyTable .header))
  match table? with
  | some (.table _ entries) => some (.table .inline entries)
  | _ => none

end Value

def assemble : List Statement → List String → Value → Option Value
  | [], _, root => some root
  | .entry keys value :: rest, path, root =>
      (Value.descend false (Value.insertAt keys value) path root).bind (assemble rest path)
  | .header keys :: rest, _, root => (Value.openTable keys root).bind (assemble rest keys)
  | .itemHeader keys :: rest, _, root => (Value.openItem keys root).bind (assemble rest keys)

def Value.ofStatements (statements : List Statement) : Option Value :=
  assemble statements [] (.emptyTable .header)

/-- A table is not defined twice. -/
example : (Value.ofStatements [.header ["a"], .header ["b"], .header ["a"]]).isNone ∧
    (Value.ofStatements [.header ["a", "b"], .header ["a"]]).isSome := by
  decide +kernel

end Relay.Toml
