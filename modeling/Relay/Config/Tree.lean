import Relay.Double.Extended

namespace Relay.Config

/-! Configuration trees. Every value remembers where it was read, if that is
known. Layers are put over each other by assigning values at paths: a table is
assigned entry by entry, so that the entries it does not have stay as they
were, and any other value takes the place of what was there. -/

inductive Scalar where
  /-- The value of a place that nothing was assigned to. -/
  | nothing
  | boolean (value : Bool)
  | integer (value : Int)
  | real (value : ExtendedDouble)
  | string (value : String)
  deriving DecidableEq, Repr

mutual
inductive Tree where
  | scalar (origin : Option String) (value : Scalar)
  | array (origin : Option String) (elements : Trees)
  | table (origin : Option String) (entries : Branches)

inductive Trees where
  | nil
  | cons (head : Tree) (tail : Trees)

inductive Branches where
  | nil
  | cons (key : String) (value : Tree) (rest : Branches)
end

deriving instance DecidableEq for Tree, Trees, Branches
deriving instance Repr for Tree, Trees, Branches

def Tree.nothing : Tree := .scalar none .nothing

def Tree.origin : Tree → Option String
  | .scalar origin _ | .array origin _ | .table origin _ => origin

namespace Trees

def ofList : List Tree → Trees
  | [] => .nil
  | head :: tail => .cons head (ofList tail)

def toList : Trees → List Tree
  | .nil => []
  | .cons head tail => head :: tail.toList

end Trees

namespace Branches

def ofList : List (String × Tree) → Branches
  | [] => .nil
  | (key, value) :: rest => .cons key value (ofList rest)

def get? (key : String) : Branches → Option Tree
  | .nil => none
  | .cons other value rest => if other = key then some value else rest.get? key

def modify (key : String) (change : Tree → Tree) : Branches → Branches
  | .nil => .cons key (change .nothing) .nil
  | .cons other value rest =>
      if other = key then .cons other (change value) rest
      else .cons other value (rest.modify key change)

@[simp] theorem get?_modify_self (key : String) (change : Tree → Tree) :
    (branches : Branches) → (branches.modify key change).get? key =
      some (change ((branches.get? key).getD .nothing))
  | .nil => by simp [modify, get?]
  | .cons other value rest => by
      by_cases same : other = key
      · simp [modify, get?, same]
      · simp [modify, get?, same, get?_modify_self key change rest]

@[simp] theorem get?_modify_other {key other : String} (different : other ≠ key)
    (change : Tree → Tree) :
    (branches : Branches) → (branches.modify key change).get? other = branches.get? other
  | .nil => by simp [modify, get?, different.symm]
  | .cons first value rest => by
      by_cases same : first = key
      · simp [modify, get?, same, different.symm]
      · simp [modify, get?, same, get?_modify_other different change rest]

end Branches

namespace Tree

/-! ## Places -/

/-- A step from a value to one inside it. A negative index counts from the end
of an array. -/
inductive Step where
  | key (name : String)
  | index (position : Int)
  deriving DecidableEq, Repr

def entries : Tree → Branches
  | .table _ entries => entries
  | _ => .nil

def asTable : Tree → Tree
  | .table origin entries => .table origin entries
  | _ => .table none .nil

/-- Changes the value of a key. What is no table gives way to one. -/
def modifyKey (key : String) (change : Tree → Tree) (tree : Tree) : Tree :=
  match tree.asTable with
  | .table origin entries => .table origin (entries.modify key change)
  | other => other

/-- Changes the element at an index. Elements that are missing before it are
filled in. -/
def modifyElement (position : Int) (change : Tree → Tree) (elements : List Tree) :
    List Tree :=
  match position with
  | .ofNat index =>
      (elements ++ List.replicate (index + 1 - elements.length) nothing).modify index change
  | .negSucc back =>
      if back < elements.length then elements.modify (elements.length - (back + 1)) change
      else
        (List.replicate (back + 1 - elements.length) nothing ++ elements).modify 0 change

def modifyIndex (position : Int) (change : Tree → Tree) (tree : Tree) : Tree :=
  let (origin, elements) :=
    match tree with
    | .array origin elements => (origin, elements.toList)
    | _ => (none, [])
  .array origin (.ofList (modifyElement position change elements))

def modifyAt (change : Tree → Tree) : List Step → Tree → Tree
  | [], tree => change tree
  | .key name :: rest, tree => tree.modifyKey name (modifyAt change rest)
  | .index position :: rest, tree => tree.modifyIndex position (modifyAt change rest)

end Tree

/-! ## Assignment -/

mutual
def Tree.assign : Tree → Tree → Tree
  | .table _ entries, old => entries.assignInto old.asTable
  | .scalar origin value, _ => .scalar origin value
  | .array origin elements, _ => .array origin elements

def Branches.assignInto : Branches → Tree → Tree
  | .nil, table => table
  | .cons key value rest, table =>
      rest.assignInto (table.modifyKey key fun old => value.assign old)
end

structure Layer where
  assignments : List (List Tree.Step × Tree)
  deriving DecidableEq, Repr

def Layer.onto (layer : Layer) (tree : Tree) : Tree :=
  layer.assignments.foldl (fun tree (place, value) => tree.modifyAt value.assign place) tree

/-- A value takes the place of a table; a key inside a value makes it a table
again. -/
example : Layer.onto ⟨[([.key "a"], .scalar none (.integer 1)),
      ([.key "a", .key "b"], .scalar none (.integer 2))]⟩ (.table none .nil) =
    .table none (.ofList [("a", .table none (.ofList [("b", .scalar none (.integer 2))]))]) := by
  decide +kernel

end Relay.Config
