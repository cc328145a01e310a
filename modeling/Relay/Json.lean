import Relay.Json.Number

namespace Relay

/-! JSON values. An object keeps its members as they are written, so that a
reader can see their order and a key that occurs twice; `normalize` gives the
value that the text stands for, in which the members are ordered by key and the
last of several members with one key has replaced the others. -/

mutual
inductive Json where
  | null
  | boolean (value : Bool)
  | number (value : Json.Number)
  | string (value : String)
  | array (elements : Elements)
  | object (members : Members)

inductive Elements where
  | nil
  | cons (head : Json) (tail : Elements)

inductive Members where
  | nil
  | cons (key : String) (value : Json) (rest : Members)
end

deriving instance DecidableEq for Json, Elements, Members
deriving instance Repr for Json, Elements, Members

instance : Inhabited Json := ⟨.null⟩

namespace Elements

def ofList : List Json → Elements
  | [] => .nil
  | head :: tail => .cons head (ofList tail)

def toList : Elements → List Json
  | .nil => []
  | .cons head tail => head :: tail.toList

@[simp] theorem toList_ofList : (values : List Json) → (ofList values).toList = values
  | [] => rfl
  | head :: tail => by rw [ofList, toList, toList_ofList tail]

@[simp] theorem ofList_toList : (elements : Elements) → ofList elements.toList = elements
  | .nil => rfl
  | .cons head tail => by rw [toList, ofList, ofList_toList tail]

end Elements

namespace Members

def ofList : List (String × Json) → Members
  | [] => .nil
  | (key, value) :: rest => .cons key value (ofList rest)

def toList : Members → List (String × Json)
  | .nil => []
  | .cons key value rest => (key, value) :: rest.toList

@[simp] theorem toList_ofList :
    (members : List (String × Json)) → (ofList members).toList = members
  | [] => rfl
  | (key, value) :: rest => by rw [ofList, toList, toList_ofList rest]

@[simp] theorem ofList_toList : (members : Members) → ofList members.toList = members
  | .nil => rfl
  | .cons key value rest => by rw [toList, ofList, ofList_toList rest]

def valuesOf (key : String) : Members → List Json
  | .nil => []
  | .cons other value rest =>
      if other = key then value :: rest.valuesOf key else rest.valuesOf key

def get? (key : String) : Members → Option Json
  | .nil => none
  | .cons other value rest => if other = key then some value else rest.get? key

/-- Puts a member into members that are ordered by key and replaces the member
that has this key. Keys are ordered by their characters, which is also the order
of their UTF-8 octets. -/
def insert (key : String) (value : Json) : Members → Members
  | .nil => .cons key value .nil
  | .cons other old rest =>
      if key < other then .cons key value (.cons other old rest)
      else if key = other then .cons key value rest
      else .cons other old (rest.insert key value)

end Members

mutual
def Json.normalize : Json → Json
  | .array elements => .array elements.normalize
  | .object members => .object (members.normalizeInto .nil)
  | .null => .null
  | .boolean value => .boolean value
  | .number value => .number value
  | .string value => .string value

def Elements.normalize : Elements → Elements
  | .nil => .nil
  | .cons head tail => .cons head.normalize tail.normalize

def Members.normalizeInto : Members → Members → Members
  | .nil, normal => normal
  | .cons key value rest, normal =>
      rest.normalizeInto (normal.insert key value.normalize)
end

/-- The last member with a key replaces the others. -/
example : (Json.object (.ofList [("b", .null), ("a", .boolean true), ("b", .string "x")])).normalize
    = .object (.ofList [("a", .boolean true), ("b", .string "x")]) := by decide

mutual
def Json.depth : Json → Nat
  | .array elements => elements.depth + 1
  | .object members => members.depth + 1
  | _ => 0

def Elements.depth : Elements → Nat
  | .nil => 0
  | .cons head tail => max head.depth tail.depth

def Members.depth : Members → Nat
  | .nil => 0
  | .cons _ value rest => max value.depth rest.depth
end

namespace Json

def kind : Json → String
  | .null => "null"
  | .boolean _ => "boolean"
  | .number _ => "number"
  | .string _ => "string"
  | .array _ => "array"
  | .object _ => "object"

end Json

end Relay
