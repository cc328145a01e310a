import Relay.Connection

namespace Relay

/-! The registry: who takes part in the relay, and how many messages have been
counted. A connection takes part at most once. -/

structure Registry where
  members : List Connection
  messageCount : UInt64
  distinct : (members.map Connection.id).Nodup
  deriving DecidableEq, Repr

structure Snapshot where
  connectedClients : UInt64
  totalMessages : UInt64
  deriving DecidableEq, Repr

namespace Registry

def empty : Registry := ⟨[], 0, List.nodup_nil⟩

def size (registry : Registry) : Nat := registry.members.length

def isEmpty (registry : Registry) : Bool := registry.members.isEmpty

def contains (id : ConnectionId) (registry : Registry) : Bool :=
  registry.members.any fun member => member.id = id

def snapshot (registry : Registry) : Snapshot :=
  ⟨.ofNat registry.size, registry.messageCount⟩

theorem contains_iff {id : ConnectionId} {registry : Registry} :
    registry.contains id = true ↔ id ∈ registry.members.map Connection.id := by
  simp [contains]

def register (connection : Connection) (registry : Registry) : Registry :=
  if present : registry.contains connection.id then registry
  else
    { registry with
      members := registry.members ++ [connection]
      distinct := by
        rw [List.map_append, List.nodup_append]
        refine ⟨registry.distinct, by simp, ?_⟩
        intro id member other single equal
        have isConnection : other = connection.id := by simpa using single
        subst equal isConnection
        exact present (contains_iff.mpr member) }

def unregister (id : ConnectionId) (registry : Registry) : Registry :=
  { registry with
    members := registry.members.filter fun member => member.id ≠ id
    distinct := registry.distinct.sublist (List.filter_sublist.map _) }

/-- Counts one message. The count starts anew after `2 ^ 64` messages. -/
def recordMessage (registry : Registry) : Registry :=
  { registry with messageCount := registry.messageCount + 1 }

example (first second : Connection) (same : first.id = second.id) :
    ((empty.register first).register second).members = [first] := by
  simp [register, contains, empty, same]

end Registry

end Relay
