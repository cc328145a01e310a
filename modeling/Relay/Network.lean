namespace Relay

/-! Networks: which addresses a server can listen on, and whether clients reach
it there. -/

structure Network where
  /-- Whether connections of clients reach a server that listens. -/
  reachable : Bool
  /-- The reason why a host and a port cannot be listened on. -/
  refusal? : String → UInt16 → Option String
  /-- The numeric address of a host. -/
  numeric : String → String
  /-- The port that is listened on if none is asked for. -/
  freePort : UInt16

namespace Network

def unprivilegedPort : UInt16 := 1024

def permissionDenied : String := "Permission denied (os error 13)"

/-- A network that gives every address away but the privileged ports. No client
reaches a server in it. -/
def isolated : Network where
  reachable := false
  refusal? := fun _ port =>
    if 0 < port ∧ port < unprivilegedPort then some permissionDenied else none
  numeric := fun host => if host = "localhost" then "127.0.0.1" else host
  freePort := 49152

def joined : Network := { isolated with reachable := true }

end Network

end Relay
