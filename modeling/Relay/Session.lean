import Relay.Connection
import Relay.Request
import Relay.Settings

namespace Relay

/-! Sessions: the server's side of one connection after the handshake. A session
is checked again and again. A check closes the session if its peer has been
silent for too long, and otherwise sends a ping, which lets a peer that is there
break its silence. All times are in milliseconds and, as in `Keepalive`, have no
end: there is always a time for the next check. -/

inductive Arrival where
  | message (message : Message)
  | ping (payload : List UInt8)
  | pong (payload : List UInt8)
  | close (reason : Option CloseReason)
  /-- The peer is gone, or has sent what is no frame. -/
  | failure
  deriving DecidableEq, Repr

namespace Arrival

def echo? : Arrival → Option Arrival
  | .ping payload => some (.pong payload)
  | .close reason => some (.close reason)
  | _ => none

end Arrival

structure Session where
  connection : Connection
  /-- When something last arrived. -/
  lastSeen : Nat
  /-- When the next check is due. -/
  nextCheck : Nat
  deriving DecidableEq, Repr

namespace Session

def start (keepalive : Keepalive) (connection : Connection) (now : Nat) : Session :=
  ⟨connection, now, now + keepalive.period⟩

def seenAt (now : Nat) (session : Session) : Session := { session with lastSeen := now }

def isSilent (keepalive : Keepalive) (now : Nat) (session : Session) : Bool :=
  keepalive.patience < now - session.lastSeen

/-- The session after a check that did not close it. Checks that were missed are
made up for. -/
def checked (keepalive : Keepalive) (session : Session) : Session :=
  { session with nextCheck := session.nextCheck + keepalive.period }

/-- All checks that are due at a time: the frames that they queue, and the
session unless one of them closes it. -/
def expire (keepalive : Keepalive) (now : Nat) (session : Session) :
    List Frame × Option Session :=
  if _ : session.nextCheck ≤ now then
    if session.isSilent keepalive now then ([.close none], none)
    else
      let (frames, rest) := (session.checked keepalive).expire keepalive now
      (.ping :: frames, rest)
  else ([], some session)
termination_by now + 1 - session.nextCheck
decreasing_by
  have := keepalive.period_pos
  simp only [checked]
  omega

/-- Checks every second that close after two silent seconds. -/
example :
    let keepalive : Keepalive := ⟨1, by decide, 2⟩
    let session : Session := ⟨⟨⟨0⟩, .v4 127 0 0 1 5000⟩, 0, 1000⟩
    (session.expire keepalive 2000).1 = [.ping, .ping] ∧
      (session.expire keepalive 2001).1 = [.close none] := by decide +kernel

end Session

end Relay
