namespace Relay

/-! The times that follow from the settings are natural numbers, so that they can be
added without an end. On a machine a sum of seconds has to fit 64 bits, and the clock
ends at about `2 ^ 63` seconds; nothing is said here about settings that lead beyond
that. -/

structure Settings where
  host : String
  port : UInt16
  /-- Seconds between two reports to all clients. -/
  heartbeatInterval : UInt64
  /-- Seconds between two checks whether a client is still there. -/
  pingInterval : UInt64
  /-- Seconds that a client may be silent beyond the time between two checks. -/
  pingTimeout : UInt64
  logLevel : String
  deriving DecidableEq, Repr

namespace Settings

def default : Settings := ⟨"localhost", 3004, 30, 20, 10, "info"⟩

def address (settings : Settings) : String :=
  settings.host ++ ":" ++ toString settings.port

def idleTimeout (settings : Settings) : Nat :=
  settings.pingInterval.toNat + settings.pingTimeout.toNat

end Settings

/-- How a session finds out that its client is gone. Both times are seconds. -/
structure Keepalive where
  pingInterval : Nat
  positive : 0 < pingInterval
  idleTimeout : Nat
  deriving DecidableEq, Repr

namespace Keepalive

def minimalInterval : Nat := 1

def ofSettings (settings : Settings) : Keepalive :=
  ⟨max settings.pingInterval.toNat minimalInterval,
    by simp only [minimalInterval]; omega, settings.idleTimeout⟩

def period (keepalive : Keepalive) : Nat := keepalive.pingInterval * 1000

def patience (keepalive : Keepalive) : Nat := keepalive.idleTimeout * 1000

theorem period_pos (keepalive : Keepalive) : 0 < keepalive.period :=
  Nat.mul_pos keepalive.positive (by decide)

end Keepalive

end Relay
