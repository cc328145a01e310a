import Relay.Calendar
import Relay.Text.Digits

namespace Relay.Timestamp

/-! Timestamps: the time of day in universal time, to the microsecond. -/

/-- The text of a time in microseconds since the start of 1970. -/
def text (microseconds : Nat) : List Char :=
  let seconds := microseconds / 1000000
  let date := Calendar.ofDays (seconds / 86400)
  Text.padded 4 date.year ++ '-' :: Text.padded 2 date.month ++ '-' :: Text.padded 2 date.day ++
    'T' :: Text.padded 2 (seconds / 3600 % 24) ++ ':' :: Text.padded 2 (seconds / 60 % 60) ++
    ':' :: Text.padded 2 (seconds % 60) ++ '.' :: Text.padded 6 (microseconds % 1000000) ++ ['Z']

def render (microseconds : Nat) : String := String.ofList (text microseconds)

def form : List Char := "0000-00-00T00:00:00.000000Z".toList

def isWellFormed (text : List Char) : Bool :=
  text.map (fun character => if character.isDigit then '0' else character) = form

example : render 1704164645678901 = "2024-01-02T03:04:05.678901Z" ∧
    isWellFormed (text 1704164645678901) := by decide +kernel

end Relay.Timestamp
