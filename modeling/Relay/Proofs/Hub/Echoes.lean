import Relay.Proofs.Hub.Payloads
import Relay.Proofs.Json.Reprinting
import Relay.Proofs.Request.Decoding

namespace Relay

/-! What an echo brings back, compared with the text that was sent. Everything but numbers
comes back as it was written. A number comes back as it is written again, so that the answer
denotes what was sent exactly if each number keeps its exact value. Integers that fit 64 bits
do; longer ones do not, unless they are short decimals with zeros behind them. -/

open Json

namespace Json.Entries

theorem mem_literals_of_last? {key : String} {literal : Literal} {members : Entries}
    {value : Phrase} (found : members.last? key = some value)
    (member : literal ∈ value.literals) : literal ∈ members.literals := by
  induction members using Entries.keys.induct with
  | case1 => cases found
  | case2 other first rest induction =>
      rw [literals, List.mem_append]
      rcases Option.or_eq_some_iff.mp found with later | ⟨_, here⟩
      · exact .inr (induction later)
      · split at here
        · cases here
          exact .inl member
        · cases here

end Json.Entries

namespace Request

theorem echo_of_ofMembers {members : Members} {payload : Json}
    (isEcho : ofMembers members = .echo payload) : payload = messageOf members := by
  rcases payload?_ofMembers (congrArg Request.payload? isEcho) with ⟨isPing, _⟩ | isMessage
  · rw [isEcho] at isPing
    cases isPing
  · exact isMessage

section Echo

variable {frame : String} {members : Entries} {message : Phrase} {payload : Json}

theorem exists_message_of_echo (derived : IsText (.object members) frame.toList)
    (found : members.last? "message" = some message)
    (isEcho : decode frame = .ok (.echo payload)) :
    ∃ value, message.value? = some value ∧ payload = value.normalize := by
  unfold decode at isEcho
  cases parsed : Json.parse? frame.toList with
  | none => simp [parsed] at isEcho
  | some envelope =>
      rcases parse?_eq_some_iff.mp parsed with ⟨phrase, otherDerived, _, stands⟩
      have same : phrase = .object members := otherDerived.unique derived
      subst same
      rcases Option.map_eq_some_iff.mp stands with ⟨values, valuesStand, isObject⟩
      rcases Entries.exists_last?_of_value? valuesStand found with ⟨value, valueStands, isLast⟩
      subst isObject
      simp only [parsed, Json.normalize] at isEcho
      have isMessage := echo_of_ofMembers (Except.ok.inj isEcho)
      refine ⟨value, valueStands, ?_⟩
      rw [isMessage, messageOf, Members.get?_normalizeInto, isLast]
      rfl

/-- The value that an echo carries is written with the numbers of the message reprinted. -/
theorem meaning_of_echo (derived : IsText (.object members) frame.toList)
    (found : members.last? "message" = some message)
    (isEcho : decode frame = .ok (.echo payload)) :
    payload.phrase.meaning = (message.mapLiterals Literal.reprint).meaning := by
  rcases exists_message_of_echo derived found isEcho with ⟨value, stands, isPayload⟩
  rw [isPayload, value.meaning_normalize, message.phrase_of_value? stands]

theorem number_of_echo (derived : IsText (.object members) frame.toList)
    (found : members.last? "message" = some message)
    (isEcho : decode frame = .ok (.echo payload)) {literal : Literal}
    (member : literal ∈ message.literals) :
    literal.IsWellFormed ∧ literal.number?.isSome := by
  rcases exists_message_of_echo derived found isEcho with ⟨value, stands, _⟩
  constructor
  · exact derived.isWellFormed literal (Entries.mem_literals_of_last? found member)
  · exact message.isSome_value?_iff.mp (Option.isSome_iff_exists.mpr ⟨value, stands⟩) literal
      member

end Echo

end Request

namespace Envelope

theorem exists_isText_echoResponse (payload : Json) (timestamp : String) (count : UInt64) :
    ∃ answer, (∀ phrase, IsText phrase (echoResponse payload timestamp count).encode.toList ↔
        phrase = .object answer) ∧
      answer.last? "original_message" = some payload.phrase := by
  let values := Members.ofList (("type", .string (echoResponse payload timestamp count).kind) ::
    (echoResponse payload timestamp count).members)
  have derived : IsText (.object values.entries)
      (echoResponse payload timestamp count).encode.toList := by
    rw [encode, Json.render, String.toList_ofList]
    exact (Json.object values).isText_text
  refine ⟨values.entries, fun phrase => ⟨fun other => other.unique derived, ?_⟩, ?_⟩
  · intro same
    rw [same]
    exact derived
  · rw [Members.last?_entries]
    simp [values, members, Members.ofList, Members.last?]

end Envelope

namespace Hub

theorem queued_dispatch_echo {hub : Hub} {moment : Moment} {sender : Connection}
    {frame : String} {payload : Json} (isEcho : Request.decode frame = .ok (.echo payload))
    (isOpen : hub.mailboxes.accepts sender.id = true) :
    ∃ text answer,
      ((hub.dispatch moment sender (.text frame)).mailboxes.get sender.id).queued =
        (hub.mailboxes.get sender.id).queued ++ [.text text] ∧
      (∀ phrase, IsText phrase text.toList ↔ phrase = .object answer) ∧
      answer.last? "original_message" = some payload.phrase := by
  rcases Envelope.exists_isText_echoResponse payload moment.timestamp
    (hub.registry.messageCount + 1) with ⟨answer, derived, found⟩
  have request : (Message.text frame).request = .ok (.echo payload) := isEcho
  exact ⟨_, answer, queued_dispatch_of_single isOpen (outgoing_echo request), derived, found⟩

/-- An echo comes back with its numbers reprinted and nothing else changed, so that it denotes
what was sent exactly if all numbers of the message keep their exact values. Every integer that
fits 64 bits does. Every other one comes back as the shortest decimal of a binary number, and
keeps its value only if it has at most seventeen digits before the zeros at its end. -/
theorem dispatch_echo_meaning_iff (hub : Hub) (moment : Moment) (sender : Connection)
    {frame : String} {members : Entries} {message : Phrase} {payload : Json}
    (derived : IsText (.object members) frame.toList)
    (isEcho : Request.decode frame = .ok (.echo payload))
    (found : members.last? "message" = some message) (distinct : message.HasDistinctKeys)
    (isOpen : hub.mailboxes.accepts sender.id = true) :
    ∃ text answer returned,
      ((hub.dispatch moment sender (.text frame)).mailboxes.get sender.id).queued =
          (hub.mailboxes.get sender.id).queued ++ [.text text] ∧
        (∀ phrase, IsText phrase text.toList ↔ phrase = .object answer) ∧
        answer.last? "original_message" = some returned ∧
        returned.meaning = (message.mapLiterals Literal.reprint).meaning ∧
        (returned.meaning = message.meaning ↔
          ∀ literal ∈ message.literals, literal.KeepsValue) ∧
        ∀ literal ∈ message.literals, literal.IsInteger →
          (literal.FitsWord → literal.KeepsValue) ∧
          (¬literal.FitsWord →
            (∃ real, literal.real? = some real ∧ literal.reprint = .ofReal real) ∧
              (literal.KeepsValue → literal.IsShort)) := by
  rcases queued_dispatch_echo isEcho isOpen with ⟨text, answer, queued, read, returned⟩
  have reprinted := Request.meaning_of_echo derived found isEcho
  refine ⟨text, answer, payload.phrase, queued, read, returned, reprinted, ?_, ?_⟩
  · rw [reprinted]
    exact message.meaning_mapLiterals_iff Literal.reprint distinct
  · intro literal member isInteger
    rcases Request.number_of_echo derived found isEcho member with ⟨wellFormed, inRange⟩
    refine ⟨Literal.keepsValue_of_fitsWord wellFormed isInteger, fun outside => ⟨?_, ?_⟩⟩
    · exact Literal.exists_reprint_of_not_fitsWord outside inRange
    · exact Literal.isShort_of_keepsValue isInteger outside inRange

def echoMembers (message : Phrase) : Entries :=
  .cons "type" (.string "echo") (.cons "message" message .nil)

theorem isText_echoMembers {message : Phrase}
    (wellFormed : ∀ literal ∈ message.literals, literal.IsWellFormed) :
    IsText (.object (echoMembers message)) (Phrase.object (echoMembers message)).text := by
  apply Phrase.isText_text
  intro literal member
  rw [Phrase.literals, echoMembers, Entries.literals, Entries.literals, Entries.literals,
    List.append_nil] at member
  exact wellFormed literal member

/-- The least and the greatest integer that fit 64 bits come back as they were sent. -/
theorem dispatch_echo_meaning_extremes :
    let sender : Connection := ⟨⟨0⟩, .v4 127 0 0 1 5000⟩
    let hub : Hub := ⟨"localhost", 3004, Registry.empty.register sender, Mailboxes.empty.add⟩
    let frame := "\x7b\"type\":\"echo\",\"message\":" ++
      "[-9223372036854775808,18446744073709551615]\x7d"
    let message : Phrase := .array (.cons (.number (.ofInteger (-9223372036854775808)))
      (.cons (.number (.ofInteger 18446744073709551615)) .nil))
    IsText (.object (echoMembers message)) frame.toList ∧
      (∃ payload, Request.decode frame = .ok (.echo payload)) ∧
      (echoMembers message).last? "message" = some message ∧ message.HasDistinctKeys ∧
      hub.mailboxes.accepts sender.id = true ∧
      ∃ text answer returned,
        ((hub.dispatch ⟨"now", .zero⟩ sender (.text frame)).mailboxes.get sender.id).queued =
            [.text text] ∧
          (∀ phrase, IsText phrase text.toList ↔ phrase = .object answer) ∧
          answer.last? "original_message" = some returned ∧
          returned.meaning = message.meaning := by
  intro sender hub frame message
  have wellFormed : ∀ literal ∈ message.literals, literal.IsWellFormed := by
    intro literal member
    rcases List.mem_pair.mp member with isLeast | isGreatest
    · exact isLeast ▸ Literal.isWellFormed_ofInteger _
    · exact isGreatest ▸ Literal.isWellFormed_ofInteger _
  have written : frame.toList = (Phrase.object (echoMembers message)).text := by decide +kernel
  have derived : IsText (.object (echoMembers message)) frame.toList :=
    written ▸ isText_echoMembers wellFormed
  have isEcho : Request.decode frame = .ok (.echo (.array (.ofList
      [.number (.integer (-9223372036854775808) (by decide)),
        .number (.integer 18446744073709551615 (by decide))]))) := by decide +kernel
  have found : (echoMembers message).last? "message" = some message := rfl
  have distinct : message.HasDistinctKeys := ⟨trivial, trivial, trivial⟩
  have isOpen : hub.mailboxes.accepts sender.id = true := by decide
  rcases dispatch_echo_meaning_iff hub ⟨"now", .zero⟩ sender derived isEcho found distinct isOpen
    with ⟨text, answer, returned, queued, read, isReturned, _, same, integers⟩
  refine ⟨derived, ⟨_, isEcho⟩, found, distinct, isOpen, text, answer, returned, queued, read,
    isReturned, same.mpr ?_⟩
  intro literal member
  rcases List.mem_pair.mp member with isLeast | isGreatest
  · subst isLeast
    exact (integers _ member ⟨rfl, rfl⟩).1 (by decide +kernel)
  · subst isGreatest
    exact (integers _ member ⟨rfl, rfl⟩).1 (by decide +kernel)

/-- The next greater integer comes back as another one. -/
theorem dispatch_echo_changes_integer :
    let sender : Connection := ⟨⟨0⟩, .v4 127 0 0 1 5000⟩
    let hub : Hub := ⟨"localhost", 3004, Registry.empty.register sender, Mailboxes.empty.add⟩
    let frame := "\x7b\"type\":\"echo\",\"message\":18446744073709551616\x7d"
    let sent : Literal := .ofInteger 18446744073709551616
    IsText (.object (echoMembers (.number sent))) frame.toList ∧
      (∃ payload, Request.decode frame = .ok (.echo payload)) ∧ sent.IsInteger ∧
      sent.value = 18446744073709551616 ∧ hub.mailboxes.accepts sender.id = true ∧
      ∃ text answer returned,
        ((hub.dispatch ⟨"now", .zero⟩ sender (.text frame)).mailboxes.get sender.id).queued =
            [.text text] ∧
          (∀ phrase, IsText phrase text.toList ↔ phrase = .object answer) ∧
          answer.last? "original_message" = some (.number returned) ∧
          returned.value = 18446744073709552000 ∧
          (Phrase.number returned).meaning ≠ (Phrase.number sent).meaning := by
  intro sender hub frame sent
  have wellFormed : ∀ literal ∈ (Phrase.number sent).literals, literal.IsWellFormed := by
    intro literal member
    exact List.mem_singleton.mp member ▸ Literal.isWellFormed_ofInteger _
  have written : frame.toList = (Phrase.object (echoMembers (.number sent))).text := by
    decide +kernel
  have isEcho : Request.decode frame =
      .ok (.echo (.number (.real ⟨false, 0x43f0000000000000, by decide⟩))) := by decide +kernel
  have isOpen : hub.mailboxes.accepts sender.id = true := by decide
  have printed : Literal.ofReal ⟨false, 0x43f0000000000000, by decide⟩ =
      ⟨false, ['1'], some "8446744073709552".toList, some (false, "19".toList)⟩ := by
    decide +kernel
  have digits : Nat.ofDigitChars 10 (['1'] ++ "8446744073709552".toList) 0 =
      18446744073709552 := by decide +kernel
  have place : Literal.exponentValue (some (false, "19".toList)) -
      "8446744073709552".toList.length = 3 := by decide +kernel
  have sentValue : sent.value = 18446744073709551616 := Literal.value_ofInteger _
  have returnedValue : (Number.literal (.real ⟨false, 0x43f0000000000000, by decide⟩)).value =
      18446744073709552000 := by
    rw [Number.literal, printed]
    simp only [Literal.value, Literal.magnitude, Option.getD_some, digits, place]
    norm_num
  rcases queued_dispatch_echo isEcho isOpen with ⟨text, answer, queued, read, returned⟩
  refine ⟨written ▸ isText_echoMembers wellFormed, ⟨_, isEcho⟩, ⟨rfl, rfl⟩, sentValue, isOpen,
    text, answer, _, queued, read, returned, returnedValue, ?_⟩
  intro same
  have sameValue := Meaning.number.inj same
  rw [returnedValue, sentValue] at sameValue
  norm_num at sameValue

end Hub

end Relay
