import Mathlib.Tactic.SplitIfs
import Relay.Proofs.Exchange.Octets
import Relay.Proofs.Hub.Payloads
import Relay.Proofs.Json.Meaning
import Relay.Proofs.Request.Decoding

namespace Relay

/-! Which request an object is. Only a string can name a request that is handled. Every other
type is reported as its text, and no text of another value is the name of a request. -/

open Json

namespace Json

theorem render_not_mem_supportedTypes (value : Json) :
    value.render ∉ Request.supportedTypes := by
  intro member
  rcases value.value_text.starts with ⟨first, others, isText, starts⟩
  have isHead : value.render.toList.head? = some first := by
    rw [render, String.toList_ofList, isText]
    rfl
  have noName : ∀ name ∈ Request.supportedTypes,
      name.toList.head?.any startsValue = false := by decide +kernel
  have unlike := noName _ member
  rw [isHead, Option.any_some, starts] at unlike
  cases unlike

theorem exists_string_of_kind {phrase : Phrase} (isString : phrase.kind = "string") :
    ∃ text, phrase = .string text := by
  cases phrase with
  | string text => exact ⟨text, rfl⟩
  | null | boolean _ | number _ | array _ | object _ => simp [Phrase.kind] at isString

end Json

namespace Request

/-! ## Kinds -/

theorem kind_ofMembers (members : Members) : (ofMembers members).kind = typeOf members := by
  simp only [ofMembers]
  split_ifs with isPing isEcho isBroadcast isStats
  · exact isPing.symm
  · exact isEcho.symm
  · exact isBroadcast.symm
  · exact isStats.symm
  · rfl

theorem ofMembers_eq_unknown_iff {members : Members} {kind : String} :
    ofMembers members = .unknown kind ↔ typeOf members = kind ∧ kind ∉ supportedTypes := by
  simp only [ofMembers]
  split_ifs <;> grind [supportedTypes]

theorem handler_ofMembers (members : Members) :
    ((∃ envelope, ofMembers members = .ping envelope) ↔ typeOf members = "ping") ∧
      ((∃ message, ofMembers members = .echo message) ↔ typeOf members = "echo") ∧
      ((∃ message, ofMembers members = .broadcast message) ↔ typeOf members = "broadcast") ∧
      (ofMembers members = .stats ↔ typeOf members = "stats") := by
  simp only [ofMembers]
  split_ifs <;> simp_all

/-! ## Types as they are written -/

/-- How the type of an object is reported: a string as it is, any other value as its compact
text, and no type at all by a word of its own. -/
def kindOf? (members : Entries) : Option String :=
  match members.last? "type" with
  | some (.string name) => some name
  | some phrase => phrase.value?.map fun value => value.normalize.render
  | none => some "unknown"

theorem exists_entries_of_decode {frame : String} {request : Request}
    (accepted : decode frame = .ok request) :
    ∃ (members : Entries) (values : Members), IsText (.object members) frame.toList ∧
      members.value? = some values ∧ Holds frame (values.normalizeInto .nil) ∧
      request = ofMembers (values.normalizeInto .nil) := by
  rw [decode] at accepted
  cases parsed : parse? frame.toList with
  | none => simp [parsed] at accepted
  | some value =>
      rcases parse?_eq_some_iff.mp parsed with ⟨phrase, derived, _, stands⟩
      cases phrase with
      | object members =>
          rcases Option.map_eq_some_iff.mp stands with ⟨values, valuesStand, same⟩
          subst same
          simp only [parsed, Json.normalize, Except.ok.injEq] at accepted
          exact ⟨members, values, derived, valuesStand, ⟨_, parsed, by rw [Json.normalize]⟩,
            accepted.symm⟩
      | null | boolean _ | number _ | string _ | array _ =>
          have isOther := Phrase.kind_of_value? stands
          rw [← kind_normalize] at isOther
          cases normal : value.normalize <;>
            simp_all [Json.kind, Phrase.kind]

theorem typeOf_of_other {members : Members} {value : Json}
    (isType : members.get? "type" = some value) (isOther : value.kind ≠ "string") :
    typeOf members = value.render := by
  rw [typeOf, isType]
  cases value with
  | string name => exact absurd rfl isOther
  | null | boolean _ | number _ | array _ | object _ => rfl

section Types

variable {members : Entries} {values : Members}

theorem typeOf_cases (stands : members.value? = some values) :
    members.last? "type" = none ∧ typeOf (values.normalizeInto .nil) = "unknown" ∨
      (∃ name, members.last? "type" = some (.string name) ∧
        typeOf (values.normalizeInto .nil) = name) ∨
      ∃ phrase value, members.last? "type" = some phrase ∧ phrase.kind ≠ "string" ∧
        phrase.value? = some value ∧
        typeOf (values.normalizeInto .nil) = value.normalize.render := by
  have read := Members.get?_normalizeInto "type" values .nil
  cases written : members.last? "type" with
  | none =>
      have noValue := Entries.last?_of_value? "type" stands
      rw [written, Option.map_none, eq_comm, Option.map_eq_none_iff] at noValue
      rw [noValue] at read
      exact .inl ⟨rfl, by rw [typeOf, read]; rfl⟩
  | some phrase =>
      rcases Entries.exists_last?_of_value? stands written with ⟨value, valueStands, isLast⟩
      rw [isLast, Option.map_some, Option.some_or] at read
      by_cases isString : phrase.kind = "string"
      · rcases exists_string_of_kind isString with ⟨name, same⟩
        subst same
        cases valueStands
        exact .inr (.inl ⟨name, rfl, typeOf_of_string read⟩)
      · refine .inr (.inr ⟨phrase, value, rfl, isString, valueStands, typeOf_of_other read ?_⟩)
        rw [kind_normalize, Phrase.kind_of_value? valueStands]
        exact isString

theorem kindOf?_eq_typeOf (stands : members.value? = some values) :
    kindOf? members = some (typeOf (values.normalizeInto .nil)) := by
  unfold kindOf?
  rcases typeOf_cases stands with ⟨noType, isWord⟩ | ⟨name, isString, isName⟩ |
    ⟨phrase, value, isOther, noString, valueStands, isText⟩
  · rw [noType, isWord]
  · rw [isString, isName]
  · rw [isOther, isText]
    cases phrase with
    | string name => exact absurd rfl noString
    | null | boolean _ | number _ | array _ | object _ =>
        exact Option.map_eq_some_iff.mpr ⟨value, valueStands, rfl⟩

theorem typeOf_eq_iff (stands : members.value? = some values) {name : String}
    (supported : name ∈ supportedTypes) :
    typeOf (values.normalizeInto .nil) = name ↔
      members.last? "type" = some (.string name) := by
  rcases typeOf_cases stands with ⟨noType, isWord⟩ | ⟨other, isString, isName⟩ |
    ⟨phrase, value, isOther, noString, _, isText⟩
  · rw [noType, isWord]
    constructor
    · intro same
      rw [← same] at supported
      exact absurd supported (by decide)
    · intro same
      cases same
  · rw [isString, isName]
    constructor
    · intro same
      rw [same]
    · intro same
      cases same
      rfl
  · rw [isOther, isText]
    constructor
    · intro same
      rw [← same] at supported
      exact absurd supported (render_not_mem_supportedTypes _)
    · intro same
      cases same
      exact absurd rfl noString

end Types

/-- What the type of an object makes of it. Every request is kept under the text of its type. -/
structure IsRequestOf (members : Entries) (request : Request) : Prop where
  kind : kindOf? members = some request.kind
  ping : (∃ envelope, request = .ping envelope) ↔
    members.last? "type" = some (.string "ping")
  echo : (∃ message, request = .echo message) ↔
    members.last? "type" = some (.string "echo")
  broadcast : (∃ message, request = .broadcast message) ↔
    members.last? "type" = some (.string "broadcast")
  stats : request = .stats ↔ members.last? "type" = some (.string "stats")
  unknown : ∀ kind, request = .unknown kind ↔ kindOf? members = some kind ∧
    ∀ name ∈ supportedTypes, members.last? "type" ≠ some (.string name)
  unsupported : ∀ kind, request = .unknown kind → kind ∉ supportedTypes
  otherTypes : ∀ phrase, members.last? "type" = some phrase → phrase.kind ≠ "string" →
    ∃ kind, request = .unknown kind

theorem isRequestOf_ofMembers {members : Entries} {values : Members}
    (stands : members.value? = some values) :
    IsRequestOf members (ofMembers (values.normalizeInto .nil)) := by
  rcases handler_ofMembers (values.normalizeInto .nil) with ⟨ping, echo, broadcast, stats⟩
  have unnamed : typeOf (values.normalizeInto .nil) ∉ supportedTypes ↔
      ∀ name ∈ supportedTypes, members.last? "type" ≠ some (.string name) := by
    constructor
    · intro unsupported name supported isName
      rw [(typeOf_eq_iff stands supported).mpr isName] at unsupported
      exact unsupported supported
    · intro noName supported
      exact noName _ supported ((typeOf_eq_iff stands supported).mp rfl)
  have unknown : ∀ kind, ofMembers (values.normalizeInto .nil) = .unknown kind ↔
      kindOf? members = some kind ∧
        ∀ name ∈ supportedTypes, members.last? "type" ≠ some (.string name) := by
    intro kind
    rw [ofMembers_eq_unknown_iff, ← unnamed, kindOf?_eq_typeOf stands, Option.some.injEq]
    constructor
    · rintro ⟨same, unsupported⟩
      exact ⟨same, same ▸ unsupported⟩
    · rintro ⟨same, unsupported⟩
      exact ⟨same, same ▸ unsupported⟩
  refine ⟨?_, ?_, ?_, ?_, ?_, unknown, ?_, ?_⟩
  · rw [kind_ofMembers, kindOf?_eq_typeOf stands]
  · rw [ping, typeOf_eq_iff stands (by decide)]
  · rw [echo, typeOf_eq_iff stands (by decide)]
  · rw [broadcast, typeOf_eq_iff stands (by decide)]
  · rw [stats, typeOf_eq_iff stands (by decide)]
  · intro kind isUnknown
    exact (ofMembers_eq_unknown_iff.mp isUnknown).2
  · intro phrase isType noString
    refine ⟨_, (unknown _).mpr ⟨kindOf?_eq_typeOf stands, ?_⟩⟩
    intro name _ isName
    rw [isType, Option.some.injEq] at isName
    rw [isName] at noString
    exact noString rfl

end Request

namespace Hub

section Routing

variable {hub : Hub} {moment : Moment} {sender : Connection} {message : Message}
variable {request : Request}

/-- Only requests of unknown types are answered with the names that are supported. -/
theorem route_eq_unknownType_iff (isRequest : message.request = .ok request) {kind : String} :
    (hub.route moment sender message).1 = .unknownType moment kind ↔
      request = .unknown kind := by
  rw [route, isRequest]
  cases request with
  | unknown other => simp [respond, Envelope.unknownType]
  | ping _ | echo _ | broadcast _ | stats => simp [respond, Envelope.unknownType]

theorem route_unknown {kind : String} (isUnknown : message.request = .ok (.unknown kind)) :
    hub.route moment sender message = (.unknownType moment kind, hub.recordMessage) := by
  rw [route, isUnknown]
  rfl

end Routing

/-- Requests are told apart by the last type of their object, as it is written. A request is
handled exactly if the type is a string that is its name, letter by letter. Everything else
is unknown, under the string itself, under the compact text of another value, or under a word
of its own, and never under the name of a request. So the answer that lists the names which
are supported goes to exactly the objects whose type is none of these strings, and it says
which kind was meant. -/
theorem route_by_type {frame : String} {request : Request}
    (accepted : Request.decode frame = .ok request) :
    ∃ members : Entries, (∀ phrase, IsText phrase frame.toList ↔ phrase = .object members) ∧
      request.IsRequestOf members ∧
      ∀ (hub : Hub) (moment : Moment) (sender : Connection),
        ∀ message ∈ [Message.text frame, .binary (Utf8.encode frame)],
          (∀ kind, (hub.route moment sender message).1 =
              .error ("Unknown message type: " ++ kind) none
                (some ["ping", "echo", "broadcast", "stats"]) moment.timestamp ↔
            Request.kindOf? members = some kind ∧ ∀ name ∈ Request.supportedTypes,
              members.last? "type" ≠ some (.string name)) ∧
          ((∃ kind, hub.route moment sender message =
              (.error ("Unknown message type: " ++ kind) none
                (some ["ping", "echo", "broadcast", "stats"]) moment.timestamp,
                hub.recordMessage)) ↔
            ¬∃ name ∈ Request.supportedTypes,
              members.last? "type" = some (.string name)) := by
  rcases Request.exists_entries_of_decode accepted
    with ⟨members, values, derived, stands, _, isRequest⟩
  have described := Request.isRequestOf_ofMembers stands
  rw [← isRequest] at described
  refine ⟨members, fun phrase => ⟨fun other => other.unique derived, ?_⟩, described, ?_⟩
  · intro same
    rw [same]
    exact derived
  · intro hub moment sender message member
    have isMessage : message.request = .ok request := by
      rw [List.mem_cons, List.mem_singleton] at member
      rcases member with isText | isBinary
      · rw [isText]
        exact accepted
      · rw [isBinary]
        exact (Message.text frame).request_encoded.trans accepted
    constructor
    · intro kind
      rw [← described.unknown kind]
      exact route_eq_unknownType_iff isMessage
    · constructor
      · rintro ⟨kind, routed⟩ ⟨name, supported, isName⟩
        have isUnknown : request = .unknown kind :=
          (route_eq_unknownType_iff isMessage).mp (congrArg Prod.fst routed)
        exact ((described.unknown kind).mp isUnknown).2 name supported isName
      · intro noName
        have isUnknown := (described.unknown _).mpr ⟨Request.kindOf?_eq_typeOf stands,
          fun name supported isName => noName ⟨name, supported, isName⟩⟩
        rw [isUnknown] at isMessage
        exact ⟨_, route_unknown isMessage⟩

/-- A type that is the name of a request in an array, behind a type that is overridden. -/
theorem route_by_type_array :
    let frame := "\x7b\"type\":\"ping\", \"type\":[ \"ping\" ]\x7d"
    let hub := Hub.start "localhost" 3004
    let sender : Connection := ⟨⟨0⟩, .v4 127 0 0 1 5000⟩
    Request.decode frame = .ok (.unknown "[\"ping\"]") ∧
      ∃ members : Entries, (∀ phrase, IsText phrase frame.toList ↔ phrase = .object members) ∧
        Request.kindOf? members = some "[\"ping\"]" ∧
        (hub.route ⟨"now", .zero⟩ sender (.text frame)).1 =
          .error "Unknown message type: [\"ping\"]" none
            (some ["ping", "echo", "broadcast", "stats"]) "now" := by
  intro frame hub sender
  have accepted : Request.decode frame = .ok (.unknown "[\"ping\"]") := by decide +kernel
  rcases route_by_type accepted with ⟨members, isText, described, routed⟩
  have isKind := (described.unknown _).mp rfl
  have answered := ((routed hub ⟨"now", .zero⟩ sender (.text frame) (by simp)).1 _).mpr isKind
  exact ⟨accepted, members, isText, isKind.1, answered⟩

end Hub

end Relay
