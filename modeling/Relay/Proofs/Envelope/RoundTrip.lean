import Relay.Envelope.Parser
import Relay.Proofs.Json.RoundTrip

namespace Relay

/-! Written envelopes are read back. `Envelope.reread?` says for every envelope
what its text is read as. It is the same envelope if its payload leaves one level
for the object around it and all its binary numbers are read back. -/

open Json

/-! ## Fields -/

namespace Json

@[simp] theorem string?_string (value : String) : string? (.string value) = some value := rfl

@[simp] theorem count?_count (value : UInt64) : count? (.count value) = some value := by
  simp [Json.count, Number.ofCount, count?]

@[simp] theorem port?_port (value : UInt16) : port? (.port value) = some value := by
  have inRange : (value.toNat : Int) < 65536 := by
    have := value.toNat_lt
    omega
  simp [Json.port, Number.ofPort, port?, inRange]

@[simp] theorem real?_real (value : Double) : real? (.real value) = some value := rfl

@[simp] theorem strings?_strings (values : List String) :
    strings? (.strings values) = some values := by
  rw [strings, strings?, Elements.toList_ofList]
  induction values with
  | nil => rfl
  | cons value values induction => simp [induction]

end Json

/-! ## Records -/

def Json.present : List String → List (Option Json) → List (String × Json)
  | name :: names, field :: fields =>
      (field.map fun value => (name, value)).toList ++ present names fields
  | _, _ => []

theorem Json.mem_names_of_present {names : List String} :
    ∀ {fields : List (Option Json)} {member : String × Json},
      member ∈ present names fields → member.1 ∈ names := by
  induction names with
  | nil =>
      intro fields member isPresent
      cases isPresent
  | cons name names induction =>
      intro fields member isPresent
      cases fields with
      | nil => cases isPresent
      | cons field fields =>
          rcases List.mem_append.mp isPresent with isFirst | later
          · rcases Option.map_eq_some_iff.mp (Option.mem_toList.mp isFirst)
              with ⟨_, _, same⟩
            cases same
            exact List.mem_cons_self
          · exact List.mem_cons_of_mem _ (induction later)

theorem Members.valuesOf_append (key : String) (front back : List (String × Json)) :
    (Members.ofList (front ++ back)).valuesOf key =
      (Members.ofList front).valuesOf key ++ (Members.ofList back).valuesOf key := by
  induction front with
  | nil => rfl
  | cons member front induction =>
      simp only [List.cons_append, Members.ofList, Members.valuesOf, induction]
      split <;> rfl

theorem Members.valuesOf_of_absent {key : String} {members : List (String × Json)}
    (absent : ∀ member ∈ members, member.1 ≠ key) :
    (Members.ofList members).valuesOf key = [] := by
  induction members with
  | nil => rfl
  | cons member members induction =>
      rw [Members.ofList, Members.valuesOf, if_neg (absent member List.mem_cons_self)]
      exact induction fun other later => absent other (List.mem_cons_of_mem _ later)

theorem Members.valuesOf_field (name : String) (field : Option Json) :
    (Members.ofList (field.map fun value => (name, value)).toList).valuesOf name =
      field.toList := by
  cases field with
  | none => rfl
  | some value => simp [Members.ofList, Members.valuesOf]

/-- The fields of a record are found again, whatever other members stand in
front of them. -/
theorem Json.fields?_present {names : List String} (distinct : names.Nodup) :
    ∀ (fields : List (Option Json)), names.length = fields.length →
      ∀ (front : List (String × Json)), (∀ member ∈ front, member.1 ∉ names) →
        (Json.ofMembers (front ++ present names fields)).fields? names = some fields := by
  induction names with
  | nil =>
      intro fields sameLength front outside
      rw [List.eq_nil_of_length_eq_zero sameLength.symm]
      rfl
  | cons name names induction =>
      intro fields sameLength front outside
      rcases List.nodup_cons.mp distinct with ⟨isNew, othersDistinct⟩
      cases fields with
      | nil => cases sameLength
      | cons field fields =>
          let first := (field.map fun value => (name, value)).toList
          have inFront : (Members.ofList front).valuesOf name = [] := by
            apply Members.valuesOf_of_absent
            intro member inFront same
            exact outside member inFront (by rw [same]; exact List.mem_cons_self)
          have inRest : (Members.ofList (present names fields)).valuesOf name = [] := by
            apply Members.valuesOf_of_absent
            intro member isPresent same
            exact isNew (same ▸ mem_names_of_present isPresent)
          have here : (Members.ofList (front ++ (first ++ present names fields))).valuesOf
              name = field.toList := by
            rw [Members.valuesOf_append, Members.valuesOf_append, inFront, inRest,
              Members.valuesOf_field, List.append_nil, List.nil_append]
          have firstOutside : ∀ member ∈ front ++ first, member.1 ∉ names := by
            intro member inside later
            rcases List.mem_append.mp inside with isOld | isFirst
            · exact outside member isOld (List.mem_cons_of_mem _ later)
            · rcases Option.map_eq_some_iff.mp (Option.mem_toList.mp isFirst)
                with ⟨_, _, same⟩
              cases same
              exact isNew later
          have others := induction othersDistinct fields (Nat.succ.inj sameLength)
            (front ++ first) firstOutside
          rw [List.append_assoc] at others
          simp only [fields?, ofMembers] at others
          simp only [fields?, ofMembers, present, List.mapM_cons]
          rw [others, here]
          cases field <;> rfl

theorem Json.fields?_ofMembers {members : List (String × Json)}
    (distinct : (members.map Prod.fst).Nodup) :
    (ofMembers members).fields? (members.map Prod.fst) =
      some (members.map fun member => some member.2) := by
  have whole : present (members.map Prod.fst) (members.map fun member => some member.2) =
      members := by
    clear distinct
    induction members with
    | nil => rfl
    | cons member members induction =>
        rw [List.map_cons, List.map_cons, present, induction]
        rfl
  have fields := fields?_present distinct (members.map fun member => some member.2) (by simp)
    [] nofun
  rwa [List.nil_append, whole] at fields

section Records

variable {written host port uptime clients messages : Json}

theorem ServerInfo.ofJson?_of_fields {info : ServerInfo}
    (fields : written.fields? ["host", "port", "uptime", "total_clients"] =
      some [some host, some port, some uptime, some clients])
    (isHost : string? host = some info.host) (isPort : port? port = some info.port)
    (isUptime : real? uptime = some info.uptime)
    (isCount : count? clients = some info.totalClients) :
    ServerInfo.ofJson? written = some info := by
  simp [ofJson?, fields, required, isHost, isPort, isUptime, isCount]

theorem Statistics.ofJson?_of_fields {stats : Statistics}
    (fields : written.fields? ["connected_clients", "total_messages", "uptime_seconds",
        "server_host", "server_port"] =
      some [some clients, some messages, some uptime, some host, some port])
    (isCount : count? clients = some stats.connectedClients)
    (isTotal : count? messages = some stats.totalMessages)
    (isUptime : real? uptime = some stats.uptime)
    (isHost : string? host = some stats.host) (isPort : port? port = some stats.port) :
    Statistics.ofJson? written = some stats := by
  simp [ofJson?, fields, required, isCount, isTotal, isUptime, isHost, isPort]

theorem ServerStatistics.ofJson?_of_fields {stats : ServerStatistics}
    (fields : written.fields? ["connected_clients", "total_messages", "uptime"] =
      some [some clients, some messages, some uptime])
    (isCount : count? clients = some stats.connectedClients)
    (isTotal : count? messages = some stats.totalMessages)
    (isUptime : real? uptime = some stats.uptime) :
    ServerStatistics.ofJson? written = some stats := by
  simp [ofJson?, fields, required, isCount, isTotal, isUptime]

end Records

theorem ServerInfo.ofJson?_toJson (info : ServerInfo) :
    ServerInfo.ofJson? info.toJson = some info :=
  ofJson?_of_fields (fields?_ofMembers (by simp)) rfl (port?_port _) rfl (count?_count _)

theorem Statistics.ofJson?_toJson (stats : Statistics) :
    Statistics.ofJson? stats.toJson = some stats :=
  ofJson?_of_fields (fields?_ofMembers (by simp)) (count?_count _) (count?_count _) rfl rfl
    (port?_port _)

theorem ServerStatistics.ofJson?_toJson (stats : ServerStatistics) :
    ServerStatistics.ofJson? stats.toJson = some stats :=
  ofJson?_of_fields (fields?_ofMembers (by simp)) (count?_count _) (count?_count _) rfl

namespace Envelope

def payload? : Envelope → Option Json
  | .pong answered .. | .echoResponse answered .. => some answered
  | .broadcast message .. => some message
  | .welcome .. | .broadcastConfirm .. | .statsResponse .. | .periodicUpdate ..
  | .error .. => none

def uptime? : Envelope → Option Double
  | .welcome _ info _ => some info.uptime
  | .statsResponse stats _ => some stats.uptime
  | .periodicUpdate _ stats _ => some stats.uptime
  | .pong .. | .echoResponse .. | .broadcast .. | .broadcastConfirm .. | .error .. => none

def reals (envelope : Envelope) : List Double :=
  envelope.uptime?.toList ++ envelope.payload?.toList.flatMap Json.reals

def payloadDepth : Nat := maximalDepth - 1

def reread? : Envelope → Option Envelope
  | .welcome message info timestamp =>
      info.uptime.reread?.map fun uptime => .welcome message { info with uptime } timestamp
  | .pong answered timestamp messageCount =>
      (answered.reread? payloadDepth).map fun answered =>
        .pong answered timestamp messageCount
  | .echoResponse answered timestamp messageCount =>
      (answered.reread? payloadDepth).map fun answered =>
        .echoResponse answered timestamp messageCount
  | .broadcast message sender timestamp totalClients =>
      (message.reread? payloadDepth).map fun message =>
        .broadcast message sender timestamp totalClients
  | .broadcastConfirm message recipients timestamp =>
      some (.broadcastConfirm message recipients timestamp)
  | .statsResponse stats timestamp =>
      stats.uptime.reread?.map fun uptime => .statsResponse { stats with uptime } timestamp
  | .periodicUpdate message stats timestamp =>
      stats.uptime.reread?.map fun uptime =>
        .periodicUpdate message { stats with uptime } timestamp
  | .error message received supportedTypes timestamp =>
      some (.error message received supportedTypes timestamp)

def fields : Envelope → List (Option Json)
  | .welcome message info timestamp =>
      [some (.string message), some info.toJson, some (.string timestamp)]
  | .pong answered timestamp messageCount | .echoResponse answered timestamp messageCount =>
      [some answered, some (.string timestamp), some (.count messageCount)]
  | .broadcast message sender timestamp totalClients =>
      [some message, some (.string sender), some (.string timestamp),
        some (.count totalClients)]
  | .broadcastConfirm message recipients timestamp =>
      [some (.string message), some (.count recipients), some (.string timestamp)]
  | .statsResponse stats timestamp => [some stats.toJson, some (.string timestamp)]
  | .periodicUpdate message stats timestamp =>
      [some (.string message), some stats.toJson, some (.string timestamp)]
  | .error message received supportedTypes timestamp =>
      [some (.string message), received.map .string, supportedTypes.map strings,
        some (.string timestamp)]

theorem members_eq_present (envelope : Envelope) :
    ∃ names, fieldNames? envelope.kind = some names ∧ ("type" :: names).Nodup ∧
      names.length = envelope.fields.length ∧
      envelope.members = present names envelope.fields := by
  cases envelope with
  | error message received supportedTypes timestamp =>
      refine ⟨["message", "received", "supported_types", "timestamp"], rfl, by decide, rfl,
        ?_⟩
      cases received <;> cases supportedTypes <;> rfl
  | _ => exact ⟨_, rfl, by decide, rfl, rfl⟩

theorem optional_string (value : Option String) :
    optional string? (value.map .string) = some value := by
  cases value <;> rfl

theorem optional_strings (values : Option (List String)) :
    optional strings? (values.map strings) = some values := by
  cases values with
  | none => rfl
  | some values =>
      change (strings? (strings values)).map some = _
      rw [strings?_strings]
      rfl

theorem ofFields?_welcome {written : Json} {info : ServerInfo}
    (read : ServerInfo.ofJson? written = some info) (message timestamp : String) :
    ofFields? "welcome" [some (.string message), some written, some (.string timestamp)] =
      some (.welcome message info timestamp) := by
  simp [ofFields?, required, read]

theorem ofFields?_statsResponse {written : Json} {stats : Statistics}
    (read : Statistics.ofJson? written = some stats) (timestamp : String) :
    ofFields? "stats_response" [some written, some (.string timestamp)] =
      some (.statsResponse stats timestamp) := by
  simp [ofFields?, required, read]

theorem ofFields?_periodicUpdate {written : Json} {stats : ServerStatistics}
    (read : ServerStatistics.ofJson? written = some stats) (message timestamp : String) :
    ofFields? "periodic_update" [some (.string message), some written,
      some (.string timestamp)] = some (.periodicUpdate message stats timestamp) := by
  simp [ofFields?, required, read]

theorem ofFields?_fields {envelope : Envelope}
    (normal : ∀ payload, envelope.payload? = some payload → payload.IsNormal) :
    ofFields? envelope.kind envelope.fields = some envelope := by
  have same : ∀ payload, envelope.payload? = some payload →
      anything payload = some payload := by
    intro payload carried
    exact congrArg some (payload.normalize_of_isNormal (normal payload carried))
  cases envelope with
  | welcome message info timestamp =>
      exact ofFields?_welcome info.ofJson?_toJson message timestamp
  | pong answered timestamp messageCount | echoResponse answered timestamp messageCount =>
      rw [kind, fields]
      simp [ofFields?, required, same answered rfl]
  | broadcast message sender timestamp totalClients =>
      rw [kind, fields]
      simp [ofFields?, required, same message rfl]
  | broadcastConfirm message recipients timestamp =>
      rw [kind, fields]
      simp [ofFields?, required]
  | statsResponse stats timestamp =>
      exact ofFields?_statsResponse stats.ofJson?_toJson timestamp
  | periodicUpdate message stats timestamp =>
      exact ofFields?_periodicUpdate stats.ofJson?_toJson message timestamp
  | error message received supportedTypes timestamp =>
      rw [kind, fields]
      simp [ofFields?, required, optional_string, optional_strings]

theorem ofJson?_toJson {envelope : Envelope}
    (normal : ∀ payload, envelope.payload? = some payload → payload.IsNormal) :
    ofJson? envelope.toJson = some envelope := by
  rcases envelope.members_eq_present with ⟨names, isKind, distinct, sameLength, present⟩
  rcases List.nodup_cons.mp distinct with ⟨noType, namesDistinct⟩
  have fields : envelope.toJson.fields? names = some envelope.fields := by
    rw [toJson, present]
    apply fields?_present namesDistinct envelope.fields sameLength
      [("type", .string envelope.kind)]
    intro member inFront
    rw [List.mem_singleton.mp inFront]
    exact noType
  have tagged : tagged? envelope.toJson = some (envelope.kind, envelope.toJson) := by
    have noOther : (Members.ofList envelope.members).valuesOf "type" = [] := by
      rw [present]
      apply Members.valuesOf_of_absent
      intro member isPresent same
      exact noType (same ▸ mem_names_of_present isPresent)
    simp [toJson, tagged?, ofMembers, Members.ofList, Members.valuesOf, noOther]
  simp only [ofJson?, tagged]
  simp [isKind, fields, ofFields?_fields normal]

/-! ## Texts -/

section Rereading

variable (levels : Nat)

@[simp] theorem reread?_string (value : String) :
    (Json.string value).reread? levels = some (.string value) := by
  rw [Json.reread?]

@[simp] theorem reread?_count (value : UInt64) :
    (Json.count value).reread? levels = some (.count value) := by
  rw [Json.count, Json.reread?]
  rfl

@[simp] theorem reread?_port (value : UInt16) :
    (Json.port value).reread? levels = some (.port value) := by
  rw [Json.port, Json.reread?]
  rfl

@[simp] theorem reread?_real (value : Double) :
    (Json.real value).reread? levels = value.reread?.map .real := by
  rw [Json.real, Json.reread?, Number.reread?, Option.map_map]
  rfl

@[simp] theorem reread?_strings (values : List String) :
    (strings values).reread? (levels + 1) = some (strings values) := by
  have elements : (Elements.ofList (values.map Json.string)).reread? levels =
      some (Elements.ofList (values.map Json.string)) := by
    induction values with
    | nil => rfl
    | cons value values induction =>
        rw [List.map_cons, Elements.ofList, Elements.reread?, reread?_string, induction]
        rfl
  rw [strings, Json.reread?, elements]
  rfl

@[simp] theorem reread?_ofMembers (members : List (String × Json)) :
    (ofMembers members).reread? (levels + 1) =
      ((Members.ofList members).reread? levels).map .object := by
  rw [ofMembers, Json.reread?]

theorem reread?_ofList_of_kept {members : List (String × Json)}
    (kept : ∀ member ∈ members, member.2.reread? levels = some member.2) :
    (Members.ofList members).reread? levels = some (.ofList members) := by
  induction members with
  | nil => rfl
  | cons member members induction =>
      rcases List.forall_mem_cons.mp kept with ⟨first, later⟩
      rw [Members.ofList, Members.reread?, first, induction later]
      rfl

/-- Of a block only its binary number can be read as another one. -/
theorem reread?_block (front : List (String × Json)) (name : String) (number : Double)
    (back : List (String × Json))
    (kept : ∀ member ∈ front ++ back, member.2.reread? levels = some member.2) :
    (ofMembers (front ++ (name, .real number) :: back)).reread? (levels + 1) =
      number.reread?.map fun read => ofMembers (front ++ (name, .real read) :: back) := by
  have members : (Members.ofList (front ++ (name, .real number) :: back)).reread? levels =
      number.reread?.map fun read => .ofList (front ++ (name, .real read) :: back) := by
    induction front with
    | nil =>
        rw [List.nil_append] at kept
        rw [List.nil_append, Members.ofList, Members.reread?, reread?_real,
          reread?_ofList_of_kept levels kept]
        cases number.reread? <;> rfl
    | cons member front induction =>
        rcases List.forall_mem_cons.mp kept with ⟨first, later⟩
        rw [List.cons_append, Members.ofList, Members.reread?, first, Option.bind_some,
          induction later, Option.map_map]
        rfl
  rw [reread?_ofMembers, members, Option.map_map]
  rfl

end Rereading

theorem reread?_toJson (envelope : Envelope) :
    envelope.toJson.reread? maximalDepth = envelope.reread?.map toJson := by
  rw [toJson]
  change (ofMembers _).reread? (payloadDepth + 1) = _
  rw [reread?_ofMembers]
  cases envelope with
  | welcome message info timestamp =>
      have inner : info.toJson.reread? payloadDepth = _ :=
        reread?_block 125 [("host", .string info.host), ("port", .port info.port)] "uptime"
          info.uptime [("total_clients", .count info.totalClients)] (by simp)
      simp only [members, Members.ofList, Members.reread?, reread?_string, inner, reread?]
      cases info.uptime.reread? <;> rfl
  | pong answered timestamp messageCount | echoResponse answered timestamp messageCount =>
      simp only [members, Members.ofList, Members.reread?, reread?_string, reread?_count,
        reread?]
      cases answered.reread? payloadDepth <;> rfl
  | broadcast message sender timestamp totalClients =>
      simp only [members, Members.ofList, Members.reread?, reread?_string, reread?_count,
        reread?]
      cases message.reread? payloadDepth <;> rfl
  | broadcastConfirm message recipients timestamp =>
      simp only [members, Members.ofList, Members.reread?, reread?_string, reread?_count,
        reread?]
      rfl
  | statsResponse stats timestamp =>
      have inner : stats.toJson.reread? payloadDepth = _ :=
        reread?_block 125 [("connected_clients", .count stats.connectedClients),
          ("total_messages", .count stats.totalMessages)] "uptime_seconds" stats.uptime
          [("server_host", .string stats.host), ("server_port", .port stats.port)] (by simp)
      simp only [members, Members.ofList, Members.reread?, reread?_string, inner, reread?]
      cases stats.uptime.reread? <;> rfl
  | periodicUpdate message stats timestamp =>
      have inner : stats.toJson.reread? payloadDepth = _ :=
        reread?_block 125 [("connected_clients", .count stats.connectedClients),
          ("total_messages", .count stats.totalMessages)] "uptime" stats.uptime [] (by simp)
      simp only [members, Members.ofList, Members.reread?, reread?_string, inner, reread?]
      cases stats.uptime.reread? <;> rfl
  | error message received supportedTypes timestamp =>
      have inner : ∀ types, (strings types).reread? payloadDepth = some (strings types) :=
        reread?_strings 125
      cases received <;> cases supportedTypes <;>
        simp only [members, Option.map_none, Option.map_some, Option.toList_none,
          Option.toList_some, List.cons_append, List.nil_append, Members.ofList,
          Members.reread?, reread?_string, inner, reread?] <;> rfl

theorem isNormal_of_reread? {envelope read : Envelope}
    (reread : envelope.reread? = some read)
    (normal : ∀ payload, envelope.payload? = some payload → payload.IsNormal) :
    ∀ payload, read.payload? = some payload → payload.IsNormal := by
  intro payload carried
  cases envelope with
  | pong answered timestamp messageCount | echoResponse answered timestamp messageCount =>
      rcases Option.map_eq_some_iff.mp reread with ⟨value, valueRead, same⟩
      cases same
      cases carried
      exact answered.isNormal_of_reread? valueRead (normal answered rfl)
  | broadcast message sender timestamp totalClients =>
      rcases Option.map_eq_some_iff.mp reread with ⟨value, valueRead, same⟩
      cases same
      cases carried
      exact message.isNormal_of_reread? valueRead (normal message rfl)
  | broadcastConfirm message recipients timestamp | error message received types timestamp =>
      cases reread
      cases carried
  | welcome message info timestamp | statsResponse info timestamp
  | periodicUpdate message info timestamp =>
      rcases Option.map_eq_some_iff.mp reread with ⟨uptime, _, same⟩
      cases same
      cases carried

/-- The text of an envelope is read as `reread?` says. -/
theorem parse?_encode_eq_reread? {envelope : Envelope}
    (normal : ∀ payload, envelope.payload? = some payload → payload.IsNormal) :
    parse? envelope.encode = envelope.reread? := by
  change (Json.parse? (String.ofList envelope.toJson.text).toList).bind ofJson? = _
  rw [String.toList_ofList, Json.parse?_text, reread?_toJson]
  cases reread : envelope.reread? with
  | none => rfl
  | some read => exact ofJson?_toJson (isNormal_of_reread? reread normal)

theorem reread?_eq_self_iff (envelope : Envelope) :
    envelope.reread? = some envelope ↔
      (∀ payload, envelope.payload? = some payload → payload.depth ≤ payloadDepth) ∧
        ∀ real ∈ envelope.reals, real.ReadsBack := by
  cases envelope with
  | pong answered timestamp messageCount | echoResponse answered timestamp messageCount =>
      have inner := answered.reread?_eq_self_iff payloadDepth
      simp only [reread?, payload?, reals, uptime?, Option.map_eq_some_iff]
      simp [inner]
  | broadcast message sender timestamp totalClients =>
      have inner := message.reread?_eq_self_iff payloadDepth
      simp only [reread?, payload?, reals, uptime?, Option.map_eq_some_iff]
      simp [inner]
  | broadcastConfirm message recipients timestamp | error message received types timestamp =>
      simp [reread?, payload?, reals, uptime?]
  | welcome message info timestamp | statsResponse info timestamp
  | periodicUpdate message info timestamp =>
      cases info
      simp [reread?, payload?, reals, uptime?, Double.readsBack_iff]

/-- Every envelope is read back from its text if its payload leaves one level for
the object around it and its binary numbers are read back. A payload is normal in
every envelope: objects keep their members in the order of the keys, and what
comes from a client has been normalized. -/
theorem parse?_encode {envelope : Envelope}
    (normal : ∀ payload, envelope.payload? = some payload → payload.IsNormal)
    (shallow : ∀ payload, envelope.payload? = some payload → payload.depth ≤ payloadDepth)
    (readBack : ∀ real ∈ envelope.reals, real.ReadsBack) :
    parse? envelope.encode = some envelope := by
  rw [parse?_encode_eq_reread? normal]
  exact envelope.reread?_eq_self_iff.mpr ⟨shallow, readBack⟩

def deepestPayload : Json :=
  Nat.repeat (fun value => .array (.ofList [value])) 123
    (.object (.ofList [("", .null), ("\"\\\n", .string "\x00/é😀"),
      ("a", .array (.ofList [.boolean true,
        .number (.integer (-0x8000000000000000) (by decide)),
        .number (.integer 0xffffffffffffffff (by decide)),
        .number (.real ⟨true, 0x3fb999999999999a, by decide⟩), .object .nil])),
      ("ä", .string "")]))

theorem parse?_encode_deepestPayload :
    deepestPayload.IsNormal ∧ deepestPayload.depth = payloadDepth ∧
      (∀ real ∈ deepestPayload.reals, real.ReadsBack) ∧
      parse? (encode (.pong deepestPayload "2024-01-01T00:00:00Z" 7)) =
        some (.pong deepestPayload "2024-01-01T00:00:00Z" 7) := by
  have normal : deepestPayload.IsNormal := by decide +kernel
  have depth : deepestPayload.depth = payloadDepth := by decide +kernel
  have readBack : ∀ real ∈ deepestPayload.reals, real.ReadsBack := by decide +kernel
  refine ⟨normal, depth, readBack, parse?_encode ?_ ?_ ?_⟩
  · intro payload carried
    cases carried
    exact normal
  · intro payload carried
    cases carried
    exact Nat.le_of_eq depth
  · intro real member
    exact readBack real (by simpa [reals, uptime?, payload?] using member)

end Envelope

end Relay
