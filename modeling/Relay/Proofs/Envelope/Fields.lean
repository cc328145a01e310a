import Relay.Proofs.Envelope.Values

namespace Relay

/-! The fields of the envelopes: their names for every kind of envelope, and what may be
written as their values. A field with figures of the server is a block with fields of its
own. An object is read as an envelope exactly if its type is written once and names a kind,
and if every field of this kind has a value of its type. -/

open Json

namespace Envelope

/-! ## Types of fields -/

inductive FieldType where
  | text
  | port
  | count
  | real
  | anything
  | optionalText
  | optionalTexts

/-- What is kept of the values that are written for a field, `none` for a field that is
left out. An optional field may also be null. -/
inductive FieldType.Reads : FieldType → List Phrase → Option Json → Prop
  | text {value} : Reads .text [.string value] (some (.string value))
  | port {digits} {number : UInt16} : Nat.ofDigitChars 10 digits 0 = number.toNat →
      Reads .port [.digits digits] (some (.port number))
  | count {digits} {number : UInt64} : Nat.ofDigitChars 10 digits 0 = number.toNat →
      Reads .count [.digits digits] (some (.count number))
  | real {literal} : Reads .real [.number literal] (some (.real literal.rounded))
  | anything {phrase} : Reads .anything [phrase] (some phrase.normalized)
  | noText : Reads .optionalText [] none
  | nullText : Reads .optionalText [.null] none
  | someText {value} : Reads .optionalText [.string value] (some (.string value))
  | noTexts : Reads .optionalTexts [] none
  | nullTexts : Reads .optionalTexts [.null] none
  | someTexts {values} : Reads .optionalTexts [.array (.strings values)] (some (strings values))

/-- What is kept of a given value, `none` for a field that is kept away. Nothing is kept if
the value is not of the type. -/
def FieldType.keep? (type : FieldType) (given : Option Json) : Option (Option Json) :=
  match type with
  | .text => (required string? given).map fun text => some (.string text)
  | .port => (required port? given).map fun number => some (.port number)
  | .count => (required count? given).map fun number => some (.count number)
  | .real => (required real? given).map fun number => some (.real number)
  | .anything => (required Json.anything given).map some
  | .optionalText => (optional string? given).map (Option.map .string)
  | .optionalTexts => (optional strings? given).map (Option.map strings)

namespace FieldType

theorem reads_singleton_iff {type : FieldType} {phrase : Phrase} {value : Json}
    {kept : Option Json} (stands : phrase.value? = some value) :
    type.Reads [phrase] kept ↔ type.keep? (some value) = some kept := by
  cases type with
  | text =>
      simp only [keep?, required, Option.bind_some, Option.map_eq_some_iff,
        Phrase.string?_iff stands]
      constructor
      · intro reads
        cases reads
        exact ⟨_, rfl, rfl⟩
      · rintro ⟨text, rfl, rfl⟩
        exact .text
  | port =>
      simp only [keep?, required, Option.bind_some, Option.map_eq_some_iff,
        Phrase.port?_iff stands]
      constructor
      · intro reads
        cases reads with
        | port isNumber => exact ⟨_, ⟨_, rfl, isNumber⟩, rfl⟩
      · rintro ⟨number, ⟨digits, rfl, isNumber⟩, rfl⟩
        exact .port isNumber
  | count =>
      simp only [keep?, required, Option.bind_some, Option.map_eq_some_iff,
        Phrase.count?_iff stands]
      constructor
      · intro reads
        cases reads with
        | count isNumber => exact ⟨_, ⟨_, rfl, isNumber⟩, rfl⟩
      · rintro ⟨number, ⟨digits, rfl, isNumber⟩, rfl⟩
        exact .count isNumber
  | real =>
      simp only [keep?, required, Option.bind_some, Option.map_eq_some_iff,
        Phrase.real?_iff stands]
      constructor
      · intro reads
        cases reads with
        | real => exact ⟨_, ⟨_, rfl, rfl⟩, rfl⟩
      · rintro ⟨real, ⟨literal, rfl, rfl⟩, rfl⟩
        exact .real
  | anything =>
      have same : phrase.normalized = value.normalize := by
        rw [Phrase.normalized, stands, Option.getD_some]
      simp only [keep?, required, Option.bind_some, Json.anything, Option.map_some,
        Option.some.injEq, ← same]
      constructor
      · intro reads
        cases reads
        rfl
      · rintro rfl
        exact .anything
  | optionalText =>
      rw [keep?, optional_eq_some_iff rfl, Phrase.eq_null_iff stands]
      constructor
      · intro reads
        cases reads with
        | nullText => exact .inl ⟨rfl, rfl⟩
        | someText => exact .inr ⟨_, (Phrase.string?_iff stands).mpr rfl, rfl⟩
      · rintro (⟨rfl, rfl⟩ | ⟨text, isText, rfl⟩)
        · exact .nullText
        · rw [(Phrase.string?_iff stands).mp isText]
          exact .someText
  | optionalTexts =>
      rw [keep?, optional_eq_some_iff rfl, Phrase.eq_null_iff stands]
      constructor
      · intro reads
        cases reads with
        | nullTexts => exact .inl ⟨rfl, rfl⟩
        | someTexts => exact .inr ⟨_, (Phrase.strings?_iff stands).mpr rfl, rfl⟩
      · rintro (⟨rfl, rfl⟩ | ⟨texts, areTexts, rfl⟩)
        · exact .nullTexts
        · rw [(Phrase.strings?_iff stands).mp areTexts]
          exact .someTexts

theorem reads_nil_iff {type : FieldType} {kept : Option Json} :
    type.Reads [] kept ↔ type.keep? none = some kept := by
  cases type with
  | text | port | count | real | anything =>
      exact iff_of_false (fun reads => by cases reads) (fun same => by cases same)
  | optionalText =>
      constructor
      · intro reads
        cases reads
        rfl
      · intro same
        cases same
        exact .noText
  | optionalTexts =>
      constructor
      · intro reads
        cases reads
        rfl
      · intro same
        cases same
        exact .noTexts

theorem length_le_of_reads {type : FieldType} {phrases : List Phrase} {kept : Option Json}
    (reads : type.Reads phrases kept) : phrases.length ≤ 1 := by
  cases reads <;> simp

end FieldType

/-! ## Records -/

section Records

variable {σ : Type}

def ReadEach (Reads : σ → List Phrase → Option Json → Prop) (fields : List (String × σ))
    (entries : List (String × Phrase)) (kept : List (Option Json)) : Prop :=
  List.Forall₂ (fun field value => Reads field.2 (valuesOf field.1 entries) value) fields kept

def keepAll? (keep? : σ → Option Json → Option (Option Json)) :
    List (String × σ) → List (Option Json) → Option (List (Option Json))
  | (_, type) :: fields, value :: given => do
      return (← keep? type value) :: (← keepAll? keep? fields given)
  | [], [] => some []
  | _, _ => none

variable {Reads : σ → List Phrase → Option Json → Prop}
  {keep? : σ → Option Json → Option (Option Json)}

theorem keepAll?_cons_eq_some_iff {field : String × σ} {fields : List (String × σ)}
    {value : Option Json} {given kept : List (Option Json)} :
    keepAll? keep? (field :: fields) (value :: given) = some kept ↔
      ∃ first later, keep? field.2 value = some first ∧
        keepAll? keep? fields given = some later ∧ first :: later = kept := by
  simp [keepAll?, Option.bind_eq_some_iff]

theorem keepAll?_fields?_eq_some_iff {fields : List (String × σ)} {members : Members}
    {kept : List (Option Json)} :
    ((Json.object members).fields? (fields.map Prod.fst)).bind (keepAll? keep? fields) =
        some kept ↔
      List.Forall₂ (fun field value =>
        (once? (members.valuesOf field.1)).bind (keep? field.2) = some value) fields kept := by
  simp only [fields?_object]
  induction fields generalizing kept with
  | nil => simp [keepAll?, eq_comm]
  | cons field fields induction =>
      rw [List.forall₂_cons_left_iff]
      simp only [← induction]
      simp only [List.map_cons, List.mapM_cons, bind, pure, Option.bind_eq_some_iff,
        Option.some.injEq]
      constructor
      · rintro ⟨_, ⟨value, once, given, others, rfl⟩, areKept⟩
        rcases keepAll?_cons_eq_some_iff.mp areKept with ⟨first, later, isFirst, areLater, rfl⟩
        exact ⟨first, later, ⟨value, once, isFirst⟩, ⟨given, others, areLater⟩, rfl⟩
      · rintro ⟨first, later, ⟨value, once, isFirst⟩, ⟨given, others, areLater⟩, rfl⟩
        exact ⟨_, ⟨value, once, given, others, rfl⟩,
          keepAll?_cons_eq_some_iff.mpr ⟨first, later, isFirst, areLater, rfl⟩⟩

/-- Of a field that occurs once or not at all, a record keeps what its value allows. -/
theorem reads_iff_of_once {type : σ}
    (length_le : ∀ {phrases kept}, Reads type phrases kept → phrases.length ≤ 1)
    (reads_nil : ∀ {kept}, Reads type [] kept ↔ keep? type none = some kept)
    {phrases : List Phrase} {values : List Json}
    (reads_singleton : ∀ {phrase value kept}, phrases = [phrase] → phrase.value? = some value →
      (Reads type [phrase] kept ↔ keep? type (some value) = some kept))
    (stand : List.Forall₂ (fun phrase value => phrase.value? = some value) phrases values)
    (kept : Option Json) :
    Reads type phrases kept ↔ (once? values).bind (keep? type) = some kept := by
  cases stand with
  | nil => exact reads_nil
  | cons stands others =>
      cases others with
      | nil => exact reads_singleton rfl stands
      | cons _ _ =>
          refine iff_of_false (fun reads => ?_) (by simp [once?])
          have atMost := length_le reads
          simp at atMost

theorem readEach_iff {fields : List (String × σ)} {entries : Entries} {members : Members}
    (reads_iff : ∀ field ∈ fields, ∀ kept,
      Reads field.2 (valuesOf field.1 entries.toList) kept ↔
        (once? (members.valuesOf field.1)).bind (keep? field.2) = some kept)
    (kept : List (Option Json)) :
    ReadEach Reads fields entries.toList kept ↔
      ((Json.object members).fields? (fields.map Prod.fst)).bind (keepAll? keep? fields) =
        some kept := by
  rw [keepAll?_fields?_eq_some_iff, ReadEach]
  induction fields generalizing kept with
  | nil => simp
  | cons field fields induction =>
      have others := induction fun other later => reads_iff other (List.mem_cons_of_mem _ later)
      simp only [List.forall₂_cons_left_iff, others, reads_iff field List.mem_cons_self]

end Records

theorem FieldType.readEach_iff (fields : List (String × FieldType)) {entries : Entries}
    {members : Members} (stands : entries.value? = some members) (kept : List (Option Json)) :
    ReadEach Reads fields entries.toList kept ↔
      ((Json.object members).fields? (fields.map Prod.fst)).bind (keepAll? keep? fields) =
        some kept := by
  apply Envelope.readEach_iff
  intro field _ kept
  exact reads_iff_of_once length_le_of_reads reads_nil_iff (fun _ => reads_singleton_iff)
    (entries.forall₂_valuesOf field.1 stands) kept

/-! ## Blocks -/

inductive Slot where
  | field (type : FieldType)
  | block (fields : List (String × FieldType))

def block? (fields : List (String × FieldType)) (value : Json) : Option (Option Json) := do
  let given ← value.fields? (fields.map Prod.fst)
  let kept ← keepAll? FieldType.keep? fields given
  return some (ofMembers (present (fields.map Prod.fst) kept))

inductive Slot.Reads : Slot → List Phrase → Option Json → Prop
  | field {type phrases kept} : type.Reads phrases kept → Reads (.field type) phrases kept
  | block {fields inner kept} : ReadEach FieldType.Reads fields inner.toList kept →
      Reads (.block fields) [.object inner]
        (some (ofMembers (present (fields.map Prod.fst) kept)))

def Slot.keep? : Slot → Option Json → Option (Option Json)
  | .field type, given => type.keep? given
  | .block fields, given => required (block? fields) given

theorem block?_object_eq_some_iff {fields : List (String × FieldType)} {inner : Entries}
    {members : Members} (stands : inner.value? = some members) {kept : Option Json} :
    block? fields (.object members) = some kept ↔
      ∃ values, ReadEach FieldType.Reads fields inner.toList values ∧
        some (ofMembers (present (fields.map Prod.fst) values)) = kept := by
  simp only [FieldType.readEach_iff fields stands, block?, bind, pure, Option.bind_eq_some_iff,
    Option.some.injEq]
  constructor
  · rintro ⟨given, isGiven, values, areKept, same⟩
    exact ⟨values, ⟨given, isGiven, areKept⟩, same⟩
  · rintro ⟨values, ⟨given, isGiven, areKept⟩, same⟩
    exact ⟨given, isGiven, values, areKept, same⟩

namespace Slot

theorem reads_field_iff {type : FieldType} {phrases : List Phrase} {kept : Option Json} :
    Reads (.field type) phrases kept ↔ type.Reads phrases kept := by
  constructor
  · intro reads
    cases reads with
    | field reads => exact reads
  · exact .field

theorem reads_block_iff {fields : List (String × FieldType)} {phrases : List Phrase}
    {kept : Option Json} :
    Reads (.block fields) phrases kept ↔
      ∃ inner values, phrases = [.object inner] ∧
        ReadEach FieldType.Reads fields inner.toList values ∧
          some (ofMembers (present (fields.map Prod.fst) values)) = kept := by
  constructor
  · intro reads
    cases reads with
    | block each => exact ⟨_, _, rfl, each, rfl⟩
  · rintro ⟨inner, values, rfl, each, rfl⟩
    exact .block each

theorem length_le_of_reads {slot : Slot} {phrases : List Phrase} {kept : Option Json}
    (reads : slot.Reads phrases kept) : phrases.length ≤ 1 := by
  cases reads with
  | field reads => exact FieldType.length_le_of_reads reads
  | block _ => exact Nat.le_refl 1

theorem reads_nil_iff {slot : Slot} {kept : Option Json} :
    slot.Reads [] kept ↔ slot.keep? none = some kept := by
  cases slot with
  | field type => rw [reads_field_iff, keep?, FieldType.reads_nil_iff]
  | block fields =>
      exact iff_of_false (fun reads => by cases reads) (fun same => by cases same)

theorem reads_singleton_iff {slot : Slot} {phrase : Phrase} {value : Json}
    {kept : Option Json} (noList : ∀ fields, slot = .block fields → phrase.kind ≠ "array")
    (stands : phrase.value? = some value) :
    slot.Reads [phrase] kept ↔ slot.keep? (some value) = some kept := by
  cases slot with
  | field type => rw [reads_field_iff, keep?, FieldType.reads_singleton_iff stands]
  | block fields =>
      rw [reads_block_iff, keep?, required, Option.bind_some]
      cases value with
      | object members =>
          rcases Phrase.value?_eq_object_iff.mp stands with ⟨inner, rfl, innerStands⟩
          rw [block?_object_eq_some_iff innerStands]
          simp
      | array elements =>
          exact absurd (Phrase.kind_of_value? stands).symm (noList fields rfl)
      | null | boolean _ | number _ | string _ =>
          refine iff_of_false ?_ (fun same => by cases same)
          rintro ⟨inner, _, same, _⟩
          cases same
          simp [Phrase.value?] at stands

end Slot

def infoFields : List (String × FieldType) :=
  [("host", .text), ("port", .port), ("uptime", .real), ("total_clients", .count)]

def statisticsFields : List (String × FieldType) :=
  [("connected_clients", .count), ("total_messages", .count), ("uptime_seconds", .real),
    ("server_host", .text), ("server_port", .port)]

def serverStatisticsFields : List (String × FieldType) :=
  [("connected_clients", .count), ("total_messages", .count), ("uptime", .real)]

def schema? (kind : String) : Option (List (String × Slot)) :=
  if kind = "welcome" then
    some [("message", .field .text), ("server_info", .block infoFields),
      ("timestamp", .field .text)]
  else if kind = "pong" then
    some [("original_message", .field .anything), ("server_time", .field .text),
      ("message_count", .field .count)]
  else if kind = "echo_response" then
    some [("original_message", .field .anything), ("echoed_at", .field .text),
      ("message_count", .field .count)]
  else if kind = "broadcast" then
    some [("message", .field .anything), ("sender", .field .text),
      ("timestamp", .field .text), ("total_clients", .field .count)]
  else if kind = "broadcast_confirm" then
    some [("message", .field .text), ("recipients", .field .count),
      ("timestamp", .field .text)]
  else if kind = "stats_response" then
    some [("stats", .block statisticsFields), ("timestamp", .field .text)]
  else if kind = "periodic_update" then
    some [("message", .field .text), ("server_stats", .block serverStatisticsFields),
      ("timestamp", .field .text)]
  else if kind = "error" then
    some [("message", .field .text), ("received", .field .optionalText),
      ("supported_types", .field .optionalTexts), ("timestamp", .field .text)]
  else none

theorem fieldNames?_eq (kind : String) :
    fieldNames? kind = (schema? kind).map (List.map Prod.fst) := by
  unfold fieldNames? schema?
  split_ifs <;> rfl

section Blocks

variable (value : Json)

/-- A block is read by its fields if what they keep is what the record is written as. -/
theorem block?_eq_map {ρ : Type} {fields : List (String × FieldType)}
    {ofFields? : List (Option Json) → Option ρ} {toJson : ρ → Json}
    (same : ∀ given, given.length = fields.length →
      (keepAll? FieldType.keep? fields given).map
          (fun kept => ofMembers (present (fields.map Prod.fst) kept)) =
        (ofFields? given).map toJson) :
    block? fields value =
      ((value.fields? (fields.map Prod.fst)).bind ofFields?).map fun record =>
        some (toJson record) := by
  cases isGiven : value.fields? (fields.map Prod.fst) with
  | none => simp [block?, isGiven]
  | some given =>
      have size := length_of_fields? isGiven
      rw [List.length_map] at size
      have isKept := congrArg (Option.map some) (same given size)
      simpa [block?, isGiven, Option.map_eq_bind, Option.bind_assoc] using isKept

theorem block?_info :
    block? infoFields value =
      (ServerInfo.ofJson? value).map fun info => some info.toJson := by
  refine block?_eq_map value fun given size => ?_
  rcases given with _ | ⟨host, _ | ⟨port, _ | ⟨uptime, _ | ⟨clients, _ | _⟩⟩⟩⟩ <;> cases size
  simp [infoFields, keepAll?, FieldType.keep?, Option.map_eq_bind, Option.bind_assoc, present,
    ServerInfo.toJson]

theorem block?_statistics :
    block? statisticsFields value =
      (Statistics.ofJson? value).map fun stats => some stats.toJson := by
  refine block?_eq_map value fun given size => ?_
  rcases given with _ | ⟨clients, _ | ⟨messages, _ | ⟨uptime, _ | ⟨host, _ | ⟨port, _ | _⟩⟩⟩⟩⟩ <;>
    cases size
  simp [statisticsFields, keepAll?, FieldType.keep?, Option.map_eq_bind, Option.bind_assoc,
    present, Statistics.toJson]

theorem block?_serverStatistics :
    block? serverStatisticsFields value =
      (ServerStatistics.ofJson? value).map fun stats => some stats.toJson := by
  refine block?_eq_map value fun given size => ?_
  rcases given with _ | ⟨clients, _ | ⟨messages, _ | ⟨uptime, _ | _⟩⟩⟩ <;> cases size
  simp [serverStatisticsFields, keepAll?, FieldType.keep?, Option.map_eq_bind,
    Option.bind_assoc, present, ServerStatistics.toJson]

theorem required_map {α : Type} {read : Json → Option α} {keep : α → Option Json}
    {block? : Json → Option (Option Json)} (same : ∀ value, block? value = (read value).map keep)
    (given : Option Json) : required block? given = (required read given).map keep := by
  cases given with
  | none => rfl
  | some value => exact same value

end Blocks

theorem ofFields?_eq {kind : String} {fields : List (String × Slot)}
    (isSchema : schema? kind = some fields) {given : List (Option Json)}
    (sameLength : given.length = fields.length) :
    (ofFields? kind given).map (fun envelope => (envelope.kind, envelope.fields)) =
      (keepAll? Slot.keep? fields given).map fun kept => (kind, kept) := by
  unfold schema? at isSchema
  split_ifs at isSchema <;> subst kind <;> cases isSchema <;>
    rcases given with _ | ⟨first, _ | ⟨second, _ | ⟨third, _ | ⟨fourth, _ | _⟩⟩⟩⟩ <;>
    cases sameLength <;>
    simp [ofFields?, keepAll?, Slot.keep?, FieldType.keep?, required_map block?_info,
      required_map block?_statistics, required_map block?_serverStatistics, Option.map_eq_bind,
      Option.bind_assoc, kind, Envelope.fields]

end Envelope

end Relay
