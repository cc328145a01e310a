import Mathlib.Logic.Relation
import Relay.Proofs.Envelope.Fields
import Relay.Proofs.Json.Meaning

namespace Relay

/-! Objects and the envelopes that they are read as. Main statement: every field is read from
the values under its own name, and from nothing else. -/

open Json

theorem Json.eq_iff_of_read {α : Type} {write : α → Json} {read : Json → Option α}
    (back : ∀ value, read (write value) = some value) {left right : α} :
    write left = write right ↔ left = right := by
  refine ⟨fun same => ?_, congrArg write⟩
  simpa [back] using congrArg read same

namespace Envelope

theorem eq_of_fields {left right : Envelope} (sameKind : left.kind = right.kind)
    (sameFields : left.fields = right.fields) : left = right := by
  have stringsInjective : Function.Injective strings :=
    fun _ _ => (eq_iff_of_read strings?_strings).mp
  have stringInjective : Function.Injective Json.string := fun _ _ => Json.string.inj
  cases left <;> cases right <;>
    first
    | exact absurd sameKind (by simp only [kind]; decide)
    | simpa [fields, eq_iff_of_read count?_count, eq_iff_of_read ServerInfo.ofJson?_toJson,
        eq_iff_of_read Statistics.ofJson?_toJson, eq_iff_of_read ServerStatistics.ofJson?_toJson,
        (Option.map_injective stringInjective).eq_iff,
        (Option.map_injective stringsInjective).eq_iff] using sameFields

/-! ## Fields -/

section Records

variable {σ : Type} {Reads : σ → List Phrase → Option Json → Prop} {fields : List (String × σ)}

theorem exists_readEach {entries : List (String × Phrase)}
    (each : ∀ field ∈ fields, ∃ value, Reads field.2 (valuesOf field.1 entries) value) :
    ∃ kept, ReadEach Reads fields entries kept := by
  induction fields with
  | nil => exact ⟨[], .nil⟩
  | cons field fields induction =>
      rcases each field List.mem_cons_self with ⟨value, reads⟩
      rcases induction fun other later => each other (List.mem_cons_of_mem _ later)
        with ⟨kept, others⟩
      exact ⟨value :: kept, .cons reads others⟩

end Records

/-! ## Objects -/

def NoLists (fields : List (String × Slot)) (entries : List (String × Phrase)) : Prop :=
  ∀ name inner, (name, Slot.block inner) ∈ fields →
    ∀ value ∈ valuesOf name entries, value.kind ≠ "array"

theorem Slot.readEach_iff {fields : List (String × Slot)} {entries : Entries}
    {members : Members} (stands : entries.value? = some members)
    (noLists : NoLists fields entries.toList) (kept : List (Option Json)) :
    ReadEach Reads fields entries.toList kept ↔
      ((Json.object members).fields? (fields.map Prod.fst)).bind (keepAll? keep? fields) =
        some kept := by
  apply Envelope.readEach_iff
  rintro ⟨name, slot⟩ isField kept
  refine reads_iff_of_once length_le_of_reads reads_nil_iff ?_
    (entries.forall₂_valuesOf name stands) kept
  intro phrase value kept single
  apply reads_singleton_iff
  rintro inner rfl
  exact noLists name inner isField phrase (by rw [single]; exact List.mem_singleton_self phrase)

/-- The type of an envelope is written once, and each of its fields is what is kept of the
values under its name. -/
structure IsReadFrom (envelope : Envelope) (entries : Entries) : Prop where
  type : valuesOf "type" entries.toList = [.string envelope.kind]
  fields : ∃ fields, schema? envelope.kind = some fields ∧
    ReadEach Slot.Reads fields entries.toList envelope.fields

theorem tagged?_eq_some_iff {entries : Entries} {members : Members}
    (stands : entries.value? = some members) {kind : String} {content : Json} :
    tagged? (.object members) = some (kind, content) ↔
      valuesOf "type" entries.toList = [.string kind] ∧ content = .object members := by
  have typed := entries.forall₂_valuesOf "type" stands
  have sameType : members.valuesOf "type" = [.string kind] ↔
      valuesOf "type" entries.toList = [.string kind] := by
    generalize members.valuesOf "type" = values at typed
    generalize valuesOf "type" entries.toList = phrases at typed
    cases typed with
    | nil => simp
    | cons first others =>
        cases others with
        | nil => simp [Phrase.eq_iff first, Phrase.value?_eq_string_iff]
        | cons _ _ => simp
  rw [← sameType, tagged?]
  split
  · rename_i written single
    simp [single, eq_comm]
  · rename_i noString
    refine iff_of_false (by simp) fun both => ?_
    exact noString kind both.1

section Objects

variable {entries : Entries} {members : Members} (stands : entries.value? = some members)
include stands

theorem exists_ofJson? {kind : String} {fields : List (String × Slot)}
    {kept : List (Option Json)} (typed : valuesOf "type" entries.toList = [.string kind])
    (isSchema : schema? kind = some fields) (noLists : NoLists fields entries.toList)
    (each : ReadEach Slot.Reads fields entries.toList kept) :
    ∃ envelope, ofJson? (.object members) = some envelope ∧ envelope.kind = kind ∧
      envelope.fields = kept := by
  rw [Slot.readEach_iff stands noLists] at each
  rcases Option.bind_eq_some_iff.mp each with ⟨given, isGiven, areKept⟩
  have sameLength : given.length = fields.length := by
    rw [length_of_fields? isGiven, List.length_map]
  have read := ofFields?_eq isSchema sameLength
  rw [areKept, Option.map_some] at read
  rcases Option.map_eq_some_iff.mp read with ⟨envelope, isRead, same⟩
  have tagged := (tagged?_eq_some_iff stands).mpr ⟨typed, rfl⟩
  refine ⟨envelope, ?_, congrArg Prod.fst same, congrArg Prod.snd same⟩
  simp [ofJson?, tagged, fieldNames?_eq, isSchema, isGiven, isRead]

variable (noLists : ∀ kind fields, valuesOf "type" entries.toList = [.string kind] →
  schema? kind = some fields → NoLists fields entries.toList)
include noLists

theorem isReadFrom_of_ofJson? {envelope : Envelope}
    (read : ofJson? (.object members) = some envelope) : envelope.IsReadFrom entries := by
  simp only [ofJson?, bind, Option.bind_eq_some_iff] at read
  rcases read with ⟨⟨kind, content⟩, tagged, names, isKind, given, isGiven, isRead⟩
  rcases (tagged?_eq_some_iff stands).mp tagged with ⟨typed, rfl⟩
  rw [fieldNames?_eq] at isKind
  rcases Option.map_eq_some_iff.mp isKind with ⟨fields, isSchema, rfl⟩
  have sameLength : given.length = fields.length := by
    rw [length_of_fields? isGiven, List.length_map]
  have kept := ofFields?_eq isSchema sameLength
  rw [isRead, Option.map_some] at kept
  rcases Option.map_eq_some_iff.mp kept.symm with ⟨values, areKept, same⟩
  cases same
  refine ⟨typed, fields, isSchema, ?_⟩
  rw [Slot.readEach_iff stands (noLists _ _ typed isSchema), isGiven]
  exact areKept

/-- An object without lists in the place of blocks is read as the envelope whose type and
fields are written in it. -/
theorem ofJson?_eq_some_iff {envelope : Envelope} :
    ofJson? (.object members) = some envelope ↔ envelope.IsReadFrom entries := by
  constructor
  · exact isReadFrom_of_ofJson? stands noLists
  · rintro ⟨typed, fields, isSchema, each⟩
    rcases exists_ofJson? stands typed isSchema (noLists _ _ typed isSchema) each
      with ⟨read, isRead, sameKind, sameFields⟩
    rw [isRead, eq_of_fields sameKind sameFields]

theorem isSome_ofJson?_iff :
    (ofJson? (.object members)).isSome ↔
      ∃ kind fields, valuesOf "type" entries.toList = [.string kind] ∧
        schema? kind = some fields ∧
          ∀ field ∈ fields, ∃ kept, field.2.Reads (valuesOf field.1 entries.toList) kept := by
  constructor
  · intro isRead
    rcases Option.isSome_iff_exists.mp isRead with ⟨envelope, isRead⟩
    rcases isReadFrom_of_ofJson? stands noLists isRead with ⟨typed, fields, isSchema, each⟩
    refine ⟨envelope.kind, fields, typed, isSchema, fun field isField => ?_⟩
    rcases exists_of_forall₂ each isField with ⟨kept, _, reads⟩
    exact ⟨kept, reads⟩
  · rintro ⟨kind, fields, typed, isSchema, each⟩
    rcases exists_readEach each with ⟨kept, each⟩
    rcases exists_ofJson? stands typed isSchema (noLists _ _ typed isSchema) each
      with ⟨envelope, isRead, _⟩
    rw [isRead]
    rfl

end Objects

theorem Slot.exists_payload_of_reads {phrases : List Phrase} {payload : Json}
    (reads : Reads (.field .anything) phrases (some payload)) :
    ∃ phrase ∈ phrases, payload = phrase.normalized := by
  cases reads_field_iff.mp reads
  exact ⟨_, List.mem_singleton_self _, rfl⟩

theorem IsReadFrom.exists_payload {envelope : Envelope} {entries : Entries}
    (read : envelope.IsReadFrom entries) {payload : Json}
    (carried : envelope.payload? = some payload) :
    ∃ name, ∃ phrase ∈ valuesOf name entries.toList, payload = phrase.normalized := by
  rcases read with ⟨_, fields, isSchema, each⟩
  cases envelope with
  | pong answered timestamp messageCount | echoResponse answered timestamp messageCount
  | broadcast answered sender timestamp totalClients =>
      cases carried
      cases isSchema
      rcases List.forall₂_cons.mp each with ⟨reads, _⟩
      exact ⟨_, Slot.exists_payload_of_reads reads⟩
  | welcome message info timestamp | broadcastConfirm message recipients timestamp
  | statsResponse stats timestamp | periodicUpdate message stats timestamp
  | error message received types timestamp => cases carried

end Envelope

end Relay
