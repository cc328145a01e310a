import Mathlib.Logic.Relation
import Relay.Proofs.Envelope.Reading
import Relay.Proofs.Json.Meaning
import Relay.Proofs.Json.Nesting

namespace Relay

/-! What an envelope is read as does not depend on the order in which its fields are written,
nor on fields that its kind does not know. The text of the envelope that was read is its
normal form: it is read as the same envelope again. -/

open Json

/-! ## Values under a name -/

namespace Json

theorem valuesOf_append (name : String) (front back : List (String × Phrase)) :
    valuesOf name (front ++ back) = valuesOf name front ++ valuesOf name back := by
  simp [valuesOf]

theorem perm_valuesOf {left right : List (String × Phrase)} (same : left.Perm right)
    (name : String) : (valuesOf name left).Perm (valuesOf name right) :=
  (same.filter _).map _

end Json

namespace Envelope

/-! ## Edits -/

/-- Fields are put in another order, or a field with an unknown name is added or removed. -/
inductive Edit (known : List String) : List (String × Phrase) → List (String × Phrase) → Prop
  | reorder {left right} : left.Perm right → Edit known left right
  | add {front back name value} : name ∉ known →
      Edit known (front ++ back) (front ++ (name, value) :: back)
  | remove {front back name value} : name ∉ known →
      Edit known (front ++ (name, value) :: back) (front ++ back)

inductive Rewrite (fields : List (String × Slot)) :
    List (String × Phrase) → List (String × Phrase) → Prop
  | fields {left right} : Edit ("type" :: fields.map Prod.fst) left right →
      Rewrite fields left right
  | block {name inner before after front back} : (name, Slot.block inner) ∈ fields →
      Edit (inner.map Prod.fst) before.toList after.toList →
        Rewrite fields (front ++ (name, .object before) :: back)
          (front ++ (name, .object after) :: back)

theorem Edit.perm_valuesOf {known : List String} {left right : List (String × Phrase)}
    (edit : Edit known left right) {name : String} (isKnown : name ∈ known) :
    (valuesOf name left).Perm (valuesOf name right) := by
  have unchanged : ∀ {front back : List (String × Phrase)} {other : String} {value : Phrase},
      other ∉ known →
        valuesOf name (front ++ (other, value) :: back) = valuesOf name (front ++ back) := by
    intro front back other value unknown
    have different : ¬other = name := fun same => unknown (same ▸ isKnown)
    rw [valuesOf_append, valuesOf_append, valuesOf_cons, if_neg different]
  cases edit with
  | reorder same => exact Json.perm_valuesOf same name
  | add unknown => rw [unchanged unknown]
  | remove unknown => rw [unchanged unknown]

theorem eq_of_perm {phrases others : List Phrase} (same : phrases.Perm others)
    (atMost : phrases.length ≤ 1) : phrases = others := by
  rcases phrases with _ | ⟨phrase, _ | ⟨next, rest⟩⟩
  · exact (List.nil_perm.mp same).symm
  · exact List.singleton_perm.mp same
  · simp at atMost

theorem FieldType.reads_perm {type : FieldType} {phrases others : List Phrase}
    (same : phrases.Perm others) {kept : Option Json} (reads : type.Reads phrases kept) :
    type.Reads others kept := by
  rw [← eq_of_perm same (length_le_of_reads reads)]
  exact reads

theorem Slot.reads_perm {slot : Slot} {phrases others : List Phrase}
    (same : phrases.Perm others) {kept : Option Json} (reads : slot.Reads phrases kept) :
    slot.Reads others kept := by
  rw [← eq_of_perm same (length_le_of_reads reads)]
  exact reads

theorem ReadEach.mono {σ : Type} {Reads : σ → List Phrase → Option Json → Prop}
    {fields : List (String × σ)} {left right : List (String × Phrase)}
    (carries : ∀ field ∈ fields, ∀ kept, Reads field.2 (valuesOf field.1 left) kept →
      Reads field.2 (valuesOf field.1 right) kept)
    {kept : List (Option Json)} (each : ReadEach Reads fields left kept) :
    ReadEach Reads fields right kept := by
  induction each with
  | nil => exact .nil
  | cons reads _ induction =>
      exact .cons (carries _ List.mem_cons_self _ reads)
        (induction fun field later => carries field (List.mem_cons_of_mem _ later))

theorem Edit.symm {known : List String} {left right : List (String × Phrase)}
    (edit : Edit known left right) : Edit known right left := by
  cases edit with
  | reorder same => exact .reorder same.symm
  | add unknown => exact .remove unknown
  | remove unknown => exact .add unknown

theorem Rewrite.symm {fields : List (String × Slot)} {left right : List (String × Phrase)}
    (rewritten : Rewrite fields left right) : Rewrite fields right left := by
  cases rewritten with
  | fields edit => exact .fields edit.symm
  | block isBlock edit => exact .block isBlock edit.symm

theorem Edit.readEach {fields : List (String × FieldType)}
    {left right : List (String × Phrase)} (edit : Edit (fields.map Prod.fst) left right)
    {kept : List (Option Json)} (each : ReadEach FieldType.Reads fields left kept) :
    ReadEach FieldType.Reads fields right kept :=
  each.mono fun _ isField _ reads =>
    FieldType.reads_perm (edit.perm_valuesOf (List.mem_map_of_mem isField)) reads

structure Carries (fields : List (String × Slot)) (left right : List (String × Phrase)) :
    Prop where
  type : ∀ value, valuesOf "type" left = [value] → valuesOf "type" right = [value]
  reads : ∀ field ∈ fields, ∀ kept, field.2.Reads (valuesOf field.1 left) kept →
    field.2.Reads (valuesOf field.1 right) kept
  noLists : NoLists fields left → NoLists fields right

section Blocks

variable {name : String} {front back : List (String × Phrase)}

theorem valuesOf_block_of_ne {other : String} {before after : Phrase} (different : name ≠ other) :
    valuesOf other (front ++ (name, before) :: back) =
      valuesOf other (front ++ (name, after) :: back) := by
  rw [valuesOf_append, valuesOf_append, valuesOf_cons, valuesOf_cons, if_neg different,
    if_neg different]

theorem valuesOf_block (value : Phrase) :
    valuesOf name (front ++ (name, value) :: back) =
      valuesOf name front ++ value :: valuesOf name back := by
  rw [valuesOf_append, valuesOf_cons, if_pos rfl]

theorem Slot.reads_block_of_edit {inner : List (String × FieldType)} {before after : Entries}
    (edit : Edit (inner.map Prod.fst) before.toList after.toList) {kept : Option Json}
    (reads : Reads (.block inner) (valuesOf name (front ++ (name, .object before) :: back)) kept) :
    Reads (.block inner) (valuesOf name (front ++ (name, .object after) :: back)) kept := by
  rw [valuesOf_block] at reads ⊢
  rcases reads_block_iff.mp reads with ⟨written, values, single, each, same⟩
  rcases List.append_eq_singleton_iff.mp single with ⟨noFront, isBlock⟩ | ⟨_, noBlock⟩
  · rcases List.cons_eq_cons.mp isBlock with ⟨sameBlock, noBack⟩
    cases sameBlock
    rw [noFront, noBack]
    exact reads_block_iff.mpr ⟨after, values, rfl, edit.readEach each, same⟩
  · cases noBlock

end Blocks

theorem Rewrite.carries {fields : List (String × Slot)}
    (distinct : ("type" :: fields.map Prod.fst).Nodup) {left right : List (String × Phrase)}
    (rewritten : Rewrite fields left right) : Carries fields left right := by
  cases rewritten with
  | fields edit =>
      have isKnown : ∀ field ∈ fields, field.1 ∈ "type" :: fields.map Prod.fst :=
        fun field isField => List.mem_cons_of_mem _ (List.mem_map_of_mem isField)
      constructor
      · intro value single
        have same := edit.perm_valuesOf List.mem_cons_self
        rw [single] at same
        exact (List.singleton_perm.mp same).symm
      · intro field isField kept
        exact Slot.reads_perm (edit.perm_valuesOf (isKnown field isField))
      · intro noLists name inner isBlock value isValue
        have same := edit.perm_valuesOf (isKnown _ isBlock)
        exact noLists name inner isBlock value (same.mem_iff.mpr isValue)
  | @block name inner before after front back isBlock edit =>
      rcases List.nodup_cons.mp distinct with ⟨noType, namesDistinct⟩
      have notType : name ≠ "type" := by
        rintro rfl
        exact noType (List.mem_map_of_mem isBlock)
      constructor
      · intro value single
        rw [← valuesOf_block_of_ne notType]
        exact single
      · rintro ⟨other, slot⟩ isField kept reads
        by_cases isName : name = other
        · subst isName
          have isInner : slot = .block inner := congrArg Prod.snd
            (List.inj_on_of_nodup_map namesDistinct isField isBlock rfl)
          rw [isInner] at reads ⊢
          exact Slot.reads_block_of_edit edit reads
        · rw [← valuesOf_block_of_ne isName]
          exact reads
      · intro noLists other fields isOther value isValue
        by_cases isName : name = other
        · subst isName
          rw [valuesOf_block, List.mem_append, List.mem_cons] at isValue
          have before := noLists name fields isOther value
          rw [valuesOf_block, List.mem_append, List.mem_cons] at before
          rcases isValue with inFront | isAfter | inBack
          · exact before (.inl inFront)
          · rw [isAfter, Phrase.kind]
            decide
          · exact before (.inr (.inr inBack))
        · rw [← valuesOf_block_of_ne isName] at isValue
          exact noLists other fields isOther value isValue

def schemaOf (entries : List (String × Phrase)) : List (String × Slot) :=
  match valuesOf "type" entries with
  | [.string kind] => (schema? kind).getD []
  | _ => []

theorem nodup_schema {kind : String} {fields : List (String × Slot)}
    (isSchema : schema? kind = some fields) : ("type" :: fields.map Prod.fst).Nodup := by
  unfold schema? at isSchema
  split_ifs at isSchema <;> cases isSchema <;> decide

theorem nodup_schemaOf (entries : List (String × Phrase)) :
    ("type" :: (schemaOf entries).map Prod.fst).Nodup := by
  unfold schemaOf
  split
  · rename_i kind _
    cases isSchema : schema? kind with
    | none => decide
    | some fields => exact nodup_schema isSchema
  · decide

theorem schemaOf_eq {entries : List (String × Phrase)} {kind : String}
    {fields : List (String × Slot)} (typed : valuesOf "type" entries = [.string kind])
    (isSchema : schema? kind = some fields) : schemaOf entries = fields := by
  simp [schemaOf, typed, isSchema]

/-- By induction on the rewritings, each of which carries over what is read. -/
theorem carries_of_rewrites {fields : List (String × Slot)}
    (distinct : ("type" :: fields.map Prod.fst).Nodup) {left right : List (String × Phrase)}
    (rewritten : Relation.ReflTransGen (Rewrite fields) left right) :
    Carries fields left right := by
  induction rewritten with
  | refl => exact ⟨fun _ => id, fun _ _ _ => id, id⟩
  | tail _ last induction =>
      have step := last.carries distinct
      exact ⟨fun value => step.type value ∘ induction.type value,
        fun field isField kept =>
          step.reads field isField kept ∘ induction.reads field isField kept,
        step.noLists ∘ induction.noLists⟩

theorem rewrites_symm {fields : List (String × Slot)} {left right : List (String × Phrase)}
    (rewritten : Relation.ReflTransGen (Rewrite fields) left right) :
    Relation.ReflTransGen (Rewrite fields) right left := by
  induction rewritten with
  | refl => exact .refl
  | tail _ last induction => exact .head last.symm induction

theorem isReadFrom_iff_of_rewrites {envelope : Envelope} {entries others : Entries}
    (rewritten : Relation.ReflTransGen (Rewrite (schemaOf entries.toList)) entries.toList
      others.toList) :
    envelope.IsReadFrom others ↔ envelope.IsReadFrom entries := by
  have distinct := nodup_schemaOf entries.toList
  have forth := carries_of_rewrites distinct rewritten
  have back := carries_of_rewrites distinct (rewrites_symm rewritten)
  constructor
  · rintro ⟨typed, fields, isSchema, each⟩
    have typedThere := back.type _ typed
    have isFields := schemaOf_eq typedThere isSchema
    rw [isFields] at back
    exact ⟨typedThere, fields, isSchema, each.mono back.reads⟩
  · rintro ⟨typed, fields, isSchema, each⟩
    rw [schemaOf_eq typed isSchema] at forth
    exact ⟨forth.type _ typed, fields, isSchema, each.mono forth.reads⟩

/-! ## Texts -/

theorem exists_members_of_isReadable {text : String} {entries : Entries}
    (readable : (Phrase.object entries).IsReadable text.toList) :
    ∃ members, entries.value? = some members ∧
      Json.parse? text.toList = some (.object members) := by
  rcases exists_parse?_of_isReadable readable with ⟨value, parsed, _⟩
  rcases parse?_eq_some_iff.mp parsed with ⟨phrase, derived, _, stands⟩
  rw [derived.unique readable.derived] at stands
  rcases Option.map_eq_some_iff.mp stands with ⟨members, membersStand, rfl⟩
  exact ⟨members, membersStand, parsed⟩

theorem mem_blockNames {kind : String} {fields : List (String × Slot)}
    (isSchema : schema? kind = some fields) {name : String} {inner : List (String × FieldType)}
    (isBlock : (name, Slot.block inner) ∈ fields) :
    name ∈ ["server_info", "stats", "server_stats"] := by
  unfold schema? at isSchema
  split_ifs at isSchema <;> cases isSchema <;> simp at isBlock <;> simp [isBlock]

theorem noLists_of_objects {entries : List (String × Phrase)}
    (blocks : ∀ name ∈ ["server_info", "stats", "server_stats"],
      ∀ value ∈ valuesOf name entries, value.kind = "object")
    {kind : String} {fields : List (String × Slot)} (isSchema : schema? kind = some fields) :
    NoLists fields entries := by
  intro name inner isBlock value isValue
  rw [blocks name (mem_blockNames isSchema isBlock) value isValue]
  decide

theorem depth_le_of_mem_valuesOf {name : String} {members : Members} {value : Json}
    (isValue : value ∈ members.valuesOf name) : value.depth ≤ members.depth := by
  induction members using Members.toList.induct with
  | case1 => cases isValue
  | case2 key first rest induction =>
      rw [Members.valuesOf] at isValue
      rw [Members.depth]
      split at isValue
      · rcases List.mem_cons.mp isValue with rfl | later
        · exact Nat.le_max_left _ _
        · exact (induction later).trans (Nat.le_max_right _ _)
      · exact (induction isValue).trans (Nat.le_max_right _ _)

theorem parse?_encode_of_isReadFrom {entries : Entries} {members : Members}
    (stands : entries.value? = some members) (shallow : members.depth ≤ payloadDepth)
    {envelope : Envelope} (read : envelope.IsReadFrom entries)
    (readBack : ∀ real ∈ envelope.reals, real.ReadsBack) :
    parse? envelope.encode = some envelope := by
  have carried : ∀ payload, envelope.payload? = some payload →
      ∃ value : Json, value.depth ≤ payloadDepth ∧ payload = value.normalize := by
    intro payload isPayload
    rcases read.exists_payload isPayload with ⟨name, phrase, isWritten, rfl⟩
    rcases exists_of_forall₂ (entries.forall₂_valuesOf name stands) isWritten
      with ⟨value, isValue, phraseStands⟩
    refine ⟨value, (depth_le_of_mem_valuesOf isValue).trans shallow, ?_⟩
    rw [Phrase.normalized, phraseStands, Option.getD_some]
  apply parse?_encode _ _ readBack
  · intro payload isPayload
    rcases carried payload isPayload with ⟨value, _, rfl⟩
    exact value.isNormal_normalize
  · intro payload isPayload
    rcases carried payload isPayload with ⟨value, atMost, rfl⟩
    exact value.depth_normalize_le.trans atMost

/-- What the text of an object is read as, if every block in it is an object. It is read as an
envelope exactly if its type is written once and names a kind, and every field of this kind,
also in a block, has values of its type: one value, or none for an optional field. The envelope
has this kind and what its fields keep. Other objects with the fields in another order, or with
more or fewer unknown fields, are read as the same envelope or refused as well. The text of the
envelope is its normal form if its binary numbers are read back. -/
theorem parse?_isExact {text : String} {entries : Entries}
    (readable : (Phrase.object entries).IsReadable text.toList)
    (blocks : ∀ name ∈ ["server_info", "stats", "server_stats"],
      ∀ value ∈ valuesOf name entries.toList, value.kind = "object") :
    ((parse? text).isSome ↔
      ∃ kind fields, valuesOf "type" entries.toList = [.string kind] ∧
        schema? kind = some fields ∧
          ∀ field ∈ fields, ∃ kept, field.2.Reads (valuesOf field.1 entries.toList) kept) ∧
    (∀ envelope, parse? text = some envelope ↔ envelope.IsReadFrom entries) ∧
    (∀ (other : String) (others : Entries),
      (Phrase.object others).IsReadable other.toList →
        Relation.ReflTransGen (Rewrite (schemaOf entries.toList)) entries.toList others.toList →
          parse? other = parse? text) ∧
    ∀ envelope, parse? text = some envelope → (∀ real ∈ envelope.reals, real.ReadsBack) →
      parse? envelope.encode = some envelope ∧
        (parse? envelope.encode).map encode = some envelope.encode := by
  rcases exists_members_of_isReadable readable with ⟨members, stands, parsed⟩
  have isRead : parse? text = ofJson? (.object members) := by
    simp [parse?, parsed]
  have noLists : ∀ kind fields, valuesOf "type" entries.toList = [.string kind] →
      schema? kind = some fields → NoLists fields entries.toList :=
    fun _ _ _ isSchema => noLists_of_objects blocks isSchema
  have isExact : ∀ envelope, parse? text = some envelope ↔ envelope.IsReadFrom entries := by
    intro envelope
    rw [isRead]
    exact ofJson?_eq_some_iff stands noLists
  refine ⟨?_, isExact, ?_, ?_⟩
  · rw [isRead]
    exact isSome_ofJson?_iff stands noLists
  · intro other others otherReadable rewritten
    rcases exists_members_of_isReadable otherReadable with ⟨otherMembers, otherStands, otherParsed⟩
    have otherIsRead : parse? other = ofJson? (.object otherMembers) := by
      simp [parse?, otherParsed]
    have carried := carries_of_rewrites (nodup_schemaOf _) rewritten
    have carriedBack := carries_of_rewrites (nodup_schemaOf _) (rewrites_symm rewritten)
    apply Option.ext
    intro envelope
    rw [isExact, otherIsRead, ← isReadFrom_iff_of_rewrites rewritten]
    apply ofJson?_eq_some_iff otherStands
    intro kind fields typed isSchema
    have isFields := schemaOf_eq (carriedBack.type _ typed) isSchema
    rw [isFields] at carried
    exact carried.noLists (noLists_of_objects blocks isSchema)
  · intro envelope read readBack
    have shallow : (Json.object members).depth ≤ maximalDepth := depth_le_of_parse? parsed
    have again : parse? envelope.encode = some envelope :=
      parse?_encode_of_isReadFrom stands (Nat.le_sub_one_of_lt shallow) ((isExact _).mp read)
        readBack
    exact ⟨again, by rw [again, Option.map_some]⟩

theorem isReadable_of_integers (values : List Int) {phrase : Phrase} {text : List Char}
    (isText : text = phrase.text) (shallow : phrase.depth ≤ 127)
    (integers : phrase.literals = values.map Literal.ofInteger)
    (fit : ∀ value ∈ values, -0x8000000000000000 ≤ value ∧ value < 0x10000000000000000) :
    phrase.IsReadable text := by
  have each : ∀ literal ∈ phrase.literals, literal.IsWellFormed ∧ literal.IsInRange := by
    rw [integers]
    intro literal member
    rcases List.mem_map.mp member with ⟨value, isValue, rfl⟩
    have wellFormed := Literal.isWellFormed_ofInteger value
    refine ⟨wellFormed, (Literal.isSome_number?_iff wellFormed).mp ?_⟩
    rw [Literal.number?_ofInteger value (fit value isValue)]
    rfl
  refine ⟨?_, shallow, fun literal member => (each literal member).2⟩
  rw [isText]
  exact Phrase.isText_text fun literal member => (each literal member).1

/-- A block between unknown fields, the type behind it, and the greatest count. -/
theorem parse?_isExact_rearranged :
    let text := "\x7b\"x\":[1],\"server_stats\":\x7b\"uptime\":5," ++
      "\"total_messages\":18446744073709551615,\"y\":null,\"connected_clients\":0\x7d," ++
      "\"type\":\"periodic_update\",\"timestamp\":\"T\",\"message\":\"m\"\x7d"
    let other := "\x7b\"type\":\"periodic_update\",\"timestamp\":\"T\",\"message\":\"m\"," ++
      "\"server_stats\":\x7b\"connected_clients\":0,\"uptime\":5," ++
      "\"total_messages\":18446744073709551615\x7d\x7d"
    let envelope : Envelope := .periodicUpdate "m"
      ⟨0, 0xffffffffffffffff, ⟨false, 0x4014000000000000, by decide⟩⟩ "T"
    parse? text = some envelope ∧ parse? other = parse? text ∧
      parse? envelope.encode = some envelope := by
  intro text other envelope
  let number (value : Int) : Phrase := .number (.ofInteger value)
  let clients : Entries := .cons "connected_clients" (number 0) .nil
  let others (rest : Entries) : Entries := .cons "uptime" (number 5)
    (.cons "total_messages" (number 0xffffffffffffffff) rest)
  let written : Entries := others (.cons "y" .null clients)
  let sorted : Entries := .cons "connected_clients" (number 0) (others .nil)
  let plain (rest : Entries) : Entries := .cons "type" (.string "periodic_update")
    (.cons "timestamp" (.string "T") (.cons "message" (.string "m") rest))
  let entries : Entries := .cons "x" (.array (.cons (number 1) .nil))
    (.cons "server_stats" (.object written) (plain .nil))
  let arranged : Entries := plain (.cons "server_stats" (.object sorted) .nil)
  have readable : (Phrase.object entries).IsReadable text.toList :=
    isReadable_of_integers [1, 5, 0xffffffffffffffff, 0] (by decide +kernel)
      (by decide +kernel) rfl (by decide)
  have otherReadable : (Phrase.object arranged).IsReadable other.toList :=
    isReadable_of_integers [0, 5, 0xffffffffffffffff] (by decide +kernel) (by decide +kernel)
      rfl (by decide)
  have blocks : ∀ name ∈ ["server_info", "stats", "server_stats"],
      ∀ value ∈ valuesOf name entries.toList, value.kind = "object" := by
    decide
  have rewritten : Relation.ReflTransGen (Rewrite (schemaOf entries.toList)) entries.toList
      arranged.toList := by
    let block (inner : Entries) : String × Phrase := ("server_stats", .object inner)
    let fields : List (String × Slot) := [("message", .field .text),
      ("server_stats", .block serverStatisticsFields), ("timestamp", .field .text)]
    have isSchema : schemaOf entries.toList = fields := schemaOf_eq rfl rfl
    rw [isSchema]
    have withoutUnknown : Rewrite fields entries.toList (block written :: (plain .nil).toList) :=
      .fields (@Edit.remove _ [] _ _ _ (by decide))
    have known : Rewrite fields (block written :: (plain .nil).toList)
        (block (others clients) :: (plain .nil).toList) :=
      @Rewrite.block fields _ serverStatisticsFields _ _ [] _ (by simp [fields])
        (@Edit.remove _ (others .nil).toList clients.toList _ _ (by decide))
    have inOrder : Rewrite fields (block (others clients) :: (plain .nil).toList)
        (block sorted :: (plain .nil).toList) :=
      @Rewrite.block fields _ serverStatisticsFields _ _ [] _ (by simp [fields])
        (.reorder (@List.perm_append_comm _ (others .nil).toList clients.toList))
    have atEnd : Rewrite fields (block sorted :: (plain .nil).toList) arranged.toList :=
      .fields (.reorder (@List.perm_append_comm _ [block sorted] (plain .nil).toList))
    exact .head withoutUnknown (.head known (.head inOrder (.single atEnd)))
  have parsed : parse? text = some envelope := by decide +kernel
  rcases parse?_isExact readable blocks with ⟨_, _, unchanged, normal⟩
  refine ⟨parsed, unchanged other arranged otherReadable rewritten, ?_⟩
  exact (normal envelope parsed (by decide +kernel)).1

end Envelope

end Relay
