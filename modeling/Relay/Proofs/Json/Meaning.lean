import Relay.Proofs.Json.Range
import Relay.Proofs.Json.RoundTrip

namespace Relay.Json

/-! What texts denote. A number denotes its exact value, an array a sequence and an object an
assignment of values to keys, in which the last member with a key counts. -/

inductive Meaning where
  | null
  | boolean (value : Bool)
  | number (value : ℚ)
  | string (value : String)
  | array (elements : List Meaning)
  | object (members : String → Option Meaning)

def Literal.value (literal : Literal) : ℚ :=
  if literal.negative then -literal.magnitude else literal.magnitude

mutual
def Phrase.meaning : Phrase → Meaning
  | .null => .null
  | .boolean value => .boolean value
  | .number literal => .number literal.value
  | .string value => .string value
  | .array elements => .array elements.meanings
  | .object members => .object members.meaningOf

def Phrases.meanings : Phrases → List Meaning
  | .nil => []
  | .cons head tail => head.meaning :: tail.meanings

def Entries.meaningOf : Entries → String → Option Meaning
  | .nil, _ => none
  | .cons other value rest, key =>
      (rest.meaningOf key).or (if other = key then some value.meaning else none)
end

namespace Entries

def last? (key : String) : Entries → Option Phrase
  | .nil => none
  | .cons other value rest => (rest.last? key).or (if other = key then some value else none)

def keys : Entries → List String
  | .nil => []
  | .cons key _ rest => key :: rest.keys

theorem eq_map_last? {α : Type} {ofPhrase : Phrase → α} {ofKey : Entries → String → Option α}
    (atEnd : ∀ key, ofKey .nil key = none)
    (step : ∀ other value rest key, ofKey (.cons other value rest) key =
      (ofKey rest key).or (if other = key then some (ofPhrase value) else none))
    (key : String) (members : Entries) :
    ofKey members key = (members.last? key).map ofPhrase := by
  induction members using Entries.keys.induct with
  | case1 => exact atEnd key
  | case2 other value rest induction =>
      rw [step, last?, induction]
      cases rest.last? key with
      | some _ => rfl
      | none => split <;> rfl

theorem meaningOf_eq (key : String) (members : Entries) :
    members.meaningOf key = (members.last? key).map Phrase.meaning :=
  eq_map_last? (fun _ => rfl) (fun _ _ _ _ => rfl) key members

theorem meaningOf_eq_none {key : String} {members : Entries} (absent : key ∉ members.keys) :
    members.meaningOf key = none := by
  induction members using Entries.keys.induct with
  | case1 => rfl
  | case2 other value rest induction =>
      rcases not_or.mp (List.mem_cons.not.mp absent) with ⟨isOther, later⟩
      rw [meaningOf, induction later, if_neg (Ne.symm isOther)]
      rfl

end Entries

mutual
def Phrase.HasDistinctKeys : Phrase → Prop
  | .array elements => elements.HaveDistinctKeys
  | .object members => members.HaveDistinctKeys
  | .null | .boolean _ | .number _ | .string _ => True

def Phrases.HaveDistinctKeys : Phrases → Prop
  | .nil => True
  | .cons head tail => head.HasDistinctKeys ∧ tail.HaveDistinctKeys

def Entries.HaveDistinctKeys : Entries → Prop
  | .nil => True
  | .cons key value rest =>
      value.HasDistinctKeys ∧ key ∉ rest.keys ∧ rest.HaveDistinctKeys
end

/-! ## Other literals -/

section MapLiterals

variable (respell : Literal → Literal)

mutual
def Phrase.mapLiterals : Phrase → Phrase
  | .null => .null
  | .boolean value => .boolean value
  | .number literal => .number (respell literal)
  | .string value => .string value
  | .array elements => .array elements.mapLiterals
  | .object members => .object members.mapLiterals

def Phrases.mapLiterals : Phrases → Phrases
  | .nil => .nil
  | .cons head tail => .cons head.mapLiterals tail.mapLiterals

def Entries.mapLiterals : Entries → Entries
  | .nil => .nil
  | .cons key value rest => .cons key value.mapLiterals rest.mapLiterals
end

theorem Entries.keys_mapLiterals (members : Entries) :
    (members.mapLiterals respell).keys = members.keys := by
  induction members using Entries.keys.induct with
  | case1 => rfl
  | case2 key value rest induction => rw [mapLiterals, keys, keys, induction]

mutual
/-- Other literals denote the same exactly if all of them have the same exact values. -/
theorem Phrase.meaning_mapLiterals_iff : (phrase : Phrase) → phrase.HasDistinctKeys →
    ((phrase.mapLiterals respell).meaning = phrase.meaning ↔
      ∀ literal ∈ phrase.literals, (respell literal).value = literal.value)
  | .null, _ | .boolean _, _ | .string _, _ => by simp [Phrase.mapLiterals, Phrase.literals]
  | .number literal, _ => by simp [Phrase.mapLiterals, Phrase.meaning, Phrase.literals]
  | .array elements, distinct => by
      rw [Phrase.mapLiterals, Phrase.meaning, Phrase.meaning, Meaning.array.injEq]
      exact elements.meanings_mapLiterals_iff distinct
  | .object members, distinct => by
      rw [Phrase.mapLiterals, Phrase.meaning, Phrase.meaning, Meaning.object.injEq, funext_iff]
      exact members.meaningOf_mapLiterals_iff distinct

theorem Phrases.meanings_mapLiterals_iff : (elements : Phrases) → elements.HaveDistinctKeys →
    ((elements.mapLiterals respell).meanings = elements.meanings ↔
      ∀ literal ∈ elements.literals, (respell literal).value = literal.value)
  | .nil, _ => by simp [Phrases.mapLiterals, Phrases.literals]
  | .cons head tail, ⟨headDistinct, tailDistinct⟩ => by
      rw [Phrases.mapLiterals, Phrases.meanings, Phrases.meanings, List.cons.injEq,
        Phrases.literals, List.forall_mem_append, head.meaning_mapLiterals_iff headDistinct,
        tail.meanings_mapLiterals_iff tailDistinct]

theorem Entries.meaningOf_mapLiterals_iff : (members : Entries) → members.HaveDistinctKeys →
    ((∀ key, (members.mapLiterals respell).meaningOf key = members.meaningOf key) ↔
      ∀ literal ∈ members.literals, (respell literal).value = literal.value)
  | .nil, _ => by simp [Entries.mapLiterals, Entries.literals]
  | .cons key value rest, ⟨valueDistinct, isNew, restDistinct⟩ => by
      have absent := Entries.meaningOf_eq_none isNew
      have stillAbsent : (rest.mapLiterals respell).meaningOf key = none :=
        Entries.meaningOf_eq_none (by rwa [Entries.keys_mapLiterals])
      rw [Entries.literals, List.forall_mem_append, ← value.meaning_mapLiterals_iff valueDistinct,
        ← rest.meaningOf_mapLiterals_iff restDistinct]
      simp only [Entries.mapLiterals, Entries.meaningOf]
      constructor
      · intro same
        constructor
        · have here := same key
          simpa [absent, stillAbsent] using here
        · intro other
          by_cases isKey : key = other
          · rw [← isKey, absent, stillAbsent]
          · have there := same other
            simpa [isKey] using there
      · rintro ⟨sameValue, sameRest⟩ other
        rw [sameRest, sameValue]
end

end MapLiterals

end Json

open Json

/-! ## Normal values -/

namespace Members

def last? (key : String) : Members → Option Json
  | .nil => none
  | .cons other value rest => (rest.last? key).or (if other = key then some value else none)

theorem last?_entries (key : String) (members : Members) :
    members.entries.last? key = (members.last? key).map Json.phrase := by
  induction members using Members.toList.induct with
  | case1 => rfl
  | case2 other value rest induction =>
      rw [entries, Entries.last?, last?, induction]
      cases rest.last? key with
      | some _ => rfl
      | none => split <;> rfl

theorem get?_insert (key wanted : String) (value : Json) (members : Members) :
    (members.insert key value).get? wanted =
      if key = wanted then some value else members.get? wanted := by
  induction members using Members.toList.induct with
  | case1 => rfl
  | case2 other old rest induction =>
      rw [insert]
      split
      · rfl
      · split
        · rename_i same
          subst same
          rw [get?, get?]
          split <;> rfl
        · rename_i different
          rw [get?, get?, induction]
          by_cases isKey : key = wanted
          · have isOther : ¬other = wanted := fun same => different (isKey.trans same.symm)
            rw [if_neg isOther, if_pos isKey, if_pos isKey]
          · rw [if_neg isKey, if_neg isKey]

theorem get?_normalizeInto (key : String) (members normal : Members) :
    (members.normalizeInto normal).get? key =
      ((members.last? key).map Json.normalize).or (normal.get? key) := by
  induction members using Members.toList.induct generalizing normal with
  | case1 =>
      rw [normalizeInto, last?]
      rfl
  | case2 other value rest induction =>
      rw [normalizeInto, induction, get?_insert, last?]
      cases rest.last? key with
      | some _ => rfl
      | none => split <;> rfl

theorem last?_eq_none {key : String} {members : Members}
    (absent : key ∉ members.toList.map Prod.fst) : members.last? key = none := by
  induction members using Members.toList.induct with
  | case1 => rfl
  | case2 other value rest induction =>
      rcases not_or.mp (List.mem_cons.not.mp absent) with ⟨isOther, later⟩
      rw [last?, induction later, if_neg (Ne.symm isOther)]
      rfl

theorem last?_eq_get? (key : String) {members : Members} (normal : members.IsNormal) :
    members.last? key = members.get? key := by
  induction members using Members.toList.induct with
  | case1 => rfl
  | case2 other value rest induction =>
      rcases normal with ⟨_, increasing, restNormal⟩
      rw [last?, get?]
      by_cases isKey : other = key
      · have absent : key ∉ rest.toList.map Prod.fst := fun member =>
          String.lt_irrefl other (isKey ▸ increasing key member)
        rw [last?_eq_none absent, if_pos isKey, if_pos isKey]
        rfl
      · rw [if_neg isKey, if_neg isKey, Option.or_none, induction restNormal]

end Members

mutual
/-- Normalization changes no meaning. -/
theorem Json.meaning_normalize : (value : Json) →
    value.normalize.phrase.meaning = value.phrase.meaning
  | .null | .boolean _ | .number _ | .string _ => by rw [Json.normalize]
  | .array elements => by
      rw [Json.normalize, Json.phrase, Json.phrase, Phrase.meaning, Phrase.meaning,
        elements.meanings_normalize]
  | .object members => by
      have normal : (members.normalizeInto .nil).IsNormal :=
        members.isNormal_normalizeInto trivial
      rw [Json.normalize, Json.phrase, Json.phrase, Phrase.meaning, Phrase.meaning]
      congr 1
      funext key
      rw [Entries.meaningOf_eq, Entries.meaningOf_eq, Members.last?_entries,
        Members.last?_entries, Members.last?_eq_get? key normal, Members.get?_normalizeInto]
      cases found : members.last? key with
      | none => rfl
      | some value => exact congrArg some (members.meaning_normalize_last found)

theorem Elements.meanings_normalize : (elements : Elements) →
    elements.normalize.phrases.meanings = elements.phrases.meanings
  | .nil => rfl
  | .cons head tail => by
      rw [Elements.normalize, Elements.phrases, Elements.phrases, Phrases.meanings,
        Phrases.meanings, head.meaning_normalize, tail.meanings_normalize]

theorem Members.meaning_normalize_last : (members : Members) → {key : String} →
    {value : Json} → members.last? key = some value →
    value.normalize.phrase.meaning = value.phrase.meaning
  | .nil, _, _, found => by cases found
  | .cons other first rest, key, value, found => by
      rcases Option.or_eq_some_iff.mp found with later | ⟨_, here⟩
      · exact rest.meaning_normalize_last later
      · split at here
        · cases here
          exact first.meaning_normalize
        · cases here
end

/-! ## What is read and written again -/

namespace Json

/-- The literal that a number is written as after it was read. -/
def Literal.reprint (literal : Literal) : Literal :=
  (literal.number?.map Number.literal).getD literal

def Literal.KeepsValue (literal : Literal) : Prop := literal.reprint.value = literal.value

mutual
theorem Phrase.phrase_of_value? : (phrase : Phrase) → {value : Json} →
    phrase.value? = some value → value.phrase = phrase.mapLiterals Literal.reprint
  | .null, _, stands | .boolean _, _, stands | .string _, _, stands => by
      cases stands
      rfl
  | .number literal, _, stands => by
      rcases Option.map_eq_some_iff.mp stands with ⟨number, isNumber, same⟩
      rw [← same, Phrase.mapLiterals, Literal.reprint, isNumber]
      rfl
  | .array elements, _, stands => by
      rcases Option.map_eq_some_iff.mp stands with ⟨values, valuesStand, same⟩
      rw [← same, Json.phrase, Phrase.mapLiterals, elements.phrases_of_value? valuesStand]
  | .object members, _, stands => by
      rcases Option.map_eq_some_iff.mp stands with ⟨values, valuesStand, same⟩
      rw [← same, Json.phrase, Phrase.mapLiterals, members.entries_of_value? valuesStand]

theorem Phrases.phrases_of_value? : (elements : Phrases) → {values : Elements} →
    elements.value? = some values → values.phrases = elements.mapLiterals Literal.reprint
  | .nil, _, stands => by
      cases stands
      rfl
  | .cons head tail, _, stands => by
      rcases Phrases.value?_cons_eq_some_iff.mp stands
        with ⟨first, others, firstStands, othersStand, same⟩
      rw [same, Elements.phrases, Phrases.mapLiterals, head.phrase_of_value? firstStands,
        tail.phrases_of_value? othersStand]

theorem Entries.entries_of_value? : (members : Entries) → {values : Members} →
    members.value? = some values → values.entries = members.mapLiterals Literal.reprint
  | .nil, _, stands => by
      cases stands
      rfl
  | .cons key head tail, _, stands => by
      rcases Entries.value?_cons_eq_some_iff.mp stands
        with ⟨first, others, firstStands, othersStand, same⟩
      rw [same, Members.entries, Entries.mapLiterals, head.phrase_of_value? firstStands,
        tail.entries_of_value? othersStand]
end

theorem Entries.last?_of_value? (key : String) {members : Entries} {values : Members}
    (stands : members.value? = some values) :
    (members.last? key).map Phrase.value? = (values.last? key).map some := by
  induction members using Entries.keys.induct generalizing values with
  | case1 =>
      cases stands
      rfl
  | case2 other head tail induction =>
      rcases Entries.value?_cons_eq_some_iff.mp stands
        with ⟨first, others, firstStands, othersStand, same⟩
      have later := induction othersStand
      rw [same, Members.last?, last?]
      cases written : tail.last? key with
      | some phrase =>
          cases read : others.last? key with
          | some value => simpa [written, read] using later
          | none => simp [written, read] at later
      | none =>
          cases read : others.last? key with
          | some value => simp [written, read] at later
          | none => split <;> simp [firstStands]

theorem Entries.exists_last?_of_value? {key : String} {members : Entries} {values : Members}
    (stands : members.value? = some values) {phrase : Phrase}
    (found : members.last? key = some phrase) :
    ∃ value, phrase.value? = some value ∧ values.last? key = some value := by
  have same := Entries.last?_of_value? key stands
  rw [found] at same
  cases read : values.last? key with
  | none => simp [read] at same
  | some value => exact ⟨value, by simpa [read] using same, rfl⟩

end Json

end Relay
