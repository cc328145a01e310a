import Relay.Proofs.Json.Numbers
import Relay.Proofs.Json.Unambiguity

namespace Relay.Json

/-! Written values. A value is written as the phrase in which its binary numbers have the
literals that they are printed as, and its text is derived from this phrase. -/

/-! ## Texts of phrases -/

mutual
def Phrase.text : Phrase → List Char
  | .null => "null".toList
  | .boolean true => "true".toList
  | .boolean false => "false".toList
  | .number literal => literal.text
  | .string value => stringText value
  | .array elements => '[' :: elements.text ++ [']']
  | .object members => '\x7b' :: members.text ++ ['\x7d']

def Phrases.text : Phrases → List Char
  | .nil => []
  | .cons head .nil => head.text
  | .cons head (.cons next tail) => head.text ++ ',' :: (Phrases.cons next tail).text

def Entries.text : Entries → List Char
  | .nil => []
  | .cons key value .nil => stringText key ++ ':' :: value.text
  | .cons key value (.cons next other rest) =>
      stringText key ++ ':' :: value.text ++ ',' :: (Entries.cons next other rest).text
end

section Texts

open Grammar

mutual
theorem Phrase.value_text : (phrase : Phrase) →
    (∀ literal ∈ phrase.literals, literal.IsWellFormed) → {rest : List Char} →
    EndsNumber rest → Value phrase (phrase.text ++ rest) rest
  | .null, _, _, _ => .nullWord
  | .boolean true, _, _, _ => .trueWord
  | .boolean false, _, _, _ => .falseWord
  | .number literal, wellFormed, _, ends =>
      .number (readLiteral_recognizes.sound
        (Literal.readLiteral_text (wellFormed literal List.mem_cons_self) ends))
  | .string value, _, rest, _ =>
      .string (readString_recognizes.sound (readString_stringText value rest))
  | .array .nil, _, _, _ => .emptyArray .none
  | .array (.cons head tail), wellFormed, rest, _ => by
      have items : Items _ ((Phrases.cons head tail).text ++ ']' :: rest) rest :=
        Phrases.items_text (.cons head tail) nofun wellFormed
      rw [Phrase.text, List.cons_append, List.cons_append, List.append_assoc]
      exact .array items
  | .object .nil, _, _, _ => .emptyObject .none
  | .object (.cons key value others), wellFormed, rest, _ => by
      have fields : Fields _ ((Entries.cons key value others).text ++ '}' :: rest) rest :=
        Entries.fields_text (.cons key value others) nofun wellFormed
      rw [Phrase.text, List.cons_append, List.cons_append, List.append_assoc]
      exact .object fields

theorem Phrases.items_text : (elements : Phrases) → elements ≠ .nil →
    (∀ literal ∈ elements.literals, literal.IsWellFormed) → {rest : List Char} →
    Items elements (elements.text ++ ']' :: rest) rest
  | .nil, someElements, _, _ => absurd rfl someElements
  | .cons head .nil, _, wellFormed, rest =>
      .last (.blanks .none (head.value_text
        (fun literal member => wellFormed literal (List.mem_append_left _ member))
        (stops_cons rfl rest))) .none
  | .cons head (.cons next tail), _, wellFormed, rest => by
      rcases List.forall_mem_append.mp wellFormed with ⟨headFormed, tailFormed⟩
      have ends : EndsNumber (',' :: ((Phrases.cons next tail).text ++ ']' :: rest)) :=
        stops_cons rfl _
      rw [Phrases.text, List.append_assoc, List.cons_append]
      exact .next (.blanks .none (head.value_text headFormed ends)) .none
        ((Phrases.cons next tail).items_text nofun tailFormed)

theorem Entries.fields_text : (members : Entries) → members ≠ .nil →
    (∀ literal ∈ members.literals, literal.IsWellFormed) → {rest : List Char} →
    Fields members (members.text ++ '}' :: rest) rest
  | .nil, someMembers, _, _ => absurd rfl someMembers
  | .cons key value .nil, _, wellFormed, rest => by
      have valueFormed := (List.forall_mem_append.mp wellFormed).1
      have quoted := readString_recognizes.sound
        (readString_stringText key (':' :: (value.text ++ '}' :: rest)))
      rw [Entries.text, List.append_assoc, List.cons_append]
      exact .last (.pair .none quoted .none
        (.blanks .none (value.value_text valueFormed (stops_cons rfl rest)))) .none
  | .cons key value (.cons next other more), _, wellFormed, rest => by
      rcases List.forall_mem_append.mp wellFormed with ⟨valueFormed, othersFormed⟩
      have ends : EndsNumber (',' :: ((Entries.cons next other more).text ++ '}' :: rest)) :=
        stops_cons rfl _
      have quoted := readString_recognizes.sound (readString_stringText key
        (':' :: (value.text ++ ',' :: ((Entries.cons next other more).text ++ '}' :: rest))))
      rw [Entries.text, List.append_assoc, List.append_assoc, List.cons_append,
        List.cons_append]
      exact .next (.pair .none quoted .none (.blanks .none (value.value_text valueFormed ends)))
        .none ((Entries.cons next other more).fields_text nofun othersFormed)
end

theorem Phrase.isText_text {phrase : Phrase}
    (wellFormed : ∀ literal ∈ phrase.literals, literal.IsWellFormed) :
    IsText phrase phrase.text := by
  have derived := phrase.value_text wellFormed (stops_nil continuesNumber)
  rw [List.append_nil] at derived
  exact ⟨[], .blanks .none derived, .none⟩

end Texts

end Json

open Json

/-! ## Phrases of values -/

mutual
def Json.phrase : Json → Phrase
  | .null => .null
  | .boolean value => .boolean value
  | .number value => .number value.literal
  | .string value => .string value
  | .array elements => .array elements.phrases
  | .object members => .object members.entries

def Elements.phrases : Elements → Phrases
  | .nil => .nil
  | .cons head tail => .cons head.phrase tail.phrases

def Members.entries : Members → Entries
  | .nil => .nil
  | .cons key value rest => .cons key value.phrase rest.entries
end

mutual
theorem Json.text_phrase : (value : Json) → value.phrase.text = value.text
  | .null | .boolean true | .boolean false | .string _ => rfl
  | .number value => value.text_literal
  | .array elements => by rw [Json.phrase, Phrase.text, elements.text_phrases, Json.text]
  | .object members => by
      rw [Json.phrase, Phrase.text, members.text_entries, Json.text]

theorem Elements.text_phrases : (elements : Elements) → elements.phrases.text = elements.text
  | .nil => rfl
  | .cons head .nil => head.text_phrase
  | .cons head (.cons next tail) => by
      have others := (Elements.cons next tail).text_phrases
      rw [Elements.phrases] at others
      rw [Elements.phrases, Elements.phrases, Phrases.text, head.text_phrase, others,
        Elements.text]

theorem Members.text_entries : (members : Members) → members.entries.text = members.text
  | .nil => rfl
  | .cons key value .nil => by
      rw [Members.entries, Members.entries, Entries.text, value.text_phrase, Members.text]
  | .cons key value (.cons next other more) => by
      have others := (Members.cons next other more).text_entries
      rw [Members.entries] at others
      rw [Members.entries, Members.entries, Entries.text, value.text_phrase, others,
        Members.text]
end

mutual
theorem Json.depth_phrase : (value : Json) → value.phrase.depth = value.depth
  | .null | .boolean _ | .number _ | .string _ => rfl
  | .array elements => congrArg Nat.succ elements.depth_phrases
  | .object members => congrArg Nat.succ members.depth_entries

theorem Elements.depth_phrases : (elements : Elements) →
    elements.phrases.depth = elements.depth
  | .nil => rfl
  | .cons head tail => congrArg₂ max head.depth_phrase tail.depth_phrases

theorem Members.depth_entries : (members : Members) → members.entries.depth = members.depth
  | .nil => rfl
  | .cons _ value rest => congrArg₂ max value.depth_phrase rest.depth_entries
end

mutual
theorem Json.exists_number : (value : Json) →
    ∀ literal ∈ value.phrase.literals, ∃ number : Number, literal = number.literal
  | .null, _, member | .boolean _, _, member | .string _, _, member => nomatch member
  | .number value, _, member => ⟨value, List.mem_singleton.mp member⟩
  | .array elements, literal, member => elements.exists_number literal member
  | .object members, literal, member => members.exists_number literal member

theorem Elements.exists_number : (elements : Elements) →
    ∀ literal ∈ elements.phrases.literals, ∃ number : Number, literal = number.literal
  | .nil => fun _ member => nomatch member
  | .cons head tail => List.forall_mem_append.mpr ⟨head.exists_number, tail.exists_number⟩

theorem Members.exists_number : (members : Members) →
    ∀ literal ∈ members.entries.literals, ∃ number : Number, literal = number.literal
  | .nil => fun _ member => nomatch member
  | .cons _ value rest => List.forall_mem_append.mpr ⟨value.exists_number, rest.exists_number⟩
end

open Grammar in
theorem Json.value_text (value : Json) : Value value.phrase value.text [] := by
  have wellFormed : ∀ literal ∈ value.phrase.literals, literal.IsWellFormed := by
    intro literal member
    rcases value.exists_number literal member with ⟨number, rfl⟩
    exact number.isWellFormed_literal
  have derived := value.phrase.value_text wellFormed (stops_nil continuesNumber)
  rwa [value.text_phrase, List.append_nil] at derived

theorem Json.isText_text (value : Json) : IsText value.phrase value.text :=
  ⟨[], .blanks .none value.value_text, .none⟩

end Relay
