import Relay.Proofs.Json.Items

namespace Relay

/-! The reader of values and the grammar. A text is read exactly if the grammar derives it
from a phrase that is not nested too deeply and whose numbers are all in range, and it is
read as the value that this phrase stands for. The readers recurse on the levels that are
left, and so does the proof. -/

namespace Json

mutual
def Phrase.value? : Phrase → Option Json
  | .null => some .null
  | .boolean value => some (.boolean value)
  | .number literal => literal.number?.map .number
  | .string value => some (.string value)
  | .array elements => elements.value?.map .array
  | .object members => members.value?.map .object

def Phrases.value? : Phrases → Option Elements
  | .nil => some .nil
  | .cons head tail => head.value?.bind fun head => tail.value?.map (.cons head)

def Entries.value? : Entries → Option Members
  | .nil => some .nil
  | .cons key value rest => value.value?.bind fun value => rest.value?.map (.cons key value)
end

mutual
theorem Phrase.isSome_value?_iff : (phrase : Phrase) →
    (phrase.value?.isSome ↔ ∀ literal ∈ phrase.literals, literal.number?.isSome)
  | .null | .boolean _ | .string _ => by simp [Phrase.value?, Phrase.literals]
  | .number literal => by simp [Phrase.value?, Phrase.literals]
  | .array elements => by
      rw [Phrase.value?, Option.isSome_map]
      exact elements.isSome_value?_iff
  | .object members => by
      rw [Phrase.value?, Option.isSome_map]
      exact members.isSome_value?_iff

theorem Phrases.isSome_value?_iff : (elements : Phrases) →
    (elements.value?.isSome ↔ ∀ literal ∈ elements.literals, literal.number?.isSome)
  | .nil => by simp [Phrases.value?, Phrases.literals]
  | .cons head tail => by
      rw [Phrases.literals, List.forall_mem_append, ← head.isSome_value?_iff,
        ← tail.isSome_value?_iff, Phrases.value?]
      cases head.value? <;> simp

theorem Entries.isSome_value?_iff : (members : Entries) →
    (members.value?.isSome ↔ ∀ literal ∈ members.literals, literal.number?.isSome)
  | .nil => by simp [Entries.value?, Entries.literals]
  | .cons key value rest => by
      rw [Entries.literals, List.forall_mem_append, ← value.isSome_value?_iff,
        ← rest.isSome_value?_iff, Entries.value?]
      cases value.value? <;> simp
end

theorem Phrase.kind_of_value? {phrase : Phrase} {value : Json}
    (stands : phrase.value? = some value) : value.kind = phrase.kind := by
  cases phrase with
  | null | boolean _ | string _ =>
      cases stands
      rfl
  | number _ | array _ | object _ =>
      rcases Option.map_eq_some_iff.mp stands with ⟨_, _, same⟩
      rw [← same]
      rfl

theorem Phrases.value?_cons_eq_some_iff {head : Phrase} {tail : Phrases}
    {values : Elements} :
    (Phrases.cons head tail).value? = some values ↔
      ∃ first others, head.value? = some first ∧ tail.value? = some others ∧
        values = .cons first others := by
  rw [Phrases.value?]
  cases head.value? <;> cases tail.value? <;> simp [eq_comm]

theorem Entries.value?_cons_eq_some_iff {key : String} {head : Phrase} {tail : Entries}
    {values : Members} :
    (Entries.cons key head tail).value? = some values ↔
      ∃ first others, head.value? = some first ∧ tail.value? = some others ∧
        values = .cons key first others := by
  rw [Entries.value?]
  cases head.value? <;> cases tail.value? <;> simp [eq_comm]

def Stands (levels : Nat) (phrase : Phrase) (value : Json) : Prop :=
  phrase.depth ≤ levels ∧ phrase.value? = some value

theorem Phrases.stands_iff {levels : Nat} {elements : Phrases} {values : Elements} :
    elements.depth ≤ levels ∧ elements.value? = some values ↔
      List.Forall₂ (Stands levels) elements.toList values.toList := by
  induction elements using Phrases.toList.induct generalizing values with
  | case1 => cases values <;> simp [Phrases.depth, Phrases.value?, toList, Elements.toList]
  | case2 head tail induction =>
      cases values with
      | nil => simp [Phrases.value?_cons_eq_some_iff, toList, Elements.toList]
      | cons first others =>
          rw [toList, Elements.toList, List.forall₂_cons, ← induction]
          simp only [Phrases.depth, Nat.max_le, Phrases.value?_cons_eq_some_iff, Stands,
            Elements.cons.injEq]
          constructor
          · rintro ⟨⟨shallow, tailShallow⟩, _, _, stands, tailStands, rfl, rfl⟩
            exact ⟨⟨shallow, stands⟩, tailShallow, tailStands⟩
          · rintro ⟨⟨shallow, stands⟩, tailShallow, tailStands⟩
            exact ⟨⟨shallow, tailShallow⟩, _, _, stands, tailStands, rfl, rfl⟩

theorem Entries.stands_iff {levels : Nat} {members : Entries} {values : Members} :
    members.depth ≤ levels ∧ members.value? = some values ↔
      List.Forall₂ (fun written member => written.1 = member.1 ∧ Stands levels written.2 member.2)
        members.toList values.toList := by
  induction members using Entries.toList.induct generalizing values with
  | case1 => cases values <;> simp [Entries.depth, Entries.value?, toList, Members.toList]
  | case2 key head tail induction =>
      cases values with
      | nil => simp [Entries.value?_cons_eq_some_iff, toList, Members.toList]
      | cons otherKey first others =>
          rw [toList, Members.toList, List.forall₂_cons, ← induction]
          simp only [Entries.depth, Nat.max_le, Entries.value?_cons_eq_some_iff, Stands,
            Members.cons.injEq]
          constructor
          · rintro ⟨⟨shallow, tailShallow⟩, _, _, stands, tailStands, rfl, rfl, rfl⟩
            exact ⟨⟨rfl, shallow, stands⟩, tailShallow, tailStands⟩
          · rintro ⟨⟨rfl, shallow, stands⟩, tailShallow, tailStands⟩
            exact ⟨⟨shallow, tailShallow⟩, _, _, stands, tailStands, rfl, rfl, rfl⟩

mutual
theorem Phrase.depth_of_value? : (phrase : Phrase) → {value : Json} →
    phrase.value? = some value → value.depth = phrase.depth
  | .null, _, stands | .boolean _, _, stands | .string _, _, stands => by
      cases stands
      rfl
  | .number _, _, stands => by
      rcases Option.map_eq_some_iff.mp stands with ⟨_, _, rfl⟩
      rfl
  | .array elements, _, stands => by
      rcases Option.map_eq_some_iff.mp stands with ⟨_, valuesStand, rfl⟩
      exact congrArg Nat.succ (elements.depth_of_value? valuesStand)
  | .object members, _, stands => by
      rcases Option.map_eq_some_iff.mp stands with ⟨_, valuesStand, rfl⟩
      exact congrArg Nat.succ (members.depth_of_value? valuesStand)

theorem Phrases.depth_of_value? : (elements : Phrases) → {values : Elements} →
    elements.value? = some values → values.depth = elements.depth
  | .nil, _, stands => by
      cases stands
      rfl
  | .cons head tail, _, stands => by
      rcases Phrases.value?_cons_eq_some_iff.mp stands with ⟨_, _, headStands, tailStands, rfl⟩
      rw [Elements.depth, head.depth_of_value? headStands, tail.depth_of_value? tailStands,
        Phrases.depth]

theorem Entries.depth_of_value? : (members : Entries) → {values : Members} →
    members.value? = some values → values.depth = members.depth
  | .nil, _, stands => by
      cases stands
      rfl
  | .cons _ head tail, _, stands => by
      rcases Entries.value?_cons_eq_some_iff.mp stands with ⟨_, _, headStands, tailStands, rfl⟩
      rw [Members.depth, head.depth_of_value? headStands, tail.depth_of_value? tailStands,
        Entries.depth]
end

open Grammar

/-! ## What is left -/

theorem Grammar.Digits.isSuffix {digits text rest : List Char}
    (derived : Digits digits text rest) : rest <:+ text :=
  ⟨digits, (digits_iff.mp derived).2.symm⟩

theorem Grammar.ExponentPart.isSuffix {exponent : Option (Bool × List Char)}
    {text rest : List Char} (derived : ExponentPart exponent text rest) : rest <:+ text := by
  cases derived with
  | absent => exact List.suffix_refl _
  | unsigned _ derived => exact derived.isSuffix.trans ⟨[_], rfl⟩
  | positive _ derived | negative _ derived => exact derived.isSuffix.trans ⟨[_, _], rfl⟩

theorem Grammar.Magnitude.isSuffix {literal : Literal} {text rest : List Char}
    (derived : Magnitude literal text rest) : rest <:+ text := by
  rcases derived with ⟨whole, fraction, exponent⟩
  have afterWhole : _ <:+ text := ⟨_, (wholePart_iff.mp whole).2.symm⟩
  have afterFraction : _ <:+ _ := ⟨_, (fractionPart_iff.mp fraction).2.symm⟩
  exact exponent.isSuffix.trans (afterFraction.trans afterWhole)

theorem Grammar.Numeral.isSuffix {literal : Literal} {text rest : List Char}
    (derived : Numeral literal text rest) : rest <:+ text := by
  cases derived with
  | positive _ derived => exact derived.isSuffix
  | negative _ derived => exact derived.isSuffix.trans (List.suffix_cons _ _)

theorem Grammar.Characters.isSuffix {characters text rest : List Char}
    (derived : Characters characters text rest) : rest <:+ text := by
  induction derived with
  | close => exact List.suffix_cons _ _
  | plain _ _ _ _ induction => exact induction.trans (List.suffix_cons _ _)
  | short _ _ induction => exact induction.trans ⟨[_, _], rfl⟩
  | unit _ _ induction => exact induction.trans ⟨[_, _, _, _, _, _], rfl⟩
  | pair _ _ _ _ _ _ _ _ induction =>
      exact induction.trans ⟨[_, _, _, _, _, _, _, _, _, _, _, _], rfl⟩

theorem Grammar.Quoted.isSuffix {value : String} {text rest : List Char}
    (derived : Quoted value text rest) : rest <:+ text := by
  cases derived with
  | quotes derived => exact derived.isSuffix.trans (List.suffix_cons _ _)

mutual
theorem Grammar.Value.isSuffix {phrase : Phrase} {text rest : List Char} :
    Value phrase text rest → rest <:+ text
  | .nullWord | .trueWord => ⟨[_, _, _, _], rfl⟩
  | .falseWord => ⟨[_, _, _, _, _], rfl⟩
  | .number derived => derived.isSuffix
  | .string derived => derived.isSuffix
  | .emptyArray blanks | .emptyObject blanks =>
      blanks.isSuffix_tail.trans (List.suffix_cons _ _)
  | .array derived => derived.isSuffix.trans (List.suffix_cons _ _)
  | .object derived => derived.isSuffix.trans (List.suffix_cons _ _)

theorem Grammar.Spaced.isSuffix {phrase : Phrase} {text rest : List Char} :
    Spaced phrase text rest → rest <:+ text
  | .blanks blanks derived => derived.isSuffix.trans blanks.isSuffix

theorem Grammar.Items.isSuffix {elements : Phrases} {text rest : List Char} :
    Items elements text rest → rest <:+ text
  | .last head blanks => blanks.isSuffix_tail.trans head.isSuffix
  | .next head blanks tail => tail.isSuffix.trans (blanks.isSuffix_tail.trans head.isSuffix)

theorem Grammar.Field.isSuffix {key : String} {value : Phrase} {text rest : List Char} :
    Field key value text rest → rest <:+ text
  | .pair blanks quoted colon derived =>
      derived.isSuffix.trans
        (colon.isSuffix_tail.trans (quoted.isSuffix.trans blanks.isSuffix))

theorem Grammar.Fields.isSuffix {members : Entries} {text rest : List Char} :
    Fields members text rest → rest <:+ text
  | .last head blanks => blanks.isSuffix_tail.trans head.isSuffix
  | .next head blanks tail => tail.isSuffix.trans (blanks.isSuffix_tail.trans head.isSuffix)
end

/-! ## First characters of derived texts -/

theorem Grammar.Numeral.starts {literal : Literal} {text rest : List Char}
    (derived : Numeral literal text rest) :
    ∃ first others, text = first :: others ∧ startsNumber first = true := by
  cases derived with
  | positive _ derived =>
      rcases derived.starts with ⟨digit, others, same, isDigit⟩
      exact ⟨digit, others, same, by simp [startsNumber, isDigit]⟩
  | negative _ _ => exact ⟨'-', _, rfl, rfl⟩

theorem Grammar.Value.starts {phrase : Phrase} {text rest : List Char}
    (derived : Value phrase text rest) :
    ∃ first others, text = first :: others ∧ startsValue first = true := by
  cases derived with
  | number derived =>
      rcases derived.starts with ⟨first, others, same, isNumber⟩
      exact ⟨first, others, same, by simp [startsValue, startsScalar, isNumber]⟩
  | string derived =>
      cases derived
      exact ⟨_, _, rfl, rfl⟩
  | nullWord | trueWord | falseWord | emptyArray _ | array _ | emptyObject _ | object _ =>
      exact ⟨_, _, rfl, rfl⟩

theorem Grammar.Spaced.starts {phrase : Phrase} {text rest : List Char}
    (derived : Spaced phrase text rest) :
    ∃ first others, startsValue first = true ∧ Blanks text (first :: others) := by
  cases derived with
  | blanks blanks derived =>
      rcases derived.starts with ⟨first, others, same, isValue⟩
      rw [same] at blanks
      exact ⟨first, others, isValue, blanks⟩

theorem areItems_spaced : AreItems Spaced where
  starts := fun derived => derived.starts
  isSuffix := fun derived => derived.isSuffix

theorem areItems_member : AreItems Member where
  starts := by
    rintro ⟨key, phrase⟩ text rest ⟨blanks, ⟨_⟩, _, _⟩
    exact ⟨_, _, rfl, blanks⟩
  isSuffix := fun derived => derived.isSuffix

/-! ## Scalars -/

theorem dropWord_eq_some_iff {word text rest : List Char} :
    Text.dropWord word text = some rest ↔ text = word ++ rest := by
  rw [Text.dropWord]
  constructor
  · intro dropped
    split at dropped
    · rename_i starts
      rcases List.isPrefixOf_iff_prefix.mp starts with ⟨left, same⟩
      cases dropped
      simp [← same]
    · cases dropped
  · intro same
    simp [same]

theorem readNumber_eq_some_iff {text rest : List Char} {number : Number} :
    readNumber text = some (number, rest) ↔
      ∃ literal, readLiteral text = some (literal, rest) ∧ literal.number? = some number := by
  constructor
  · intro read
    rcases Option.bind_eq_some_iff.mp read with ⟨⟨literal, left⟩, literalRead, read⟩
    rcases Option.bind_eq_some_iff.mp read with ⟨number, stands, same⟩
    cases same
    exact ⟨literal, literalRead, stands⟩
  · rintro ⟨literal, literalRead, stands⟩
    simp [readNumber, literalRead, stands]

theorem readValue_of_startsScalar {first : Char} (starts : startsScalar first = true)
    (levels : Nat) (text : List Char) :
    readValue levels (first :: text) = readScalar (first :: text) := by
  have isValue : startsValue first = true := by simp [startsValue, starts]
  have noArray : first ≠ '[' := by
    intro same
    subst same
    cases starts
  have noObject : first ≠ '\x7b' := by
    intro same
    subst same
    cases starts
  cases levels with
  | zero =>
      rw [readValue, skipBlanks_of_startsValue isValue]
      split <;> simp_all
  | succ levels =>
      rw [readValue, skipBlanks_of_startsValue isValue]
      split <;> simp_all

theorem readScalar_of_startsNumber {first : Char} (starts : startsNumber first = true)
    (text : List Char) :
    readScalar (first :: text) =
      (readNumber (first :: text)).map fun (value, rest) => (.number value, rest) := by
  unfold readScalar
  split
  case h_5 => rfl
  all_goals
    rename_i same
    cases same
    cases starts

theorem exists_phrase_of_readScalar {text rest : List Char} {value : Json}
    (read : readScalar text = some (value, rest)) :
    ∃ phrase, Value phrase text rest ∧ phrase.depth = 0 ∧ phrase.value? = some value := by
  unfold readScalar at read
  split at read
  · rcases Option.map_eq_some_iff.mp read with ⟨left, dropped, same⟩
    cases same
    rw [dropWord_eq_some_iff.mp dropped]
    exact ⟨.null, .nullWord, rfl, rfl⟩
  · rcases Option.map_eq_some_iff.mp read with ⟨left, dropped, same⟩
    cases same
    rw [dropWord_eq_some_iff.mp dropped]
    exact ⟨.boolean true, .trueWord, rfl, rfl⟩
  · rcases Option.map_eq_some_iff.mp read with ⟨left, dropped, same⟩
    cases same
    rw [dropWord_eq_some_iff.mp dropped]
    exact ⟨.boolean false, .falseWord, rfl, rfl⟩
  · rcases Option.map_eq_some_iff.mp read with ⟨⟨string, left⟩, stringRead, same⟩
    cases same
    exact ⟨.string string, .string (readString_recognizes.sound stringRead), rfl, rfl⟩
  · rcases Option.map_eq_some_iff.mp read with ⟨⟨number, left⟩, numberRead, same⟩
    cases same
    rcases readNumber_eq_some_iff.mp numberRead with ⟨literal, literalRead, stands⟩
    exact ⟨.number literal, .number (readLiteral_recognizes.sound literalRead), rfl,
      by rw [Phrase.value?, stands]; rfl⟩

theorem Grammar.Value.readValue_of_flat {phrase : Phrase} {text rest : List Char}
    (derived : Value phrase text rest) (flat : phrase.depth = 0) {value : Json}
    (stands : phrase.value? = some value) (ends : EndsNumber rest) (levels : Nat) :
    readValue levels text = some (value, rest) := by
  cases derived with
  | nullWord | trueWord | falseWord =>
      cases stands
      rw [readValue_of_startsScalar rfl]
      rfl
  | number derived =>
      rcases Option.map_eq_some_iff.mp stands with ⟨number, numberStands, rfl⟩
      have numberRead := readNumber_eq_some_iff.mpr
        ⟨_, readLiteral_recognizes.complete derived ends, numberStands⟩
      rcases derived.starts with ⟨first, others, rfl, isNumber⟩
      have isScalar : startsScalar first = true := by simp [startsScalar, isNumber]
      rw [readValue_of_startsScalar isScalar, readScalar_of_startsNumber isNumber, numberRead]
      rfl
  | string derived =>
      have stringRead := readString_recognizes.complete derived trivial
      cases derived
      cases stands
      rw [readValue_of_startsScalar rfl, readScalar, stringRead]
      rfl
  | emptyArray _ | array _ | emptyObject _ | object _ => exact absurd flat (Nat.succ_ne_zero _)

/-! ## Arrays and objects -/

def IsWritten (levels : Nat) (value : Json) (text rest : List Char) : Prop :=
  ∃ phrase, Spaced phrase text rest ∧ Stands levels phrase value

def IsMember (levels : Nat) (member : String × Json) (text rest : List Char) : Prop :=
  ∃ written, Member written text rest ∧
    written.1 = member.1 ∧ Stands levels written.2 member.2

theorem readValue_of_blanks {text start : List Char} (blanks : Blanks text start)
    (levels : Nat) : readValue levels text = readValue levels start := by
  cases levels with
  | zero => rw [readValue, readValue, skipBlanks_of_blanks blanks]
  | succ levels => rw [readValue, readValue, skipBlanks_of_blanks blanks]

theorem readMember_eq_some_iff {item : Reader Json} {text : List Char} {key : String}
    {value : Json} {rest : List Char} :
    readMember item text = some ((key, value), rest) ↔
      ∃ start stop afterColon, Blanks text start ∧ Quoted key start stop ∧
        Blanks stop (':' :: afterColon) ∧ item afterColon = some (value, rest) := by
  have colonVisible : isBlank ':' = false := rfl
  constructor
  · intro read
    rw [readMember] at read
    split at read
    · cases read
    · rename_i key stop keyRead
      split at read
      · rename_i afterColon skipped
        rcases Option.map_eq_some_iff.mp read with ⟨⟨value, left⟩, valueRead, same⟩
        cases same
        exact ⟨skipBlanks text, stop, afterColon, blanks_skipBlanks text,
          readString_recognizes.sound keyRead,
          (skipBlanks_eq_cons_iff colonVisible).mp skipped, valueRead⟩
      · cases read
  · rintro ⟨start, stop, afterColon, blanks, quoted, colon, valueRead⟩
    have keyRead := readString_recognizes.complete quoted trivial
    cases quoted with
    | quotes characters =>
        have quoteVisible : isBlank '"' = false := rfl
        rw [readMember, (skipBlanks_eq_cons_iff quoteVisible).mpr blanks, keyRead]
        simp [(skipBlanks_eq_cons_iff colonVisible).mpr colon, valueRead]

theorem readMember_recognizes {reader : Reader Json} {levels : Nat}
    (recognizes : reader.Recognizes (IsWritten levels) EndsNumber) :
    Reader.Recognizes (readMember reader) (IsMember levels) EndsNumber where
  sound := by
    rintro text ⟨key, value⟩ rest read
    rcases readMember_eq_some_iff.mp read
      with ⟨start, stop, afterColon, blanks, quoted, colon, valueRead⟩
    rcases recognizes.sound valueRead with ⟨phrase, derived, stands⟩
    exact ⟨(key, phrase), .pair blanks quoted colon derived, rfl, stands⟩
  complete := by
    rintro text ⟨key, value⟩ rest ⟨⟨_, phrase⟩, ⟨blanks, quoted, colon, derived⟩, rfl, stands⟩ ends
    exact readMember_eq_some_iff.mpr ⟨_, _, _, blanks, quoted, colon,
      recognizes.complete ⟨phrase, derived, stands⟩ ends⟩

section Enclosed

variable {text rest : List Char} {levels : Nat}

theorem Grammar.value_array_iff {elements : Phrases} :
    Value (.array elements) ('[' :: text) rest ↔
      Enclosed Spaced ']' elements.toList text rest := by
  constructor
  · intro derived
    cases derived with
    | emptyArray blanks => exact .inl ⟨rfl, blanks⟩
    | array items => exact .inr (items_iff.mp items)
  · rintro (⟨empty, blanks⟩ | items)
    · cases elements with
      | nil => exact .emptyArray blanks
      | cons _ _ => cases empty
    · exact .array (items_iff.mpr items)

theorem Grammar.value_object_iff {members : Entries} :
    Value (.object members) ('\x7b' :: text) rest ↔
      Enclosed Member '\x7d' members.toList text rest := by
  constructor
  · intro derived
    cases derived with
    | emptyObject blanks => exact .inl ⟨rfl, blanks⟩
    | object fields => exact .inr (fields_iff.mp fields)
  · rintro (⟨empty, blanks⟩ | fields)
    · cases members with
      | nil => exact .emptyObject blanks
      | cons _ _ _ => cases empty
    · exact .object (fields_iff.mpr fields)

theorem Grammar.Value.exists_array {elements : Phrases}
    (derived : Value (.array elements) text rest) : ∃ inner, text = '[' :: inner := by
  cases derived <;> exact ⟨_, rfl⟩

theorem Grammar.Value.exists_object {members : Entries}
    (derived : Value (.object members) text rest) : ∃ inner, text = '\x7b' :: inner := by
  cases derived <;> exact ⟨_, rfl⟩

theorem stands_array_iff {elements : Phrases} {values : Elements} :
    Stands (levels + 1) (.array elements) (.array values) ↔
      List.Forall₂ (Stands levels) elements.toList values.toList := by
  rw [← Phrases.stands_iff]
  simp [Stands, Phrase.depth, Phrase.value?]

theorem stands_object_iff {members : Entries} {values : Members} :
    Stands (levels + 1) (.object members) (.object values) ↔
      List.Forall₂ (fun written member => written.1 = member.1 ∧ Stands levels written.2 member.2)
        members.toList values.toList := by
  rw [← Entries.stands_iff]
  simp [Stands, Phrase.depth, Phrase.value?]

variable (recognizes : (readValue levels).Recognizes (IsWritten levels) EndsNumber)

include recognizes

theorem readEnclosed_array_iff {values : Elements} :
    readEnclosed (readValue levels) ']' text = some (values.toList, rest) ↔
      ∃ elements, Value (.array elements) ('[' :: text) rest ∧
        Stands (levels + 1) (.array elements) (.array values) := by
  rw [readEnclosed_eq_some_iff closes_bracket areItems_spaced.exists recognizes,
    enclosed_exists_iff]
  simp only [value_array_iff, stands_array_iff]
  exact Phrases.toList_surjective.exists

theorem readEnclosed_object_iff {values : Members} :
    readEnclosed (readMember (readValue levels)) '\x7d' text = some (values.toList, rest) ↔
      ∃ members, Value (.object members) ('\x7b' :: text) rest ∧
        Stands (levels + 1) (.object members) (.object values) := by
  rw [readEnclosed_eq_some_iff closes_brace areItems_member.exists
    (readMember_recognizes recognizes), enclosed_exists_iff]
  simp only [value_object_iff, stands_object_iff]
  exact Entries.toList_surjective.exists

end Enclosed

/-! ## Values -/

theorem isWritten_of_readScalar {levels : Nat} {text rest : List Char} {value : Json}
    (read : readScalar (skipBlanks text) = some (value, rest)) :
    IsWritten levels value text rest := by
  rcases exists_phrase_of_readScalar read with ⟨phrase, derived, flat, stands⟩
  exact ⟨phrase, .blanks (blanks_skipBlanks text) derived, flat ▸ Nat.zero_le _, stands⟩

/-- What the reader takes is derived, and conversely whatever stands behind it. -/
theorem readValue_recognizes (levels : Nat) :
    (readValue levels).Recognizes (IsWritten levels) EndsNumber := by
  induction levels with
  | zero =>
      constructor
      · intro text value rest read
        rw [readValue] at read
        split at read
        · cases read
        · cases read
        · exact isWritten_of_readScalar read
      · rintro text value rest ⟨phrase, ⟨blanks, derived⟩, shallow, stands⟩ ends
        rw [readValue_of_blanks blanks]
        exact derived.readValue_of_flat (Nat.le_zero.mp shallow) stands ends 0
  | succ levels induction =>
      -- Elements and members are read with one level less, which `induction` is about.
      constructor
      · intro text value rest read
        rw [readValue] at read
        split at read
        · rename_i inner skipped
          have blanks := (skipBlanks_eq_cons_iff rfl).mp skipped
          rcases Option.map_eq_some_iff.mp read with ⟨⟨values, left⟩, enclosed, same⟩
          cases same
          rw [← Elements.toList_ofList values, readEnclosed_array_iff induction] at enclosed
          rcases enclosed with ⟨elements, derived, stands⟩
          exact ⟨_, .blanks blanks derived, stands⟩
        · rename_i inner skipped
          have blanks := (skipBlanks_eq_cons_iff rfl).mp skipped
          rcases Option.map_eq_some_iff.mp read with ⟨⟨values, left⟩, enclosed, same⟩
          cases same
          rw [← Members.toList_ofList values, readEnclosed_object_iff induction] at enclosed
          rcases enclosed with ⟨members, derived, stands⟩
          exact ⟨_, .blanks blanks derived, stands⟩
        · exact isWritten_of_readScalar read
      · rintro text value rest ⟨phrase, ⟨blanks, derived⟩, stands⟩ ends
        rw [readValue_of_blanks blanks]
        cases phrase with
        | null | boolean _ | number _ | string _ =>
            exact derived.readValue_of_flat rfl stands.2 ends _
        | array elements =>
            rcases Option.map_eq_some_iff.mp stands.2 with ⟨values, _, rfl⟩
            rcases derived.exists_array with ⟨inner, rfl⟩
            rw [readValue, skipBlanks_of_startsValue rfl]
            simp [(readEnclosed_array_iff induction).mpr ⟨elements, derived, stands⟩]
        | object members =>
            rcases Option.map_eq_some_iff.mp stands.2 with ⟨values, _, rfl⟩
            rcases derived.exists_object with ⟨inner, rfl⟩
            rw [readValue, skipBlanks_of_startsValue rfl]
            simp [(readEnclosed_object_iff induction).mpr ⟨members, derived, stands⟩]

/-- A text is read as a value exactly if it is derived from a phrase for this value that is
not nested too deeply. -/
theorem parse?_eq_some_iff {text : List Char} {value : Json} :
    parse? text = some value ↔
      ∃ phrase, IsText phrase text ∧ phrase.depth ≤ maximalDepth ∧
        phrase.value? = some value := by
  constructor
  · intro parsed
    rw [parse?] at parsed
    split at parsed
    · cases parsed
    · rename_i found rest read
      split at parsed
      · rename_i atEnd
        cases parsed
        rcases (readValue_recognizes maximalDepth).sound read
          with ⟨phrase, derived, shallow, stands⟩
        have blanks := blanks_skipBlanks rest
        rw [atEnd] at blanks
        exact ⟨phrase, ⟨rest, derived, blanks⟩, shallow, stands⟩
      · cases parsed
  · rintro ⟨phrase, ⟨stop, derived, blanks⟩, shallow, stands⟩
    have read := (readValue_recognizes maximalDepth).complete ⟨phrase, derived, shallow, stands⟩
      (endsNumber_of_blanks blanks (stops_nil _))
    have atEnd : skipBlanks stop = [] := skipBlanks_of_blanks blanks
    rw [parse?, read]
    exact if_pos atEnd

theorem depth_le_of_parse? {text : List Char} {value : Json}
    (parsed : parse? text = some value) : value.depth ≤ maximalDepth := by
  rcases parse?_eq_some_iff.mp parsed with ⟨phrase, _, shallow, stands⟩
  rw [phrase.depth_of_value? stands]
  exact shallow

end Json

end Relay
