import Relay.Proofs.Json.Recognition

namespace Relay.Json

open Grammar

/-! The grammar is not ambiguous: a text is derived from one phrase only. The first character
of a value decides between the rules, and what stands behind a value decides where its
numbers end. -/

theorem Grammar.Numeral.not_of_startsNumber {first : Char} {text rest : List Char}
    {literal : Literal} (derived : Numeral literal (first :: text) rest)
    (other : startsNumber first = false) : False := by
  rcases derived.starts with ⟨_, _, same, isNumber⟩
  cases same
  rw [other] at isNumber
  cases isNumber

/-! ## First characters -/

section First

variable {phrase : Phrase} {first : Char} {text rest : List Char}

theorem Grammar.Value.exists_numeral (derived : Value phrase (first :: text) rest)
    (isNumber : startsNumber first = true) :
    ∃ literal, phrase = .number literal ∧ Numeral literal (first :: text) rest := by
  cases derived with
  | number derived => exact ⟨_, rfl, derived⟩
  | string derived =>
      cases derived
      cases isNumber
  | nullWord | trueWord | falseWord | emptyArray _ | array _ | emptyObject _ | object _ =>
      cases isNumber

theorem Grammar.Value.exists_elements (derived : Value phrase ('[' :: text) rest) :
    ∃ elements, phrase = .array elements ∧ Value (.array elements) ('[' :: text) rest := by
  cases derived with
  | number derived => exact (derived.not_of_startsNumber rfl).elim
  | string derived => cases derived
  | emptyArray blanks => exact ⟨_, rfl, .emptyArray blanks⟩
  | array items => exact ⟨_, rfl, .array items⟩

theorem Grammar.Value.exists_members (derived : Value phrase ('\x7b' :: text) rest) :
    ∃ members, phrase = .object members ∧ Value (.object members) ('\x7b' :: text) rest := by
  cases derived with
  | number derived => exact (derived.not_of_startsNumber rfl).elim
  | string derived => cases derived
  | emptyObject blanks => exact ⟨_, rfl, .emptyObject blanks⟩
  | object fields => exact ⟨_, rfl, .object fields⟩

end First

/-! ## Values -/

theorem isAlone_spaced {phrase : Phrase} (alone : IsAlone Value phrase) :
    IsAlone Spaced phrase := by
  rintro other text rest otherRest ⟨blanks, derived⟩ ⟨otherBlanks, otherDerived⟩ ends otherEnds
  rcases derived.starts with ⟨first, others, rfl, isValue⟩
  rcases otherDerived.starts with ⟨second, more, rfl, otherValue⟩
  rcases blanks.unique (not_isBlank_of_startsValue isValue)
    (not_isBlank_of_startsValue otherValue) otherBlanks with ⟨rfl, rfl⟩
  exact alone derived otherDerived ends otherEnds

theorem isAlone_member {member : String × Phrase} (alone : IsAlone Value member.2) :
    IsAlone Member member := by
  rcases member with ⟨key, phrase⟩
  rintro ⟨otherKey, other⟩ text rest otherRest ⟨blanks, quoted, colon, derived⟩
    ⟨otherBlanks, otherQuoted, otherColon, otherDerived⟩ ends otherEnds
  have sameStart : ∀ {value : String} {start stop : List Char}, Quoted value start stop →
      ∃ characters, start = '"' :: characters := by
    rintro _ _ _ ⟨_⟩
    exact ⟨_, rfl⟩
  rcases sameStart quoted with ⟨characters, rfl⟩
  rcases sameStart otherQuoted with ⟨otherCharacters, rfl⟩
  rcases blanks.unique rfl rfl otherBlanks with ⟨_, rfl⟩
  rcases readString_recognizes.unique quoted otherQuoted trivial trivial with ⟨rfl, rfl⟩
  rcases colon.unique rfl rfl otherColon with ⟨_, rfl⟩
  rcases isAlone_spaced alone derived otherDerived ends otherEnds with ⟨rfl, sameRest⟩
  exact ⟨rfl, sameRest⟩

mutual
theorem Phrase.isAlone : (phrase : Phrase) → IsAlone Value phrase
  | .null => by
      rintro ⟨⟩ otherDerived _ _
      cases otherDerived with
      | nullWord => exact ⟨rfl, rfl⟩
      | number derived => exact (derived.not_of_startsNumber rfl).elim
      | string derived => cases derived
  | .boolean true => by
      rintro ⟨⟩ otherDerived _ _
      cases otherDerived with
      | trueWord => exact ⟨rfl, rfl⟩
      | number derived => exact (derived.not_of_startsNumber rfl).elim
      | string derived => cases derived
  | .boolean false => by
      rintro ⟨⟩ otherDerived _ _
      cases otherDerived with
      | falseWord => exact ⟨rfl, rfl⟩
      | number derived => exact (derived.not_of_startsNumber rfl).elim
      | string derived => cases derived
  | .number literal => by
      intro derived otherDerived ends otherEnds
      rcases derived with _ | _ | _ | derived
      rcases derived.starts with ⟨first, others, rfl, isNumber⟩
      rcases otherDerived.exists_numeral isNumber with ⟨otherLiteral, rfl, otherNumeral⟩
      rcases readLiteral_recognizes.unique derived otherNumeral ends otherEnds with ⟨rfl, sameRest⟩
      exact ⟨rfl, sameRest⟩
  | .string value => by
      intro derived otherDerived _ _
      rcases derived with _ | _ | _ | _ | ⟨⟨characters⟩⟩
      cases otherDerived with
      | number derived => exact (derived.not_of_startsNumber rfl).elim
      | string otherDerived =>
          rcases readString_recognizes.unique (.quotes characters) otherDerived trivial trivial
            with ⟨rfl, sameRest⟩
          exact ⟨rfl, sameRest⟩
  | .array elements => by
      intro derived otherDerived _ _
      rcases derived.exists_array with ⟨inner, rfl⟩
      rcases otherDerived.exists_elements with ⟨others, rfl, otherDerived⟩
      rw [value_array_iff] at derived otherDerived
      rcases derived.unique closes_bracket areItems_spaced
        (fun phrase member => isAlone_spaced (elements.areAlone phrase member)) otherDerived
        with ⟨sameElements, sameRest⟩
      exact ⟨congrArg Phrase.array (Phrases.toList_injective sameElements), sameRest⟩
  | .object members => by
      intro derived otherDerived _ _
      rcases derived.exists_object with ⟨inner, rfl⟩
      rcases otherDerived.exists_members with ⟨others, rfl, otherDerived⟩
      rw [value_object_iff] at derived otherDerived
      rcases derived.unique closes_brace areItems_member
        (fun member inMembers => isAlone_member (members.areAlone member inMembers)) otherDerived
        with ⟨sameMembers, sameRest⟩
      exact ⟨congrArg Phrase.object (Entries.toList_injective sameMembers), sameRest⟩

theorem Phrases.areAlone : (elements : Phrases) →
    ∀ phrase ∈ elements.toList, IsAlone Value phrase
  | .nil => fun _ member => nomatch member
  | .cons head tail => List.forall_mem_cons.mpr ⟨head.isAlone, tail.areAlone⟩

theorem Entries.areAlone : (members : Entries) →
    ∀ member ∈ members.toList, IsAlone Value member.2
  | .nil => fun _ member => nomatch member
  | .cons _ value rest => List.forall_mem_cons.mpr ⟨value.isAlone, rest.areAlone⟩
end

/-- A whole text is derived from one phrase only. -/
theorem IsText.unique {left right : Phrase} {text : List Char} (derived : IsText left text)
    (otherDerived : IsText right text) : left = right := by
  rcases derived with ⟨stop, derived, blanks⟩
  rcases otherDerived with ⟨otherStop, otherDerived, otherBlanks⟩
  exact (isAlone_spaced left.isAlone derived otherDerived
    (endsNumber_of_blanks blanks (stops_nil _)) (endsNumber_of_blanks otherBlanks (stops_nil _))).1

end Relay.Json
