import Relay.Proofs.Json.Range
import Relay.Proofs.Json.Recognition
import Relay.Request

namespace Relay

/-! What frames are read as, in terms of the grammar of JSON texts. A frame that the grammar
derives is an envelope or a value of another kind; every other frame is no JSON text for its
sender. The reader has two limits of its own: how deep values are nested and how large
numbers are. -/

namespace Json

open Grammar

mutual
theorem Grammar.Value.isWellFormed {phrase : Phrase} {text rest : List Char} :
    Value phrase text rest → ∀ literal ∈ phrase.literals, literal.IsWellFormed
  | .nullWord, _, member | .trueWord, _, member | .falseWord, _, member
  | .string _, _, member | .emptyArray _, _, member | .emptyObject _, _, member => nomatch member
  | .number derived, literal, member => by
      rw [List.mem_singleton.mp member]
      exact derived.isWellFormed
  | .array derived, literal, member => derived.isWellFormed literal member
  | .object derived, literal, member => derived.isWellFormed literal member

theorem Grammar.Spaced.isWellFormed {phrase : Phrase} {text rest : List Char} :
    Spaced phrase text rest → ∀ literal ∈ phrase.literals, literal.IsWellFormed
  | .blanks _ derived => derived.isWellFormed

theorem Grammar.Items.isWellFormed {elements : Phrases} {text rest : List Char} :
    Items elements text rest → ∀ literal ∈ elements.literals, literal.IsWellFormed
  | .last head _, literal, member => by
      rw [Phrases.literals, Phrases.literals, List.append_nil] at member
      exact head.isWellFormed literal member
  | .next head _ tail, literal, member => by
      rcases List.mem_append.mp member with inHead | inTail
      · exact head.isWellFormed literal inHead
      · exact tail.isWellFormed literal inTail

theorem Grammar.Field.isWellFormed {key : String} {phrase : Phrase} {text rest : List Char} :
    Field key phrase text rest → ∀ literal ∈ phrase.literals, literal.IsWellFormed
  | .pair _ _ _ derived => derived.isWellFormed

theorem Grammar.Fields.isWellFormed {members : Entries} {text rest : List Char} :
    Fields members text rest → ∀ literal ∈ members.literals, literal.IsWellFormed
  | .last head _, literal, member => by
      rw [Entries.literals, Entries.literals, List.append_nil] at member
      exact head.isWellFormed literal member
  | .next head _ tail, literal, member => by
      rcases List.mem_append.mp member with inHead | inTail
      · exact head.isWellFormed literal inHead
      · exact tail.isWellFormed literal inTail
end

structure Phrase.IsReadable (phrase : Phrase) (text : List Char) : Prop where
  derived : IsText phrase text
  shallow : phrase.depth ≤ 127
  inRange : ∀ literal ∈ phrase.literals, literal.IsInRange

theorem IsText.isWellFormed {phrase : Phrase} {text : List Char} (derived : IsText phrase text) :
    ∀ literal ∈ phrase.literals, literal.IsWellFormed := by
  rcases derived with ⟨stop, derived, _⟩
  exact derived.isWellFormed

/-- Within its limits the reader reads what the grammar derives, and nothing else. -/
theorem parse?_eq_some_iff_isReadable {text : List Char} {value : Json} :
    parse? text = some value ↔
      ∃ phrase : Phrase, phrase.IsReadable text ∧ phrase.value? = some value := by
  have inRange : ∀ phrase : Phrase, IsText phrase text →
      (phrase.value?.isSome ↔ ∀ literal ∈ phrase.literals, literal.IsInRange) := by
    intro phrase derived
    rw [phrase.isSome_value?_iff]
    exact forall₂_congr fun literal member =>
      Literal.isSome_number?_iff (derived.isWellFormed literal member)
  rw [parse?_eq_some_iff]
  constructor
  · rintro ⟨phrase, derived, shallow, stands⟩
    exact ⟨phrase, ⟨derived, shallow, (inRange phrase derived).mp (by rw [stands]; rfl)⟩, stands⟩
  · rintro ⟨phrase, readable, stands⟩
    exact ⟨phrase, readable.derived, readable.shallow, stands⟩

theorem exists_parse?_of_isReadable {text : List Char} {phrase : Phrase}
    (readable : phrase.IsReadable text) :
    ∃ value, parse? text = some value ∧ value.kind = phrase.kind := by
  have stands : phrase.value?.isSome := by
    rw [phrase.isSome_value?_iff]
    intro literal member
    exact (Literal.isSome_number?_iff (readable.derived.isWellFormed literal member)).mpr
      (readable.inRange literal member)
  rcases Option.isSome_iff_exists.mp stands with ⟨value, stands⟩
  exact ⟨value, parse?_eq_some_iff_isReadable.mpr ⟨phrase, readable, stands⟩,
    Phrase.kind_of_value? stands⟩

end Json

namespace Request

open Json

theorem kind_normalize (value : Json) : value.normalize.kind = value.kind := by
  cases value <;> simp [Json.normalize, Json.kind]

theorem exists_decode_eq_ok {frame : String} {value : Json}
    (parsed : parse? frame.toList = some value) (isObject : value.kind = "object") :
    ∃ request, decode frame = .ok request := by
  rw [← kind_normalize] at isObject
  rw [decode, parsed]
  cases normal : value.normalize with
  | object members => exact ⟨ofMembers members, by simp [normal]⟩
  | null | boolean _ | number _ | string _ | array _ =>
      simp [normal, Json.kind] at isObject

theorem decode_eq_notAnObject {frame : String} {value : Json}
    (parsed : parse? frame.toList = some value) (isOther : value.kind ≠ "object") :
    decode frame = .error (.notAnObject value.kind) := by
  rw [← kind_normalize] at isOther ⊢
  rw [decode, parsed]
  cases normal : value.normalize with
  | object members =>
      rw [normal] at isOther
      exact absurd rfl isOther
  | null | boolean _ | number _ | string _ | array _ => simp [normal]

theorem decode_of_isReadable {frame : String} {phrase : Phrase}
    (readable : phrase.IsReadable frame.toList) :
    phrase.kind = "object" ∧ (∃ request, decode frame = .ok request) ∨
      phrase.kind ≠ "object" ∧ decode frame = .error (.notAnObject phrase.kind) := by
  rcases exists_parse?_of_isReadable readable with ⟨value, parsed, sameKind⟩
  rw [← sameKind]
  by_cases isObject : value.kind = "object"
  · exact .inl ⟨isObject, exists_decode_eq_ok parsed isObject⟩
  · exact .inr ⟨isObject, decode_eq_notAnObject parsed isObject⟩

theorem decode_of_not_isReadable {frame : String}
    (unreadable : ¬∃ phrase : Phrase, phrase.IsReadable frame.toList) :
    decode frame = .error (.invalidText (preview frame)) := by
  have unparsed : parse? frame.toList = none := by
    apply Option.eq_none_iff_forall_not_mem.mpr
    intro value parsed
    rcases parse?_eq_some_iff_isReadable.mp parsed with ⟨phrase, readable, _⟩
    exact unreadable ⟨phrase, readable⟩
  rw [decode, unparsed]

theorem decode_cases (frame : String) :
    (¬∃ phrase : Phrase, phrase.IsReadable frame.toList) ∧
        decode frame = .error (.invalidText (preview frame)) ∨
      ∃ phrase : Phrase, phrase.IsReadable frame.toList ∧
        (phrase.kind = "object" ∧ (∃ request, decode frame = .ok request) ∨
          phrase.kind ≠ "object" ∧ decode frame = .error (.notAnObject phrase.kind)) := by
  by_cases someReadable : ∃ phrase : Phrase, phrase.IsReadable frame.toList
  · rcases someReadable with ⟨phrase, readable⟩
    exact .inr ⟨phrase, readable, decode_of_isReadable readable⟩
  · exact .inl ⟨someReadable, decode_of_not_isReadable someReadable⟩

theorem decode_eq_invalidText_iff {frame received : String} :
    decode frame = .error (.invalidText received) ↔
      received = preview frame ∧ ¬∃ phrase : Phrase, phrase.IsReadable frame.toList := by
  constructor
  · intro failed
    rcases decode_cases frame
      with ⟨unreadable, same⟩ | ⟨_, _, ⟨_, _, accepted⟩ | ⟨_, rejected⟩⟩
    · rw [failed] at same
      cases same
      exact ⟨rfl, unreadable⟩
    · rw [failed] at accepted
      cases accepted
    · rw [failed] at rejected
      cases rejected
  · rintro ⟨same, unreadable⟩
    rw [same, decode_of_not_isReadable unreadable]

theorem decode_eq_notAnObject_iff {frame kind : String} :
    decode frame = .error (.notAnObject kind) ↔
      kind ≠ "object" ∧
        ∃ phrase : Phrase, phrase.IsReadable frame.toList ∧ phrase.kind = kind := by
  constructor
  · intro failed
    rcases decode_cases frame
      with ⟨_, unread⟩ | ⟨phrase, readable, ⟨_, _, accepted⟩ | ⟨isOther, same⟩⟩
    · rw [failed] at unread
      cases unread
    · rw [failed] at accepted
      cases accepted
    · rw [failed] at same
      cases same
      exact ⟨isOther, phrase, readable, rfl⟩
  · rintro ⟨isOther, phrase, readable, same⟩
    subst same
    rcases decode_of_isReadable readable with ⟨isObject, _⟩ | ⟨_, rejected⟩
    · exact absurd isObject isOther
    · exact rejected

theorem exists_decode_eq_ok_iff {frame : String} :
    (∃ request, decode frame = .ok request) ↔
      ∃ members, (Phrase.object members).IsReadable frame.toList := by
  constructor
  · rintro ⟨request, accepted⟩
    rcases decode_cases frame
      with ⟨_, unread⟩ | ⟨phrase, readable, ⟨isObject, _⟩ | ⟨_, rejected⟩⟩
    · rw [accepted] at unread
      cases unread
    · cases phrase with
      | object members => exact ⟨members, readable⟩
      | null | boolean _ | number _ | string _ | array _ => simp [Phrase.kind] at isObject
    · rw [accepted] at rejected
      cases rejected
  · rintro ⟨members, readable⟩
    rcases decode_of_isReadable readable with ⟨_, accepted⟩ | ⟨isOther, _⟩
    · exact accepted
    · exact absurd rfl isOther

/-- Exactly the objects are accepted, and every other frame gets the error that fits it. The
range of the reader agrees with the exact value of a number up to four units in the last
place of the greatest one. -/
theorem decode_iff (frame : String) :
    (∀ received, decode frame = .error (.invalidText received) ↔
        received = preview frame ∧ ¬∃ phrase : Phrase, phrase.IsReadable frame.toList) ∧
      (∀ kind, decode frame = .error (.notAnObject kind) ↔
        kind ≠ "object" ∧
          ∃ phrase : Phrase, phrase.IsReadable frame.toList ∧ phrase.kind = kind) ∧
      ((∃ request, decode frame = .ok request) ↔
        ∃ members, (Phrase.object members).IsReadable frame.toList) ∧
      ∀ phrase, IsText phrase frame.toList → ∀ literal ∈ phrase.literals,
        (literal.magnitude ≤ 2 ^ 1024 - 2 ^ 973 → literal.IsInRange) ∧
          (2 ^ 1024 + 2 ^ 973 ≤ literal.magnitude → ¬literal.IsInRange) := by
  refine ⟨fun received => decode_eq_invalidText_iff, fun kind => decode_eq_notAnObject_iff,
    exists_decode_eq_ok_iff, ?_⟩
  intro phrase derived literal member
  have wellFormed := derived.isWellFormed literal member
  exact ⟨Literal.isInRange_of_le wellFormed, Literal.not_isInRange_of_ge wellFormed⟩

def greatestWithZeros : Literal :=
  ⟨false, ['1'], some "797693134862315700".toList, some (false, "308".toList)⟩

/-- Its leading digits are rounded up before the power of ten is applied, so that a number
which is not too large is out of range. -/
theorem decode_greatestWithZeros :
    IsText (.number greatestWithZeros) "1.797693134862315700e308".toList ∧
      (Phrase.number greatestWithZeros).depth = 0 ∧
      greatestWithZeros.magnitude ≤ (2 ^ 53 - 1) * 2 ^ 971 ∧
      decode "1.797693134862315700e308" =
        .error (.invalidText "1.797693134862315700e308") := by
  have read : readLiteral "1.797693134862315700e308".toList = some (greatestWithZeros, []) := by
    decide +kernel
  have unparsed : parse? "1.797693134862315700e308".toList = none := by decide +kernel
  have magnitude : greatestWithZeros.magnitude = 1797693134862315700 * 10 ^ 290 := by
    have digits : Nat.ofDigitChars 10 (['1'] ++ "797693134862315700".toList) 0 =
        1797693134862315700 := by decide +kernel
    have place : Literal.exponentValue (some (false, "308".toList)) -
        "797693134862315700".toList.length = 290 := by decide +kernel
    simp only [Literal.magnitude, greatestWithZeros, Option.getD_some, digits, place, zpow_ofNat,
      Nat.cast_ofNat]
  refine ⟨⟨[], .blanks .none (.number (readLiteral_recognizes.sound read)), .none⟩, rfl, ?_, ?_⟩
  · calc greatestWithZeros.magnitude = 1797693134862315700 * (10 ^ 145) ^ 2 := by
          rw [magnitude, ← pow_mul]
      _ ≤ (2 ^ 53 - 1) * ((2 ^ 243) ^ 3 * 2 ^ 242) := by norm_num
      _ = (2 ^ 53 - 1) * 2 ^ 971 := by rw [← pow_mul, ← pow_add]
  · have shown : preview "1.797693134862315700e308" = "1.797693134862315700e308" := by
      decide +kernel
    rw [decode, unparsed, shown]

end Request

end Relay
