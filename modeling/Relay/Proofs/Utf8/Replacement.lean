import Relay.Proofs.Utf8.Defects

namespace Relay

/-! What is shown of octets that are no UTF-8. One replacement stands in the place of every
maximal ill-formed part, and everything else is read as it is. -/

namespace Utf8

theorem decodeLossy_append_utf8EncodeChar (value : Char) (others : List UInt8) :
    decodeLossy (String.utf8EncodeChar value ++ others) = value :: decodeLossy others := by
  rcases front_append value others with ⟨first, rest, octets, isFront⟩
  rw [octets, List.cons_append, decodeLossy, isFront]
  simp only [List.drop_left]

theorem decodeLossy_flatMap_append (characters : List Char) (others : List UInt8) :
    decodeLossy (characters.flatMap String.utf8EncodeChar ++ others) =
      characters ++ decodeLossy others := by
  induction characters with
  | nil => rfl
  | cons value characters induction =>
      rw [List.flatMap_cons, List.append_assoc, decodeLossy_append_utf8EncodeChar, induction,
        List.cons_append]

theorem decodeLossy_append (text : String) (others : List UInt8) :
    decodeLossy (encode text ++ others) = text.toList ++ decodeLossy others := by
  rw [encode_eq_flatMap, decodeLossy_flatMap_append]

theorem decodeLossy_of_isIllFormedPart {part others : List UInt8}
    (isPart : IsIllFormedPart part (part ++ others)) :
    decodeLossy (part ++ others) = replacement :: decodeLossy others := by
  cases part with
  | nil => rcases isPart.initial with single | ⟨someOctets, _⟩ <;> simp_all
  | cons first rest =>
      rw [List.cons_append] at isPart ⊢
      rw [decodeLossy]
      cases isFront : front first (rest ++ others) with
      | character value further =>
          have octets := octets_of_front isFront
          have inFront : String.utf8EncodeChar value <+: first :: (rest ++ others) :=
            octets ▸ List.cons_prefix_cons.mpr ⟨rfl, List.take_prefix _ _⟩
          exact absurd inFront (isPart.noCharacter value)
      | illFormed further =>
          have same := isPart.unique (isIllFormedPart_of_illFormed isFront)
          rw [List.cons.injEq] at same
          have isOthers : (rest ++ others).drop further = others := by
            have size := congrArg List.length same.2
            have inside := (further_of_illFormed isFront).2
            rw [List.length_take, Nat.min_eq_left inside] at size
            rw [← size, List.drop_left]
          simp only [isOthers]
      | truncated =>
          have same := isPart.unique (isIllFormedPart_of_truncated isFront)
          rw [List.cons.injEq, List.self_eq_append_right] at same
          rw [same.2, decodeLossy]

/-- Octets and what they are read as: characters in the place of their encodings, and one
replacement in the place of every maximal ill-formed part. -/
inductive Mends : List UInt8 → List Char → Prop
  | nil : Mends [] []
  | character {value octets characters} : Mends octets characters →
      Mends (String.utf8EncodeChar value ++ octets) (value :: characters)
  | part {part octets characters} : IsIllFormedPart part (part ++ octets) →
      Mends octets characters → Mends (part ++ octets) (replacement :: characters)

theorem mends_decodeLossy (octets : List UInt8) : Mends octets (decodeLossy octets) := by
  induction octets using decodeLossy.induct with
  | case1 =>
      rw [decodeLossy]
      exact .nil
  | case2 first rest value further isFront induction =>
      have octets : first :: rest = String.utf8EncodeChar value ++ rest.drop further := by
        rw [octets_of_front isFront, List.cons_append, List.take_append_drop]
      rw [decodeLossy, isFront]
      rw [octets]
      exact .character induction
  | case3 first rest further isFront induction =>
      have octets : first :: rest = (first :: rest.take further) ++ rest.drop further := by
        rw [List.cons_append, List.take_append_drop]
      have isPart := isIllFormedPart_of_illFormed isFront
      rw [decodeLossy, isFront]
      rw [octets] at isPart ⊢
      exact .part isPart induction
  | case4 first rest isFront =>
      have isPart := isIllFormedPart_of_truncated isFront
      have octets : first :: rest = (first :: rest) ++ [] := by rw [List.append_nil]
      rw [decodeLossy, isFront]
      rw [octets]
      exact .part (by rwa [List.append_nil]) .nil

/-- The replacement is the only such reading. -/
theorem mends_iff {octets : List UInt8} {characters : List Char} :
    Mends octets characters ↔ characters = decodeLossy octets := by
  constructor
  · intro mends
    induction mends with
    | nil => rw [decodeLossy]
    | character mends induction => rw [decodeLossy_append_utf8EncodeChar, induction]
    | part isPart mends induction => rw [decodeLossy_of_isIllFormedPart isPart, induction]
  · intro same
    rw [same]
    exact mends_decodeLossy octets

theorem decodeLossy_of_decode {octets : List UInt8} {defect : Defect}
    (failed : decode octets = .error defect) :
    ∃ (text : String) (others : List Char), encode text = octets.take defect.index ∧
      decodeLossy octets = text.toList ++ replacement :: others := by
  rcases exists_isBehind failed with ⟨characters, first, rest, same, isBehind⟩
  have isReplaced : ∃ others, decodeLossy (first :: rest) = replacement :: others := by
    rw [decodeLossy]
    rcases isBehind.cause with ⟨further, isDefect, _⟩ | ⟨breaksOff, _⟩
    · rw [isDefect]
      exact ⟨_, rfl⟩
    · rw [breaksOff]
      exact ⟨_, rfl⟩
  rcases isReplaced with ⟨others, isReplaced⟩
  refine ⟨String.ofList characters, others, ?_, ?_⟩
  · rw [encode_ofList, same, isBehind.index, List.take_left]
  · rw [same, decodeLossy_flatMap_append, isReplaced, String.toList_ofList]

end Utf8

namespace Request

theorem decodeOctets_eq_invalidOctets_iff {octets : List UInt8} {received : String}
    {defect : Utf8.Defect} :
    decodeOctets octets = .error (.invalidOctets received defect) ↔
      Utf8.decode octets = .error defect ∧
        received = preview (String.ofList (Utf8.decodeLossy octets)) := by
  rw [decodeOctets]
  cases decoded : Utf8.decode octets with
  | error other =>
      simp only [Except.error.injEq, FrameError.invalidOctets.injEq]
      exact ⟨fun same => ⟨same.2, same.1.symm⟩, fun same => ⟨same.2.symm, same.1⟩⟩
  | ok text =>
      constructor
      · intro refused
        simp only [decode] at refused
        split at refused
        · cases refused
        · split at refused <;> cases refused
      · intro refused
        cases refused.1

/-- Octets are refused for their encoding exactly if no text is encoded by them. The report
names the first defect, its reason says which of the two kinds it is, and the start of the
octets is shown with one replacement in the place of every maximal ill-formed part, the first
of them at the defect. -/
theorem decodeOctets_reports_defect (octets : List UInt8) :
    ((∃ received defect, decodeOctets octets = .error (.invalidOctets received defect)) ↔
        Utf8.IsForeign octets) ∧
      (∀ received defect,
        decodeOctets octets = .error (.invalidOctets received defect) →
          defect.IsFirst octets ∧
            (FrameError.invalidOctets received defect).message? =
              (match defect.length with
                | none => some ("invalid JSON: incomplete utf-8 byte sequence from index " ++
                    toString defect.index)
                | some length => some ("invalid JSON: invalid utf-8 sequence of " ++
                    toString length ++ " bytes from index " ++ toString defect.index)) ∧
            (∃ (text : String) (others : List Char),
              Utf8.encode text = octets.take defect.index ∧
                Utf8.decodeLossy octets = text.toList ++ '\ufffd' :: others) ∧
            received = String.ofList ((Utf8.decodeLossy octets).take 100)) ∧
      (∀ (text : String) (others : List UInt8),
        Utf8.decodeLossy (Utf8.encode text ++ others) =
          text.toList ++ Utf8.decodeLossy others) ∧
      ∀ characters, Utf8.Mends octets characters ↔ characters = Utf8.decodeLossy octets := by
  refine ⟨?_, ?_, Utf8.decodeLossy_append, fun _ => Utf8.mends_iff⟩
  · rw [Utf8.isForeign_iff]
    constructor
    · rintro ⟨received, defect, refused⟩
      exact ⟨defect, (decodeOctets_eq_invalidOctets_iff.mp refused).1⟩
    · rintro ⟨defect, failed⟩
      exact ⟨_, defect, decodeOctets_eq_invalidOctets_iff.mpr ⟨failed, rfl⟩⟩
  · intro received defect refused
    rcases decodeOctets_eq_invalidOctets_iff.mp refused with ⟨failed, shown⟩
    refine ⟨Utf8.isFirst_of_decode failed, ?_, Utf8.decodeLossy_of_decode failed, ?_⟩
    · rw [FrameError.message?, Utf8.Defect.text]
      cases defect.length with
      | none => rfl
      | some length => rfl
    · rw [shown, preview, String.toList_ofList]
      rfl

/-- Two octets of a character whose third octet is another character. -/
theorem decodeOctets_reports_defect_broken :
    let octets : List UInt8 := [0x61, 0xe2, 0x82, 0x28]
    let refused : FrameError := .invalidOctets "a\ufffd(" ⟨1, some 2⟩
    decodeOctets octets = .error refused ∧ Utf8.IsForeign octets ∧
      Utf8.Defect.IsFirst octets ⟨1, some 2⟩ ∧
      refused.message? =
        some "invalid JSON: invalid utf-8 sequence of 2 bytes from index 1" := by
  intro octets refused
  have failed : Utf8.decode octets = .error ⟨1, some 2⟩ := by
    simp [octets, Utf8.decode, Utf8.decodeFrom, Utf8.front, Utf8.further?, Utf8.isBetween,
      Utf8.tests, Utf8.mark, Utf8.frontFrom, Utf8.isSecond, Utf8.isContinuation, Except.map]
  have replaced : Utf8.decodeLossy octets = ['a', '\ufffd', '('] := by
    simp [octets, Utf8.decodeLossy, Utf8.front, Utf8.further?, Utf8.isBetween, Utf8.tests,
      Utf8.mark, Utf8.frontFrom, Utf8.isSecond, Utf8.isContinuation, Utf8.replacement]
  have isRefused : decodeOctets octets = .error refused := by
    rw [decodeOctets_eq_invalidOctets_iff, replaced]
    exact ⟨failed, by decide⟩
  have reported := decodeOctets_reports_defect octets
  have described := reported.2.1 "a\ufffd(" ⟨1, some 2⟩ isRefused
  exact ⟨isRefused, reported.1.mp ⟨_, _, isRefused⟩, described.1, described.2.1⟩

end Request

end Relay
