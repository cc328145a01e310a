import Mathlib.Data.List.Forall2
import Relay.Proofs.Envelope.RoundTrip
import Relay.Proofs.Request.Decoding

namespace Relay

/-! The values that are written in an object, and the texts, integers, numbers and lists of
texts that they are read as. -/

open Json

namespace Json

/-! ## Values under a name -/

def valuesOf (name : String) (entries : List (String × Phrase)) : List Phrase :=
  (entries.filter fun entry => entry.1 = name).map Prod.snd

theorem valuesOf_cons (name : String) (entry : String × Phrase)
    (rest : List (String × Phrase)) :
    valuesOf name (entry :: rest) =
      if entry.1 = name then entry.2 :: valuesOf name rest else valuesOf name rest := by
  by_cases isName : entry.1 = name <;> simp [valuesOf, isName]

theorem Entries.forall₂_valuesOf (name : String) {entries : Entries} {members : Members}
    (stands : entries.value? = some members) :
    List.Forall₂ (fun phrase value => phrase.value? = some value)
      (valuesOf name entries.toList) (members.valuesOf name) := by
  induction entries using Entries.toList.induct generalizing members with
  | case1 =>
      cases stands
      exact .nil
  | case2 key phrase rest induction =>
      rcases Option.bind_eq_some_iff.mp stands with ⟨value, valueStands, others⟩
      rcases Option.map_eq_some_iff.mp others with ⟨later, laterStands, same⟩
      subst same
      rw [toList, valuesOf_cons, Members.valuesOf]
      split
      · exact .cons valueStands (induction laterStands)
      · exact induction laterStands

def once? {α : Type} : List α → Option (Option α)
  | [] => some none
  | [value] => some (some value)
  | _ => none

theorem fields?_object (names : List String) (members : Members) :
    (Json.object members).fields? names =
      names.mapM fun name => once? (members.valuesOf name) := by
  rw [fields?]
  congr 1
  funext name
  cases members.valuesOf name with
  | nil => rfl
  | cons value others => cases others <;> rfl

theorem mapM_eq_some_iff {α β : Type} {read : α → Option β} {values : List α}
    {results : List β} :
    values.mapM read = some results ↔
      List.Forall₂ (fun value result => read value = some result) values results := by
  induction values generalizing results with
  | nil => simp
  | cons value values induction =>
      rw [List.forall₂_cons_left_iff]
      simp only [List.mapM_cons, bind, pure, Option.bind_eq_some_iff, Option.some.injEq,
        ← induction]
      constructor
      · rintro ⟨first, firstRead, others, othersRead, rfl⟩
        exact ⟨first, others, firstRead, othersRead, rfl⟩
      · rintro ⟨first, others, firstRead, othersRead, rfl⟩
        exact ⟨first, firstRead, others, othersRead, rfl⟩

theorem exists_of_forall₂ {α β : Type} {Related : α → β → Prop} {left : List α}
    {right : List β} (related : List.Forall₂ Related left right) {value : α}
    (member : value ∈ left) : ∃ partner ∈ right, Related value partner := by
  induction related with
  | nil => cases member
  | cons first _ induction =>
      rcases List.mem_cons.mp member with rfl | later
      · exact ⟨_, List.mem_cons_self, first⟩
      · rcases induction later with ⟨partner, inRight, relates⟩
        exact ⟨partner, List.mem_cons_of_mem _ inRight, relates⟩

theorem length_of_fields? {names : List String} {value : Json} {given : List (Option Json)}
    (fields : value.fields? names = some given) : given.length = names.length := by
  cases value with
  | object members =>
      rw [fields?_object] at fields
      exact (mapM_eq_some_iff.mp fields).length_eq.symm
  | array elements =>
      simp only [fields?] at fields
      split at fields
      · cases fields
        simp only [List.length_append, List.length_map, List.length_replicate]
        omega
      · cases fields
  | null | boolean _ | number _ | string _ => cases fields

/-! ## Values -/

section Values

variable {value : Json}

theorem string?_eq_some_iff {text : String} :
    string? value = some text ↔ value = .string text := by
  cases value <;> simp [string?]

theorem count?_eq_some_iff {number : UInt64} :
    count? value = some number ↔ value = .count number := by
  constructor
  · intro read
    unfold count? at read
    split at read
    · rename_i integer fits
      split at read
      · cases read
        have same : (integer.toNat : Int) = integer := Int.toNat_of_nonneg ‹_›
        have back : (UInt64.ofNat integer.toNat).toNat = integer.toNat :=
          UInt64.toNat_ofNat_of_lt' (show integer.toNat < 2 ^ 64 by omega)
        simp only [Json.count, Number.ofCount, back, same]
      · cases read
    · cases read
  · rintro rfl
    exact count?_count number

theorem port?_eq_some_iff {number : UInt16} :
    port? value = some number ↔ value = .port number := by
  constructor
  · intro read
    unfold port? at read
    split at read
    · rename_i integer fits
      split at read
      · rename_i inRange
        cases read
        have same : (integer.toNat : Int) = integer := Int.toNat_of_nonneg inRange.1
        have back : (UInt16.ofNat integer.toNat).toNat = integer.toNat :=
          UInt16.toNat_ofNat_of_lt' (show integer.toNat < UInt16.size by omega)
        simp only [Json.port, Number.ofPort, back, same]
      · cases read
    · cases read
  · rintro rfl
    exact port?_port number

theorem strings?_eq_some_iff {texts : List String} :
    strings? value = some texts ↔ value = strings texts := by
  constructor
  · intro read
    unfold strings? at read
    split at read
    · rename_i elements
      have each := mapM_eq_some_iff.mp read
      have same : elements.toList = texts.map Json.string := by
        rw [← List.forall₂_eq_eq_eq, List.forall₂_map_right_iff]
        exact each.imp fun _ _ isText => string?_eq_some_iff.mp isText
      rw [strings, ← same, Elements.ofList_toList]
    · cases read
  · rintro rfl
    exact strings?_strings texts

theorem optional_eq_some_iff {α : Type} {read : Json → Option α} {keep : α → Json}
    {kept : Option Json} (noNull : read .null = none) :
    (Json.optional read (some value)).map (Option.map keep) = some kept ↔
      value = .null ∧ kept = none ∨
        ∃ result, read value = some result ∧ some (keep result) = kept := by
  by_cases isNull : value = .null
  · subst isNull
    simp [Json.optional, noNull, eq_comm]
  · have isRead : Json.optional read (some value) = (read value).map some := by
      unfold Json.optional
      split <;> simp_all
    simp [isRead, isNull, Option.map_eq_some_iff]

end Values

/-! ## Phrases -/

def Phrases.strings : List String → Phrases
  | [] => .nil
  | text :: texts => .cons (.string text) (strings texts)

def Phrase.digits (digits : List Char) : Phrase := .number ⟨false, digits, none, none⟩

namespace Literal

theorem number?_eq_integer_iff {literal : Literal} {value : Nat}
    (fits : -0x8000000000000000 ≤ (value : Int) ∧ (value : Int) < 0x10000000000000000) :
    literal.number? = some (.integer value fits) ↔
      literal = ⟨false, literal.whole, none, none⟩ ∧
        Nat.ofDigitChars 10 literal.whole 0 = value := by
  rcases literal with ⟨negative, whole, fraction, exponent⟩
  have isInteger : (Literal.mk negative whole fraction exponent).number? =
      some (.integer value fits) ↔
      (Literal.mk negative whole fraction exponent).integer? = some (.integer value fits) := by
    rw [number?]
    cases (Literal.mk negative whole fraction exponent).integer? <;> simp
  rw [isInteger, integer?_eq]
  cases negative <;> cases fraction <;> cases exponent <;> simp [wholeValue]
  all_goals omega

end Literal

theorem isSome_real? (number : Number) : (real? (.number number)).isSome := by
  cases number with
  | real value => rfl
  | integer value fits =>
      have bounded : value.natAbs < 2 ^ 65 := by omega
      rw [real?, Literal.isSome_ofRank?]
      rcases Nat.eq_zero_or_pos value.natAbs with isZero | positive
      · rw [isZero]
        decide
      · have isPositive : (Fraction.ofNat value.natAbs).IsPositive := ⟨positive, Nat.one_pos⟩
        rw [Double.nearestRank_lt_rankBound_iff isPositive, Fraction.value_ofNat]
        have small : (value.natAbs : ℚ) < 2 ^ 65 := by exact_mod_cast bounded
        have far : (2 : ℚ) ^ 65 ≤ 2 ^ 970 := pow_le_pow_right₀ one_le_two (by decide)
        rw [Double.pow_1024_eq]
        generalize (2 : ℚ) ^ 970 = half at *
        linarith

theorem rankBound_pos : 0 < Double.rankBound := by
  decide

/-- The binary number that a number in range is read as. -/
def Literal.rounded (literal : Literal) : Double :=
  (literal.number?.bind fun number => Json.real? (.number number)).getD ⟨false, 0, rankBound_pos⟩

def Phrase.normalized (phrase : Phrase) : Json := (phrase.value?.getD .null).normalize

namespace Phrase

variable {phrase : Phrase}

theorem value?_eq_null_iff : phrase.value? = some .null ↔ phrase = .null := by
  cases phrase <;> simp [value?]

theorem value?_eq_string_iff {text : String} :
    phrase.value? = some (.string text) ↔ phrase = .string text := by
  cases phrase <;> simp [value?]

theorem value?_eq_number_iff {number : Number} :
    phrase.value? = some (.number number) ↔
      ∃ literal, phrase = .number literal ∧ literal.number? = some number := by
  cases phrase <;> simp [value?]

theorem value?_eq_object_iff {members : Members} :
    phrase.value? = some (.object members) ↔
      ∃ entries, phrase = .object entries ∧ entries.value? = some members := by
  cases phrase <;> simp [value?]

theorem value?_eq_integer_iff {number : Nat}
    (fits : -0x8000000000000000 ≤ (number : Int) ∧ (number : Int) < 0x10000000000000000) :
    phrase.value? = some (.number (.integer number fits)) ↔
      ∃ digits, phrase = .digits digits ∧ Nat.ofDigitChars 10 digits 0 = number := by
  rw [value?_eq_number_iff]
  simp only [Literal.number?_eq_integer_iff]
  constructor
  · rintro ⟨literal, rfl, same, isNumber⟩
    exact ⟨literal.whole, congrArg Phrase.number same, isNumber⟩
  · rintro ⟨digits, rfl, isNumber⟩
    exact ⟨_, rfl, rfl, isNumber⟩

end Phrase

theorem Phrases.value?_eq_strings_iff {elements : Phrases} {texts : List String} :
    elements.value? = some (.ofList (texts.map Json.string)) ↔ elements = .strings texts := by
  induction texts generalizing elements with
  | nil =>
      cases elements <;>
        simp [Phrases.value?, Elements.ofList, strings, Option.bind_eq_some_iff]
  | cons text texts induction =>
      cases elements with
      | nil => simp [Phrases.value?, Elements.ofList, strings]
      | cons head tail =>
          simp only [Phrases.value?, List.map_cons, Elements.ofList, strings,
            Option.bind_eq_some_iff, Option.map_eq_some_iff, Elements.cons.injEq,
            Phrases.cons.injEq, ← induction, ← Phrase.value?_eq_string_iff]
          constructor
          · rintro ⟨value, headStands, values, tailStands, rfl, rfl⟩
            exact ⟨headStands, tailStands⟩
          · rintro ⟨headStands, tailStands⟩
            exact ⟨_, headStands, _, tailStands, rfl, rfl⟩

theorem Phrase.value?_eq_strings_iff {phrase : Phrase} {texts : List String} :
    phrase.value? = some (strings texts) ↔ phrase = .array (.strings texts) := by
  cases phrase <;> simp [Phrase.value?, Json.strings, Phrases.value?_eq_strings_iff]

/-! ## Values of phrases -/

namespace Phrase

variable {phrase : Phrase} {value : Json} (stands : phrase.value? = some value)
include stands

theorem eq_iff (other : Json) : value = other ↔ phrase.value? = some other := by
  rw [stands, Option.some.injEq]

theorem eq_null_iff : value = .null ↔ phrase = .null := by
  rw [eq_iff stands, value?_eq_null_iff]

theorem string?_iff {text : String} : string? value = some text ↔ phrase = .string text := by
  rw [string?_eq_some_iff, eq_iff stands, value?_eq_string_iff]

theorem count?_iff {number : UInt64} :
    count? value = some number ↔
      ∃ digits, phrase = .digits digits ∧ Nat.ofDigitChars 10 digits 0 = number.toNat := by
  rw [count?_eq_some_iff, eq_iff stands]
  exact value?_eq_integer_iff _

theorem port?_iff {number : UInt16} :
    port? value = some number ↔
      ∃ digits, phrase = .digits digits ∧ Nat.ofDigitChars 10 digits 0 = number.toNat := by
  rw [port?_eq_some_iff, eq_iff stands]
  exact value?_eq_integer_iff _

theorem real?_iff {real : Double} :
    real? value = some real ↔ ∃ literal, phrase = .number literal ∧ literal.rounded = real := by
  have ofLiteral : ∀ {literal : Literal} {number}, literal.number? = some number →
      real? (.number number) = some literal.rounded := by
    intro literal number isNumber
    rcases Option.isSome_iff_exists.mp (isSome_real? number) with ⟨real, isReal⟩
    rw [Literal.rounded, isNumber, Option.bind_some, isReal, Option.getD_some]
  constructor
  · intro read
    cases value with
    | number number =>
        rcases value?_eq_number_iff.mp stands with ⟨literal, isNumber, numberStands⟩
        exact ⟨literal, isNumber, Option.some.inj ((ofLiteral numberStands).symm.trans read)⟩
    | null | boolean _ | string _ | array _ | object _ => cases read
  · rintro ⟨literal, rfl, rfl⟩
    rcases Option.map_eq_some_iff.mp stands with ⟨number, isNumber, rfl⟩
    exact ofLiteral isNumber

theorem strings?_iff {texts : List String} :
    strings? value = some texts ↔ phrase = .array (.strings texts) := by
  rw [strings?_eq_some_iff, eq_iff stands, value?_eq_strings_iff]

end Phrase

end Json

end Relay
