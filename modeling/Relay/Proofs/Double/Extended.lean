import Relay.Double.Extended
import Relay.Proofs.Double.Nearest
import Relay.Proofs.Json.Reprinting
import Relay.Proofs.Json.Tokens

namespace Relay

/-! Texts of binary numbers, of the infinities and of what is no number. The grammar is stated
apart from the reader, and the number of a decimal is the one that it is nearest to. The
reader accepts exactly these texts, and the text of every number is read as this number. -/

open Json (IsDigits isDigits_toDigits isDigits_zero Stops stops_nil stops_cons
  leadingDigits_append readDigits_append readDigits_recognizes digits_iff)

/-! ## Signed digits -/

namespace Text

inductive IsSign : List Char → Bool → Prop
  | none : IsSign [] false
  | plus : IsSign ['+'] false
  | minus : IsSign ['-'] true

def isSignCharacter (character : Char) : Bool := character = '+' || character = '-'

def signed (negative : Bool) (size : Nat) : Int := if negative then -size else size

inductive IsSigned : List Char → Int → Prop
  | digits {sign digits : List Char} {negative : Bool} (isSign : IsSign sign negative)
      (isDigits : IsDigits digits) :
      IsSigned (sign ++ digits) (signed negative (Nat.ofDigitChars 10 digits 0))

theorem exists_isSign (text : List Char) :
    ∃ sign, IsSign sign (readSign text).1 ∧ text = sign ++ (readSign text).2 := by
  unfold readSign
  split
  · exact ⟨_, .plus, rfl⟩
  · exact ⟨_, .minus, rfl⟩
  · exact ⟨_, .none, rfl⟩

theorem readSign_append {sign text : List Char} {negative : Bool} (isSign : IsSign sign negative)
    (stops : Stops isSignCharacter text) : readSign (sign ++ text) = (negative, text) := by
  cases isSign with
  | plus | minus => rfl
  | none =>
      rw [List.nil_append]
      unfold readSign
      split
      · cases stops '+' rfl
      · cases stops '-' rfl
      · rfl

theorem isSignCharacter_of_isDigit {character : Char} (isDigit : character.isDigit = true) :
    isSignCharacter character = false := by
  rw [isSignCharacter, Bool.or_eq_false_iff, decide_eq_false_iff_not, decide_eq_false_iff_not]
  constructor <;> rintro rfl <;> cases isDigit

theorem stops_of_isDigits {digits : List Char} (isDigits : IsDigits digits) :
    Stops isSignCharacter digits := fun character isHead =>
  isSignCharacter_of_isDigit (isDigits.2 character (List.mem_of_mem_head? isHead))

theorem digit?_of_isDigit {character : Char} (isDigit : character.isDigit = true) :
    digit? 10 character = some (character.toNat - '0'.toNat) := by
  have between : '0' ≤ character ∧ character ≤ '9' := by
    rw [Char.isDigit, Bool.and_eq_true, decide_eq_true_eq, decide_eq_true_eq] at isDigit
    exact isDigit
  have less : character.toNat - '0'.toNat < 10 := by
    have atMost : character.toNat ≤ '9'.toNat := between.2
    simp only [Char.reduceToNat] at atMost ⊢
    omega
  rw [digit?, if_pos between, Option.filter_some, if_pos (decide_eq_true less)]

theorem valueOf_eq {digits : List Char} (isDigits : ∀ digit ∈ digits, digit.isDigit = true) :
    valueOf 10 digits = Nat.ofDigitChars 10 digits 0 := by
  rw [valueOf, Nat.ofDigitChars_eq_foldl]
  refine List.foldl_ext _ _ _ fun value digit member => ?_
  rw [digit?_of_isDigit (isDigits digit member), Option.getD_some, Nat.mul_comm]

theorem readDigits_eq_some_nil_iff {digits text : List Char} :
    readDigits text = some (digits, []) ↔ IsDigits digits ∧ text = digits := by
  constructor
  · intro read
    have derived := digits_iff.mp (readDigits_recognizes.sound read)
    rwa [List.append_nil] at derived
  · rintro ⟨isDigits, rfl⟩
    have read := readDigits_append isDigits (stops_nil _)
    rwa [List.append_nil] at read

def readSigned? (text : List Char) : Option Int :=
  match readDigits (readSign text).2 with
  | some (digits, []) => some (signed (readSign text).1 (valueOf 10 digits))
  | _ => none

theorem readSigned?_eq_some_iff {text : List Char} {value : Int} :
    readSigned? text = some value ↔ IsSigned text value := by
  constructor
  · intro read
    rcases exists_isSign text with ⟨sign, isSign, same⟩
    rw [readSigned?] at read
    generalize readSign text = signRead at isSign same read
    split at read
    · rename_i digits isRead
      cases read
      rcases readDigits_eq_some_nil_iff.mp isRead with ⟨isDigits, rest⟩
      rw [same, rest, valueOf_eq isDigits.2]
      exact .digits isSign isDigits
    · cases read
  · rintro ⟨isSign, isDigits⟩
    rw [readSigned?, readSign_append isSign (stops_of_isDigits isDigits),
      readDigits_eq_some_nil_iff.mpr ⟨isDigits, rfl⟩]
    exact congrArg some (by rw [valueOf_eq isDigits.2])

theorem IsSigned.unique {text : List Char} {left right : Int} (isLeft : IsSigned text left)
    (isRight : IsSigned text right) : left = right := by
  rw [← readSigned?_eq_some_iff] at isLeft isRight
  rw [isLeft] at isRight
  exact Option.some.inj isRight

theorem IsSigned.isPart {text : List Char} {value : Int} (isSigned : IsSigned text value)
    {character : Char} (member : character ∈ text) :
    (isSignCharacter character || character.isDigit) = true := by
  rcases isSigned with ⟨isSign, isDigits⟩
  rcases List.mem_append.mp member with inSign | inDigits
  · cases isSign with
    | none => cases inSign
    | plus | minus =>
        rw [List.mem_singleton.mp inSign]
        rfl
  · rw [isDigits.2 character inDigits, Bool.or_true]

end Text

namespace ExtendedDouble

open Text (IsSign IsSigned isSignCharacter readSign leadingDigits afterDigits valueOf)

/-! ## Numerals -/

inductive IsExponent : List Char → Int → Prop
  | none : IsExponent [] 0
  | some {letter : Char} {text : List Char} {value : Int} (isLetter : letter = 'e' ∨ letter = 'E')
      (isSigned : IsSigned text value) : IsExponent (letter :: text) value

inductive IsNumeral : List Char → ℚ → Prop
  | whole {digits exponentText : List Char} {exponent : Int} (isDigits : IsDigits digits)
      (isExponent : IsExponent exponentText exponent) :
      IsNumeral (digits ++ exponentText) (Nat.ofDigitChars 10 digits 0 * 10 ^ exponent)
  | point {whole fraction exponentText : List Char} {exponent : Int}
      (isDigits : IsDigits (whole ++ fraction)) (isExponent : IsExponent exponentText exponent) :
      IsNumeral (whole ++ '.' :: (fraction ++ exponentText))
        (Nat.ofDigitChars 10 (whole ++ fraction) 0 * 10 ^ (exponent - fraction.length))

/-- Whether a number is what a sign and an absolute value are rounded to. The infinities begin
at the middle between the greatest number and the next power of two. -/
def IsRounded (negative : Bool) (value : ℚ) : ExtendedDouble → Prop
  | .finite number => number.negative = negative ∧ Double.IsNearest number.rank value
  | .infinite sign => sign = negative ∧ 2 ^ 1024 - 2 ^ 970 ≤ value
  | .notANumber => False

inductive IsReal : List Char → ExtendedDouble → Prop
  | infinite {sign word : List Char} {negative : Bool} (isSign : IsSign sign negative)
      (isWord : Text.lower word = "inf".toList ∨ Text.lower word = "infinity".toList) :
      IsReal (sign ++ word) (.infinite negative)
  | notANumber {sign word : List Char} {negative : Bool} (isSign : IsSign sign negative)
      (isWord : Text.lower word = "nan".toList) : IsReal (sign ++ word) .notANumber
  | decimal {sign numeral : List Char} {negative : Bool} {value : ℚ} {number : ExtendedDouble}
      (isSign : IsSign sign negative) (isNumeral : IsNumeral numeral value)
      (isRounded : IsRounded negative value number) : IsReal (sign ++ numeral) number

theorem ofDecimal_eq_iff {negative : Bool} {digits : Nat} {exponent : Int}
    {number : ExtendedDouble} : ofDecimal negative digits exponent = number ↔
      IsRounded negative (digits * (10 : ℚ) ^ exponent) number := by
  rw [ofDecimal]
  cases number with
  | finite number =>
      rw [IsRounded, ← Double.ofDecimal?_eq_some_iff]
      cases Double.ofDecimal? negative digits exponent <;> simp
  | infinite sign =>
      rw [IsRounded, ← @Double.ofDecimal?_eq_none_iff digits exponent negative]
      cases Double.ofDecimal? negative digits exponent <;> simp [eq_comm]
  | notANumber => cases Double.ofDecimal? negative digits exponent <;> simp [IsRounded]

/-! ## The reader -/

def isDigitOrPoint (character : Char) : Bool := character.isDigit || character = '.'

theorem stops_digits {text : List Char} (stops : Stops isDigitOrPoint text) :
    Stops Char.isDigit text :=
  stops.mono fun character isDigit => by rw [isDigitOrPoint, isDigit, Bool.true_or]

theorem readExponent?_cons (letter : Char) (text : List Char) :
    readExponent? (letter :: text) =
      if letter = 'e' ∨ letter = 'E' then Text.readSigned? text else none := rfl

theorem readExponent?_eq_some_iff {text : List Char} {exponent : Int} :
    readExponent? text = some exponent ↔ IsExponent text exponent := by
  constructor
  · intro read
    cases text with
    | nil =>
        cases read
        exact .none
    | cons letter text =>
        rw [readExponent?_cons] at read
        split at read
        · rename_i isLetter
          exact .some isLetter (Text.readSigned?_eq_some_iff.mp read)
        · cases read
  · intro isExponent
    cases isExponent with
    | none => rfl
    | some isLetter isSigned =>
        rw [readExponent?_cons, if_pos isLetter]
        exact Text.readSigned?_eq_some_iff.mpr isSigned

theorem IsExponent.stops {text : List Char} {exponent : Int}
    (isExponent : IsExponent text exponent) : Stops isDigitOrPoint text := by
  cases isExponent with
  | none => exact stops_nil _
  | some isLetter _ =>
      apply stops_cons
      rcases isLetter with rfl | rfl <;> rfl

theorem IsNumeral.exists_head {text : List Char} {value : ℚ} (isNumeral : IsNumeral text value) :
    ∃ character others, text = character :: others ∧ isDigitOrPoint character = true := by
  have isStart {digit : Char} {others : List Char} (isDigits : IsDigits (digit :: others)) :
      isDigitOrPoint digit = true := by
    rw [isDigitOrPoint, isDigits.2 digit List.mem_cons_self, Bool.true_or]
  cases isNumeral with
  | @whole digits _ _ isDigits _ =>
      cases digits with
      | nil => exact absurd rfl isDigits.1
      | cons digit others => exact ⟨digit, _, rfl, isStart isDigits⟩
  | @point whole _ _ _ isDigits _ =>
      cases whole with
      | nil => exact ⟨'.', _, rfl, rfl⟩
      | cons digit others => exact ⟨digit, _, rfl, isStart isDigits⟩

section Magnitude

variable {negative : Bool} {whole fraction rest : List Char}

theorem readMagnitude?_whole (isWhole : ∀ digit ∈ whole, digit.isDigit = true)
    (stops : Stops isDigitOrPoint rest) :
    readMagnitude? negative (whole ++ rest) =
      if whole = [] then none
      else (readExponent? rest).map fun exponent =>
        ofDecimal negative (Nat.ofDigitChars 10 whole 0) exponent := by
  rcases leadingDigits_append isWhole (stops_digits stops) with ⟨leading, after⟩
  rw [readMagnitude?, leading, after]
  split
  rename_i read isRead
  split at isRead
  · cases stops '.' rfl
  · cases isRead
    simp [Text.valueOf_eq isWhole]

theorem readMagnitude?_point (isWhole : ∀ digit ∈ whole, digit.isDigit = true)
    (isFraction : ∀ digit ∈ fraction, digit.isDigit = true) (stops : Stops Char.isDigit rest) :
    readMagnitude? negative (whole ++ '.' :: (fraction ++ rest)) =
      if whole ++ fraction = [] then none
      else (readExponent? rest).map fun exponent =>
        ofDecimal negative (Nat.ofDigitChars 10 (whole ++ fraction) 0)
          (exponent - fraction.length) := by
  have isDigits := List.forall_mem_append.mpr ⟨isWhole, isFraction⟩
  have stopsWhole : Stops Char.isDigit ('.' :: (fraction ++ rest)) := stops_cons rfl _
  rcases leadingDigits_append isWhole stopsWhole with ⟨leading, after⟩
  rcases leadingDigits_append isFraction stops with ⟨leadingFraction, afterFraction⟩
  rw [readMagnitude?, leading, after]
  simp only [leadingFraction, afterFraction, Text.valueOf_eq isDigits]

theorem stops_afterDigits (text : List Char) : Stops Char.isDigit (afterDigits text) := by
  intro character isHead
  have stopped := List.head?_dropWhile_not Char.isDigit text
  rw [afterDigits] at isHead
  rwa [isHead] at stopped

theorem exists_digits (text : List Char) : ∃ whole, (∀ digit ∈ whole, digit.isDigit = true) ∧
    ((∃ rest, Stops isDigitOrPoint rest ∧ text = whole ++ rest) ∨
    ∃ fraction rest, (∀ digit ∈ fraction, digit.isDigit = true) ∧ Stops Char.isDigit rest ∧
      text = whole ++ '.' :: (fraction ++ rest)) := by
  have isLeading (text : List Char) : ∀ digit ∈ leadingDigits text, digit.isDigit = true :=
    fun digit member => List.all_eq_true.mp List.all_takeWhile digit member
  have parts (text : List Char) : leadingDigits text ++ afterDigits text = text :=
    List.takeWhile_append_dropWhile
  have split := parts text
  have stops := stops_afterDigits text
  refine ⟨leadingDigits text, isLeading text, ?_⟩
  cases after : afterDigits text with
  | nil =>
      rw [after] at split
      exact .inl ⟨[], stops_nil _, split.symm⟩
  | cons character rest =>
      rw [after] at split stops
      by_cases isPoint : character = '.'
      · right
        refine ⟨leadingDigits rest, afterDigits rest, isLeading rest, stops_afterDigits rest, ?_⟩
        rw [parts, ← isPoint, split]
      · left
        refine ⟨character :: rest, stops_cons ?_ rest, split.symm⟩
        rw [isDigitOrPoint, stops character rfl, decide_eq_false isPoint]
        rfl

theorem readMagnitude?_eq_some_iff {text : List Char} {number : ExtendedDouble} :
    readMagnitude? negative text = some number ↔
      ∃ value, IsNumeral text value ∧ IsRounded negative value number := by
  constructor
  · intro read
    rcases exists_digits text with
      ⟨whole, isWhole, ⟨rest, stops, rfl⟩ | ⟨fraction, rest, isFraction, stops, rfl⟩⟩
    · rw [readMagnitude?_whole isWhole stops] at read
      split at read
      · cases read
      · rename_i someDigits
        rcases Option.map_eq_some_iff.mp read with ⟨exponent, isRead, isNumber⟩
        exact ⟨_, .whole ⟨someDigits, isWhole⟩ (readExponent?_eq_some_iff.mp isRead),
          ofDecimal_eq_iff.mp isNumber⟩
    · rw [readMagnitude?_point isWhole isFraction stops] at read
      split at read
      · cases read
      · rename_i someDigits
        rcases Option.map_eq_some_iff.mp read with ⟨exponent, isRead, isNumber⟩
        have isDigits := List.forall_mem_append.mpr ⟨isWhole, isFraction⟩
        exact ⟨_, .point ⟨someDigits, isDigits⟩ (readExponent?_eq_some_iff.mp isRead),
          ofDecimal_eq_iff.mp isNumber⟩
  · rintro ⟨value, isNumeral, isRounded⟩
    cases isNumeral with
    | whole isDigits isExponent =>
        rw [readMagnitude?_whole isDigits.2 isExponent.stops, if_neg isDigits.1,
          readExponent?_eq_some_iff.mpr isExponent, Option.map_some, ofDecimal_eq_iff.mpr isRounded]
    | point isDigits isExponent =>
        rcases List.forall_mem_append.mp isDigits.2 with ⟨isWhole, isFraction⟩
        rw [readMagnitude?_point isWhole isFraction (stops_digits isExponent.stops),
          if_neg isDigits.1, readExponent?_eq_some_iff.mpr isExponent, Option.map_some,
          ofDecimal_eq_iff.mpr isRounded]

end Magnitude

theorem stops_of_lower {word rest : List Char} {first : Char}
    (isWord : Text.lower word = first :: rest) (noSign : isSignCharacter first = false) :
    Stops isSignCharacter word := by
  cases word with
  | nil => cases isWord
  | cons character others =>
      apply stops_cons
      have isFirst : character.toLower = first := (List.cons.inj isWord).1
      rw [← isFirst] at noSign
      rw [isSignCharacter, Bool.or_eq_false_iff, decide_eq_false_iff_not,
        decide_eq_false_iff_not]
      constructor <;> rintro rfl <;> cases noSign

theorem isSignCharacter_of_isDigitOrPoint {character : Char}
    (isStart : isDigitOrPoint character = true) : isSignCharacter character = false := by
  rcases Bool.or_eq_true_iff.mp isStart with isDigit | isPoint
  · exact Text.isSignCharacter_of_isDigit isDigit
  · rw [of_decide_eq_true isPoint]
    rfl

theorem toLower_of_isDigitOrPoint {character : Char} (isStart : isDigitOrPoint character = true) :
    character.toLower = character := by
  rcases Bool.or_eq_true_iff.mp isStart with isDigit | isPoint
  · have notUpper : ¬(character.val ≥ 'A'.val ∧ character.val ≤ 'Z'.val) := by
      rintro ⟨atLeast, -⟩
      have atMost := (Char.isDigit_iff_toNat.mp isDigit).2
      have atLeast : 'A'.toNat ≤ character.toNat := UInt32.le_iff_toNat_le.mp atLeast
      exact absurd (atLeast.trans atMost) (by decide)
    exact dif_neg notUpper
  · rw [of_decide_eq_true isPoint]
    rfl

theorem IsNumeral.stops {text : List Char} {value : ℚ} (isNumeral : IsNumeral text value) :
    Stops isSignCharacter text := by
  rcases isNumeral.exists_head with ⟨character, others, rfl, isStart⟩
  exact stops_cons (isSignCharacter_of_isDigitOrPoint isStart) others

theorem IsNumeral.lower_ne {text rest : List Char} {value : ℚ} {first : Char}
    (isNumeral : IsNumeral text value) (isOther : isDigitOrPoint first = false) :
    Text.lower text ≠ first :: rest := by
  rcases isNumeral.exists_head with ⟨character, others, rfl, isStart⟩
  intro isWord
  have isFirst : character.toLower = first := (List.cons.inj isWord).1
  rw [← isFirst, toLower_of_isDigitOrPoint isStart, isStart] at isOther
  cases isOther

theorem parse?_append {sign text : List Char} {negative : Bool} (isSign : IsSign sign negative)
    (stops : Stops isSignCharacter text) :
    parse? (sign ++ text) =
      match String.ofList (Text.lower text) with
      | "inf" | "infinity" => some (.infinite negative)
      | "nan" => some .notANumber
      | _ => readMagnitude? negative text := by
  rewrite [parse?, Text.readSign_append isSign stops]
  rfl

/-- The reader accepts the texts of the grammar, and no others. -/
theorem parse?_eq_some_iff {text : List Char} {number : ExtendedDouble} :
    parse? text = some number ↔ IsReal text number := by
  have ofList_eq_iff {word : List Char} {name : String} :
      String.ofList word = name ↔ word = name.toList := by
    rw [← String.toList_inj, String.toList_ofList]
  constructor
  · intro read
    rcases Text.exists_isSign text with ⟨sign, isSign, same⟩
    rw [parse?] at read
    generalize readSign text = signRead at isSign same read
    rw [same]
    dsimp only at read
    split at read
    · rename_i isWord
      cases read
      exact .infinite isSign (.inl (ofList_eq_iff.mp isWord))
    · rename_i isWord
      cases read
      exact .infinite isSign (.inr (ofList_eq_iff.mp isWord))
    · rename_i isWord
      cases read
      exact .notANumber isSign (ofList_eq_iff.mp isWord)
    · rcases readMagnitude?_eq_some_iff.mp read with ⟨value, isNumeral, isRounded⟩
      exact .decimal isSign isNumeral isRounded
  -- What stands behind the sign does not start with another one, so that the sign is read.
  · intro isReal
    cases isReal with
    | infinite isSign isWord =>
        rcases isWord with isWord | isWord
        · rw [parse?_append isSign (stops_of_lower isWord rfl), isWord, String.ofList_toList]
          rfl
        · rw [parse?_append isSign (stops_of_lower isWord rfl), isWord, String.ofList_toList]
          rfl
    | notANumber isSign isWord =>
        rw [parse?_append isSign (stops_of_lower isWord rfl), isWord, String.ofList_toList]
        rfl
    | decimal isSign isNumeral isRounded =>
        rw [parse?_append isSign isNumeral.stops]
        split
        · rename_i isWord
          exact absurd (ofList_eq_iff.mp isWord) (isNumeral.lower_ne rfl)
        · rename_i isWord
          exact absurd (ofList_eq_iff.mp isWord) (isNumeral.lower_ne rfl)
        · rename_i isWord
          exact absurd (ofList_eq_iff.mp isWord) (isNumeral.lower_ne rfl)
        · exact readMagnitude?_eq_some_iff.mpr ⟨_, isNumeral, isRounded⟩

theorem exists_isReal_of_isSigned {text : List Char} {value : Int}
    (isSigned : IsSigned text value) : ∃ number, IsReal text number := by
  rcases isSigned with ⟨isSign, isDigits⟩
  have isNumeral := IsNumeral.whole isDigits .none
  rw [List.append_nil] at isNumeral
  exact ⟨_, .decimal isSign isNumeral (ofDecimal_eq_iff.mp rfl)⟩

theorem IsReal.lower_ne {text rest : List Char} {number : ExtendedDouble}
    (isReal : IsReal text number) {first : Char} (isFirst : first = 't' ∨ first = 'f') :
    Text.lower text ≠ first :: rest := by
  have afterSign {sign word : List Char} {negative : Bool} (isSign : IsSign sign negative)
      (isOther : Text.lower word ≠ first :: rest) : Text.lower (sign ++ word) ≠ first :: rest := by
    intro isWord
    cases isSign with
    | none => exact isOther isWord
    | plus | minus =>
        have starts := (List.cons.inj isWord).1
        rcases isFirst with rfl | rfl <;> cases starts
  cases isReal with
  | infinite isSign isWord =>
      apply afterSign isSign
      rcases isWord with isWord | isWord <;> rw [isWord] <;> rcases isFirst with rfl | rfl <;> nofun
  | notANumber isSign isWord =>
      apply afterSign isSign
      rw [isWord]
      rcases isFirst with rfl | rfl <;> nofun
  | decimal isSign isNumeral _ =>
      apply afterSign isSign (isNumeral.lower_ne ?_)
      rcases isFirst with rfl | rfl <;> rfl

/-! ## Written numbers -/

theorem isSign_signText (negative : Bool) : IsSign (signText negative) negative := by
  cases negative
  · exact .none
  · exact .minus

theorem magnitude_zero (negative : Bool) (whole : List Char) :
    (Json.Literal.mk negative whole (some ['0']) none).magnitude =
      Nat.ofDigitChars 10 whole 0 := by
  have tenfold : Nat.ofDigitChars 10 (whole ++ ['0']) 0 = 10 * Nat.ofDigitChars 10 whole 0 := by
    rw [Nat.ofDigitChars_append, Nat.ofDigitChars_cons, Nat.ofDigitChars_nil, Nat.sub_self,
      Nat.add_zero]
  simp only [Json.Literal.magnitude, Option.getD_some, tenfold, Json.Literal.exponentValue]
  push_cast
  norm_num
  field_simp

theorem isNumeral_positional {digits : List Char} (isDigits : IsDigits digits) (point : Int) :
    IsNumeral (Decimal.positional digits point)
      (Nat.ofDigitChars 10 digits 0 * 10 ^ (point - digits.length)) := by
  rw [← Json.Literal.magnitude_positional false]
  cases point with
  | ofNat point =>
      cases point with
      | zero =>
          have numeral := @IsNumeral.point ['0'] digits [] 0 (isDigits.zeros_append 1) .none
          rwa [List.append_nil] at numeral
      | succ point =>
          rw [Json.Literal.positional_succ, Json.Literal.decimal_positional_succ]
          split
          · have numeral := @IsNumeral.whole _ [] 0
              (isDigits.append_zeros (point + 1 - digits.length)) .none
            rwa [List.append_nil, zpow_zero, mul_one, ← magnitude_zero false] at numeral
          · have parts := (digits.take_append_drop (point + 1)).symm
            have numeral := @IsNumeral.point (digits.take (point + 1))
              (digits.drop (point + 1)) [] 0 (parts ▸ isDigits) .none
            rwa [List.append_nil] at numeral
  | negSucc zeros =>
      have numeral := @IsNumeral.point ['0'] (List.replicate (zeros + 1) '0' ++ digits) [] 0
        ((isDigits.zeros_append (zeros + 1)).zeros_append 1) .none
      rwa [List.append_nil] at numeral

/-- Every number is read back from its text. -/
theorem isReal_text (number : ExtendedDouble) : IsReal number.text number := by
  cases number with
  | infinite negative => exact .infinite (isSign_signText negative) (.inl rfl)
  | notANumber => exact .notANumber .none rfl
  | finite number =>
      have isNearest := number.isNearest_shortest .greater
      refine .decimal (isSign_signText number.negative) ?_ ⟨rfl, isNearest⟩
      have isDigits := isDigits_toDigits (number.shortest .greater).digits
      generalize number.shortest .greater = decimal at isDigits
      split
      · rename_i isZero
        have numeral := @IsNumeral.whole ['0'] [] 0 isDigits_zero .none
        rw [Decimal.value, isZero]
        simpa [Nat.ofDigitChars_cons] using numeral
      · have numeral := isNumeral_positional isDigits decimal.point
        have exponent : decimal.point - decimal.text.length = decimal.exponent := by
          rw [Decimal.point]
          omega
        rw [Nat.ofDigitChars_ten_toDigits] at numeral
        rw [Decimal.value, ← exponent]
        exact numeral

/-! ## Numbers that look like integers -/

theorem toDigits_mul_pow {number : Nat} (positive : 0 < number) (count : Nat) :
    Nat.toDigits 10 (number * 10 ^ count) =
      Nat.toDigits 10 number ++ List.replicate count '0' := by
  induction count with
  | zero => simp
  | succ count induction =>
      have larger : 0 < number * 10 ^ count := Nat.mul_pos positive (by positivity)
      have written := Nat.toDigits_append_toDigits (show 1 < 10 by decide) larger
        (show 0 < 10 by decide)
      rw [Nat.toDigits_zero, Nat.add_zero] at written
      rw [List.replicate_succ', ← List.append_assoc, ← induction, written, Nat.pow_succ,
        ← Nat.mul_assoc, Nat.mul_comm 10]

theorem positional_of_noPoint {number : Nat} (positive : 0 < number) {point : Int}
    (noPoint : '.' ∉ Decimal.positional (Nat.toDigits 10 number) point) :
    ∃ whole, Decimal.positional (Nat.toDigits 10 number) point = Nat.toDigits 10 whole := by
  cases point with
  | negSucc zeros => simp [Decimal.positional] at noPoint
  | ofNat point =>
      cases point with
      | zero =>
          rw [Decimal.positional] at noPoint
          simp at noPoint
      | succ point =>
          rw [Json.Literal.decimal_positional_succ] at noPoint ⊢
          split
          · exact ⟨_, (toDigits_mul_pow positive _).symm⟩
          · rename_i long
            rw [if_neg long] at noPoint
            simp at noPoint

theorem text_of_noPoint {number : Double} (noPoint : '.' ∉ (finite number).text) :
    ∃ whole, (finite number).text = signText number.negative ++ Nat.toDigits 10 whole := by
  rw [text] at noPoint ⊢
  split
  · exact ⟨0, by rw [Nat.toDigits_zero]⟩
  · rename_i positive
    rw [if_neg positive, List.mem_append, not_or] at noPoint
    rcases positional_of_noPoint (Nat.pos_of_ne_zero positive) noPoint.2 with ⟨whole, same⟩
    exact ⟨whole, congrArg (signText number.negative ++ ·) same⟩

theorem toList_toString (value : Int) :
    (toString value).toList = signText (decide (value < 0)) ++ Nat.toDigits 10 value.natAbs := by
  cases value with
  | ofNat size =>
      change (toString size).toList = _
      rw [Nat.toString_eq_ofList_toDigits, String.toList_ofList]
      rfl
  | negSucc size =>
      change ("-" ++ toString (size + 1)).toList = _
      rw [Nat.toString_eq_ofList_toDigits, String.toList_append, String.toList_ofList,
        String.toList_ofList, decide_eq_true (Int.negSucc_lt_zero size)]
      rfl

theorem signed_natAbs (value : Int) : Text.signed (decide (value < 0)) value.natAbs = value := by
  unfold Text.signed
  rcases lt_or_ge value 0 with below | notBelow
  · rw [decide_eq_true below, if_pos rfl]
    omega
  · rw [decide_eq_false (Int.not_lt.mpr notBelow), if_neg Bool.false_ne_true]
    omega

theorem isSigned_toString (value : Int) : IsSigned (toString value).toList value := by
  have isSigned := IsSigned.digits (isSign_signText (decide (value < 0)))
    (isDigits_toDigits value.natAbs)
  rwa [← toList_toString, Nat.ofDigitChars_ten_toDigits, signed_natAbs] at isSigned

/-- A number whose text is that of an integer is written as this integer, except that the
lower one of the two zeros has a sign. -/
theorem text_of_isSigned {number : ExtendedDouble} {value : Int}
    (isSigned : IsSigned number.text value) :
    number.text = (toString value).toList ∨ number.text = ['-', '0'] := by
  cases number with
  | infinite negative =>
      cases isSigned.isPart (List.mem_append_right _ (show 'f' ∈ "inf".toList by decide))
  | notANumber => cases isSigned.isPart (show 'N' ∈ "NaN".toList by decide)
  -- The text has no point, so that it is a sign and a natural, and both are read.
  | finite number =>
      have noPoint : '.' ∉ (finite number).text := by
        intro isPoint
        cases isSigned.isPart isPoint
      rcases text_of_noPoint noPoint with ⟨whole, same⟩
      have isWritten := IsSigned.digits (isSign_signText number.negative)
        (isDigits_toDigits whole)
      rw [← same, Nat.ofDigitChars_ten_toDigits] at isWritten
      rw [isSigned.unique isWritten, same, toList_toString]
      cases number.negative with
      | false => exact .inl rfl
      | true =>
          rcases Nat.eq_zero_or_pos whole with isZero | positive
          · right
            rw [isZero, Nat.toDigits_zero]
            rfl
          · left
            have isNegative : Text.signed true whole < 0 := by
              rw [Text.signed, if_pos rfl]
              omega
            rw [decide_eq_true isNegative, Text.signed, if_pos rfl, Int.natAbs_neg,
              Int.natAbs_natCast]

end ExtendedDouble

end Relay
