import Relay.Proofs.Json.Grammar
import Relay.Proofs.Json.Literals
import Relay.Proofs.Json.Strings

namespace Relay

/-! The reader and the grammar below the level of values: blanks, numbers and strings. What
a reader takes from a text is derived by the rules. Conversely it takes what the rules
derive wherever a text behind it cannot continue a number. -/

/-- A reader takes from a text what the rules derive from it, if the text that is left ends
what is derived. -/
structure Reader.Recognizes {α : Type} (reader : Reader α)
    (derives : α → List Char → List Char → Prop) (ends : List Char → Prop) : Prop where
  sound : ∀ {text : List Char} {value : α} {rest : List Char},
    reader text = some (value, rest) → derives value text rest
  complete : ∀ {text : List Char} {value : α} {rest : List Char},
    derives value text rest → ends rest → reader text = some (value, rest)

theorem Reader.Recognizes.unique {α : Type} {reader : Reader α}
    {derives : α → List Char → List Char → Prop} {ends : List Char → Prop}
    (recognizes : reader.Recognizes derives ends) {text : List Char} {left right : α}
    {afterLeft afterRight : List Char} (leftDerived : derives left text afterLeft)
    (rightDerived : derives right text afterRight) (leftEnds : ends afterLeft)
    (rightEnds : ends afterRight) : left = right ∧ afterLeft = afterRight := by
  have leftRead := recognizes.complete leftDerived leftEnds
  rw [recognizes.complete rightDerived rightEnds] at leftRead
  cases leftRead
  exact ⟨rfl, rfl⟩

namespace Json

open Grammar
open Relay.Text (readDigits readSign leadingDigits afterDigits isDigitOf valueOf digit?
  hexDigit?)

/-! ## Blanks -/

theorem mem_blanks_iff (character : Char) :
    character ∈ [' ', '\t', '\n', '\x0d'] ↔ isBlank character = true := by
  simp [isBlank, or_assoc]

theorem blanks_skipBlanks (text : List Char) : Blanks text (skipBlanks text) := by
  induction text with
  | nil => exact .none
  | cons character text induction =>
      rw [skipBlanks, List.dropWhile_cons]
      split
      · rename_i blank
        exact .more ((mem_blanks_iff character).mpr blank) induction
      · exact .none

theorem skipBlanks_of_blanks {text rest : List Char} (blanks : Blanks text rest) :
    skipBlanks text = skipBlanks rest := by
  induction blanks with
  | none => rfl
  | more blank _ induction =>
      rw [skipBlanks, List.dropWhile_cons, (mem_blanks_iff _).mp blank]
      exact induction

/-! ## Numbers -/

theorem digits_iff {digits text rest : List Char} :
    Digits digits text rest ↔ IsDigits digits ∧ text = digits ++ rest := by
  constructor
  · intro derived
    induction derived with
    | last isDigit => exact ⟨⟨nofun, by simpa using isDigit⟩, rfl⟩
    | more isDigit _ induction =>
        rcases induction with ⟨others, same⟩
        exact ⟨⟨nofun, List.forall_mem_cons.mpr ⟨isDigit, others.2⟩⟩, by rw [same]; rfl⟩
  · rintro ⟨isDigits, same⟩
    subst same
    induction digits with
    | nil => exact absurd rfl isDigits.1
    | cons digit others induction =>
        have isDigit := isDigits.2 digit List.mem_cons_self
        cases others with
        | nil => exact .last isDigit
        | cons next others =>
            exact .more isDigit (induction
              ⟨nofun, fun other member => isDigits.2 other (List.mem_cons_of_mem _ member)⟩)

theorem Grammar.Digits.starts {digits text rest : List Char}
    (derived : Digits digits text rest) :
    ∃ digit others, text = digit :: others ∧ digit.isDigit = true := by
  cases derived with
  | last isDigit => exact ⟨_, _, rfl, isDigit⟩
  | more isDigit _ => exact ⟨_, _, rfl, isDigit⟩

theorem readDigits_recognizes :
    Reader.Recognizes readDigits Digits (Stops Char.isDigit) where
  sound := by
    intro text digits rest read
    have split := text.takeWhile_append_dropWhile (p := Char.isDigit)
    rw [readDigits] at read
    split at read
    · cases read
    · rename_i someDigits
      cases read
      refine digits_iff.mpr ⟨⟨someDigits, fun digit member => ?_⟩, split.symm⟩
      exact List.all_eq_true.mp List.all_takeWhile digit member
  complete := by
    intro text digits rest derived stops
    rcases digits_iff.mp derived with ⟨isDigits, same⟩
    rw [same]
    exact readDigits_append isDigits stops

theorem wholePart_iff {whole text rest : List Char} :
    WholePart whole text rest ↔
      (whole = ['0'] ∨ IsDigits whole ∧ whole.head? ≠ some '0') ∧ text = whole ++ rest := by
  constructor
  · intro derived
    cases derived with
    | zero => exact ⟨.inl rfl, rfl⟩
    | digits derived noZero =>
        rcases digits_iff.mp derived with ⟨isDigits, same⟩
        exact ⟨.inr ⟨isDigits, by simpa using noZero⟩, same⟩
  · rintro ⟨isZero | ⟨isDigits, noZero⟩, same⟩
    · subst isZero same
      exact .zero
    · cases whole with
      | nil => exact absurd rfl isDigits.1
      | cons digit others =>
          exact .digits (digits_iff.mpr ⟨isDigits, same⟩) (by simpa using noZero)

theorem readWhole_recognizes :
    Reader.Recognizes readWhole WholePart (Stops Char.isDigit) where
  sound := by
    intro text whole rest read
    rw [readWhole.eq_def] at read
    split at read
    · cases read
      exact .zero
    · rename_i noZero
      have derived := readDigits_recognizes.sound read
      rcases digits_iff.mp derived with ⟨isDigits, same⟩
      cases whole with
      | nil => exact absurd rfl isDigits.1
      | cons digit others =>
          refine .digits derived fun isZero => noZero (others ++ rest) ?_
          rw [same, isZero]
          rfl
  complete := by
    intro text whole rest derived stops
    rcases wholePart_iff.mp derived with ⟨wellFormed, same⟩
    rw [same]
    exact Literal.readWhole_append wellFormed stops

theorem fractionPart_iff {fraction : Option (List Char)} {text rest : List Char} :
    FractionPart fraction text rest ↔
      (∀ digits, fraction = some digits → IsDigits digits) ∧
        text = Literal.fractionText fraction ++ rest := by
  constructor
  · intro derived
    cases derived with
    | absent => exact ⟨nofun, rfl⟩
    | point derived =>
        rcases digits_iff.mp derived with ⟨isDigits, same⟩
        refine ⟨fun digits present => ?_, by rw [same]; rfl⟩
        cases present
        exact isDigits
  · rintro ⟨wellFormed, same⟩
    subst same
    cases fraction with
    | none => exact .absent
    | some digits => exact .point (digits_iff.mpr ⟨wellFormed digits rfl, rfl⟩)

def EndsFraction (text : List Char) : Prop :=
  Stops (fun character => character.isDigit || character = '.') text

theorem readFraction_recognizes :
    Reader.Recognizes readFraction FractionPart EndsFraction where
  sound := by
    intro text fraction rest read
    rw [readFraction.eq_def] at read
    split at read
    · rcases Option.map_eq_some_iff.mp read with ⟨⟨digits, left⟩, digitsRead, same⟩
      cases same
      exact .point (readDigits_recognizes.sound digitsRead)
    · cases read
      exact .absent
  complete := by
    intro text fraction rest derived ends
    rcases fractionPart_iff.mp derived with ⟨wellFormed, same⟩
    rw [same]
    exact Literal.readFraction_append wellFormed ends

theorem readSign_of_digits {digits text rest : List Char} (derived : Digits digits text rest) :
    readSign text = (false, text) := by
  rcases derived.starts with ⟨digit, others, same, isDigit⟩
  subst same
  unfold readSign
  split
  · rename_i isPlus
    cases isPlus
    cases isDigit
  · rename_i isMinus
    cases isMinus
    cases isDigit
  · rfl

theorem readExponent_of_letter {letter : Char} (isLetter : letter ∈ ['e', 'E'])
    (text : List Char) :
    readExponent (letter :: text) =
      (readDigits (readSign text).2).map fun (digits, rest) =>
        (some ((readSign text).1, digits), rest) := by
  have either : letter = 'e' ∨ letter = 'E' := by simpa using isLetter
  rw [readExponent, if_pos either]

theorem readExponent_recognizes :
    Reader.Recognizes readExponent ExponentPart EndsNumber where
  sound := by
    intro text exponent rest read
    rw [readExponent.eq_def] at read
    split at read
    · cases read
      exact .absent
    · rename_i letter text
      split at read
      · rename_i either
        have isLetter : letter ∈ ['e', 'E'] := by simpa using either
        simp only at read
        rcases Option.map_eq_some_iff.mp read with ⟨⟨digits, left⟩, digitsRead, same⟩
        cases same
        have derived := readDigits_recognizes.sound digitsRead
        unfold readSign at derived ⊢
        split at derived
        · exact .positive isLetter derived
        · exact .negative isLetter derived
        · exact .unsigned isLetter derived
      · cases read
        exact .absent
  complete := by
    intro text exponent rest derived ends
    have noDigit : Stops Char.isDigit rest := ends.mono fun character isDigit => by
      simp [continuesNumber, isDigit]
    cases derived with
    | absent =>
        have read : readExponent (Literal.exponentText none ++ text) = some (none, text) :=
          Literal.readExponent_append (fun _ _ absent => by cases absent) ends
        exact read
    | unsigned isLetter derived =>
        rw [readExponent_of_letter isLetter, readSign_of_digits derived,
          readDigits_recognizes.complete derived noDigit]
        rfl
    | positive isLetter derived | negative isLetter derived =>
        rw [readExponent_of_letter isLetter, readSign,
          readDigits_recognizes.complete derived noDigit]
        rfl

theorem Grammar.ExponentPart.endsFraction {exponent : Option (Bool × List Char)}
    {text rest : List Char} (derived : ExponentPart exponent text rest)
    (ends : EndsNumber rest) : EndsFraction text := by
  cases derived with
  | absent =>
      exact ends.mono fun character inside => by
        simp only [Bool.or_eq_true] at inside
        rcases inside with isDigit | isPoint
        · simp [continuesNumber, isDigit]
        · simp [continuesNumber, isPoint]
  | unsigned isLetter _ | positive isLetter _ | negative isLetter _ =>
      apply stops_cons
      simp only [List.mem_cons, List.not_mem_nil, or_false] at isLetter
      rcases isLetter with same | same <;> subst same <;> rfl

theorem Grammar.FractionPart.endsWhole {fraction : Option (List Char)} {text rest : List Char}
    (derived : FractionPart fraction text rest) (ends : EndsFraction rest) :
    Stops Char.isDigit text := by
  cases derived with
  | absent => exact ends.mono fun character isDigit => by simp [isDigit]
  | point _ => exact stops_cons rfl _

theorem readMagnitude_recognizes (negative : Bool) :
    Reader.Recognizes (readMagnitude negative)
      (fun literal text rest => literal.negative = negative ∧ Magnitude literal text rest)
      EndsNumber where
  sound := by
    intro text literal rest read
    rcases Option.bind_eq_some_iff.mp read with ⟨⟨whole, afterWhole⟩, wholeRead, read⟩
    rcases Option.bind_eq_some_iff.mp read
      with ⟨⟨fraction, afterFraction⟩, fractionRead, read⟩
    rcases Option.bind_eq_some_iff.mp read with ⟨⟨exponent, left⟩, exponentRead, read⟩
    cases read
    exact ⟨rfl, .parts (readWhole_recognizes.sound wholeRead)
      (readFraction_recognizes.sound fractionRead)
      (readExponent_recognizes.sound exponentRead)⟩
  complete := by
    rintro text literal rest ⟨sign, derived⟩ ends
    cases derived with
    | parts whole fraction exponent =>
        have afterFraction := exponent.endsFraction ends
        have afterWhole := fraction.endsWhole afterFraction
        subst sign
        simp [readMagnitude, readWhole_recognizes.complete whole afterWhole,
          readFraction_recognizes.complete fraction afterFraction,
          readExponent_recognizes.complete exponent ends]

theorem Grammar.Magnitude.starts {literal : Literal} {text rest : List Char}
    (derived : Magnitude literal text rest) :
    ∃ digit others, text = digit :: others ∧ digit.isDigit = true := by
  cases derived with
  | parts whole _ _ =>
      cases whole with
      | zero => exact ⟨'0', _, rfl, rfl⟩
      | digits derived _ => exact derived.starts

theorem readLiteral_recognizes : Reader.Recognizes readLiteral Numeral EndsNumber where
  sound := by
    intro text literal rest read
    rw [readLiteral.eq_def] at read
    split at read
    · rcases (readMagnitude_recognizes true).sound read with ⟨sign, derived⟩
      exact .negative sign derived
    · rcases (readMagnitude_recognizes false).sound read with ⟨sign, derived⟩
      exact .positive sign derived
  complete := by
    intro text literal rest derived ends
    cases derived with
    | positive sign derived =>
        rcases derived.starts with ⟨digit, others, same, isDigit⟩
        rw [readLiteral.eq_2, (readMagnitude_recognizes false).complete ⟨sign, derived⟩ ends]
        intro tail starts
        rw [same] at starts
        cases starts
        cases isDigit
    | negative sign derived =>
        exact (readMagnitude_recognizes true).complete ⟨sign, derived⟩ ends

theorem Grammar.Numeral.isWellFormed {literal : Literal} {text rest : List Char}
    (derived : Numeral literal text rest) : literal.IsWellFormed := by
  have magnitude : ∃ text, Magnitude literal text rest := by
    cases derived with
    | positive _ derived => exact ⟨_, derived⟩
    | negative _ derived => exact ⟨_, derived⟩
  rcases magnitude with ⟨text, derived⟩
  cases derived with
  | parts whole fraction exponent =>
      refine ⟨(wholePart_iff.mp whole).1, (fractionPart_iff.mp fraction).1, ?_⟩
      intro negative digits present
      cases exponent with
      | absent => cases present
      | unsigned _ derived | positive _ derived | negative _ derived =>
          cases present
          exact (digits_iff.mp derived).1

/-! ## Strings -/

theorem isCodeUnit_iff {first second third fourth : Char} {unit : Nat} :
    IsCodeUnit first second third fourth unit ↔ unit? first second third fourth = some unit := by
  unfold IsCodeUnit unit? hexDigit?
  simp only [List.forall_mem_cons, isDigitOf, valueOf, List.foldl_cons, List.foldl_nil]
  cases digit? 16 first <;> cases digit? 16 second <;> cases digit? 16 third <;>
    cases digit? 16 fourth <;> simp [@eq_comm _ unit]

theorem shortEscaped?_eq_some_iff {letter character : Char} :
    shortEscaped? letter = some character ↔ (letter, character) ∈ shortEscapes := by
  unfold shortEscaped?
  split <;> simp_all [shortEscapes, eq_comm]

/-- The numbers of characters are those without the surrogates. -/
theorem isSurrogate_toNat (character : Char) :
    isHighSurrogate character.toNat = false ∧ isLowSurrogate character.toNat = false := by
  have valid := character.valid
  simp only [isHighSurrogate, isLowSurrogate, decide_eq_false_iff_not]
  rcases valid with low | ⟨high, _⟩
  · change character.toNat < 0xd800 at low
    omega
  · change 0xdfff < character.toNat at high
    omega

theorem toNat_ofNat_of_noSurrogate {unit : Nat} (small : unit < 0x10000)
    (notHigh : isHighSurrogate unit = false) (notLow : isLowSurrogate unit = false) :
    (Char.ofNat unit).toNat = unit := by
  simp only [isHighSurrogate, isLowSurrogate, decide_eq_false_iff_not] at notHigh notLow
  have valid : unit.isValidChar := by
    rw [Nat.isValidChar]
    omega
  rw [Char.ofNat, dif_pos valid]
  rfl

theorem toNat_surrogatePair {high low : Nat} (isHigh : isHighSurrogate high = true)
    (isLow : isLowSurrogate low = true) :
    (surrogatePair high low).toNat =
      0x10000 + (high - 0xd800) * 0x400 + (low - 0xdc00) := by
  simp only [isHighSurrogate, isLowSurrogate, decide_eq_true_eq] at isHigh isLow
  have valid : (0x10000 + (high - 0xd800) * 0x400 + (low - 0xdc00)).isValidChar := by
    rw [Nat.isValidChar]
    omega
  rw [surrogatePair, Char.ofNat, dif_pos valid]
  rfl

theorem readCharacters_pair {first second third fourth fifth sixth seventh eighth : Char}
    {high low : Nat} (highUnit : unit? first second third fourth = some high)
    (lowUnit : unit? fifth sixth seventh eighth = some low)
    (isHigh : isHighSurrogate high = true) (isLow : isLowSurrogate low = true)
    (text : List Char) :
    readCharacters ('\\' :: 'u' :: first :: second :: third :: fourth ::
        '\\' :: 'u' :: fifth :: sixth :: seventh :: eighth :: text) =
      (readCharacters text).map fun (characters, rest) =>
        (surrogatePair high low :: characters, rest) := by
  rw [readCharacters.eq_def]
  simp [highUnit, lowUnit, isHigh, isLow]

theorem unit?_lt {first second third fourth : Char} {unit : Nat}
    (isUnit : unit? first second third fourth = some unit) : unit < 0x10000 := by
  have small : ∀ {digit : Char} {value : Nat}, hexDigit? digit = some value → value < 16 := by
    intro digit value isDigit
    rw [hexDigit?, digit?, Option.filter_eq_some_iff] at isDigit
    exact of_decide_eq_true isDigit.2
  rcases Option.bind_eq_some_iff.mp isUnit with ⟨one, isOne, isUnit⟩
  rcases Option.bind_eq_some_iff.mp isUnit with ⟨two, isTwo, isUnit⟩
  rcases Option.bind_eq_some_iff.mp isUnit with ⟨three, isThree, isUnit⟩
  rcases Option.bind_eq_some_iff.mp isUnit with ⟨four, isFour, isUnit⟩
  cases isUnit
  have := small isOne
  have := small isTwo
  have := small isThree
  have := small isFour
  omega

theorem characters_of_readCharacters {text characters rest : List Char}
    (read : readCharacters text = some (characters, rest)) :
    Characters characters text rest := by
  fun_induction readCharacters text generalizing characters rest with
  | case1 | case3 | case4 | case6 | case7 | case8 | case10 | case12 => cases read
  | case2 =>
      cases read
      exact .close
  | case5 a b c d high highUnit isHigh e f g h text low lowUnit isLow induction =>
      rcases Option.map_eq_some_iff.mp read with ⟨⟨others, left⟩, othersRead, same⟩
      cases same
      rcases of_decide_eq_true isHigh with ⟨highFrom, highTo⟩
      rcases of_decide_eq_true isLow with ⟨lowFrom, lowTo⟩
      exact .pair (isCodeUnit_iff.mpr highUnit) (isCodeUnit_iff.mpr lowUnit) highFrom highTo lowFrom
        lowTo (toNat_surrogatePair isHigh isLow) (induction othersRead)
  | case9 a b c d text unit isUnit notHigh notLow induction =>
      rcases Option.map_eq_some_iff.mp read with ⟨⟨others, left⟩, othersRead, same⟩
      cases same
      have number := toNat_ofNat_of_noSurrogate (unit?_lt isUnit)
        (Bool.eq_false_iff.mpr notHigh) (Bool.eq_false_iff.mpr notLow)
      exact .unit (by rw [number]; exact isCodeUnit_iff.mpr isUnit) (induction othersRead)
  | case11 letter text _ character escaped induction =>
      rcases Option.map_eq_some_iff.mp read with ⟨⟨others, left⟩, othersRead, same⟩
      cases same
      exact .short (shortEscaped?_eq_some_iff.mp escaped) (induction othersRead)
  | case13 character text noQuote _ noEscape visible induction =>
      rcases Option.map_eq_some_iff.mp read with ⟨⟨others, left⟩, othersRead, same⟩
      cases same
      refine .plain noQuote ?_ (Nat.le_of_not_lt visible) (induction othersRead)
      intro isEscape
      cases text with
      | nil => cases othersRead
      | cons letter text => exact noEscape letter text isEscape rfl

theorem readCharacters_recognizes :
    Reader.Recognizes readCharacters Characters fun _ => True where
  sound := characters_of_readCharacters
  complete := by
    intro text characters rest derived _
    induction derived with
    | close => rfl
    | plain noQuote noEscape visible _ induction =>
        rw [readCharacters_plain noQuote noEscape visible, induction]
        rfl
    | short escaped _ induction =>
        have noUnit : ∀ {letter character : Char}, (letter, character) ∈ shortEscapes →
            letter ≠ 'u' := by
          intro letter character escaped isUnit
          subst isUnit
          rw [← shortEscaped?_eq_some_iff] at escaped
          cases escaped
        rw [readCharacters_short (noUnit escaped) (shortEscaped?_eq_some_iff.mpr escaped),
          induction]
        rfl
    | @unit _ _ _ _ character _ _ _ isUnit _ induction =>
        rcases isSurrogate_toNat character with ⟨notHigh, notLow⟩
        rw [readCharacters_unit (isCodeUnit_iff.mp isUnit) notHigh notLow, induction,
          Char.ofNat_toNat]
        rfl
    | pair highUnit lowUnit highFrom highTo lowFrom lowTo number _ induction =>
        have isHigh := decide_eq_true (And.intro highFrom highTo)
        have isLow := decide_eq_true (And.intro lowFrom lowTo)
        rw [readCharacters_pair (isCodeUnit_iff.mp highUnit) (isCodeUnit_iff.mp lowUnit) isHigh
          isLow, induction, surrogatePair, ← number, Char.ofNat_toNat]
        rfl

theorem readString_recognizes :
    Reader.Recognizes readString Quoted fun _ => True where
  sound := by
    intro text value rest read
    rw [readString.eq_def] at read
    split at read
    · rcases Option.map_eq_some_iff.mp read
        with ⟨⟨characters, left⟩, charactersRead, same⟩
      cases same
      exact .quotes (readCharacters_recognizes.sound charactersRead)
    · cases read
  complete := by
    intro text value rest derived _
    cases derived with
    | quotes derived =>
        rw [readString, readCharacters_recognizes.complete derived trivial]
        rfl

end Json

end Relay
