import Relay.Json.Parser

namespace Relay.Json

/-! Literals and their texts. The text of a well-formed literal is read as this
literal, and the text of every number is that of a well-formed literal. An
integer is read back from its literal; a binary number is read as what its
literal stands for, which may be another number. -/

open Relay.Text (readDigits readSign leadingDigits afterDigits)

/-! ## Digits -/

def Stops (inClass : Char → Bool) (text : List Char) : Prop :=
  ∀ character, text.head? = some character → inClass character = false

theorem stops_nil (inClass : Char → Bool) : Stops inClass [] := by
  intro character isHead
  cases isHead

theorem stops_cons {inClass : Char → Bool} {character : Char}
    (outside : inClass character = false) (text : List Char) :
    Stops inClass (character :: text) := by
  intro other isHead
  cases isHead
  exact outside

theorem Stops.mono {large small : Char → Bool} {text : List Char} (stops : Stops large text)
    (isPart : ∀ character, small character = true → large character = true) :
    Stops small text := by
  intro character isHead
  cases inside : small character with
  | false => rfl
  | true => exact absurd (isPart character inside) (by rw [stops character isHead]; decide)

def IsDigits (digits : List Char) : Prop :=
  digits ≠ [] ∧ ∀ digit ∈ digits, digit.isDigit = true

theorem isDigits_toDigits (value : Nat) : IsDigits (Nat.toDigits 10 value) :=
  ⟨Nat.toDigits_ne_nil, fun _ member =>
    Nat.isDigit_of_mem_toDigits (by decide) (by decide) member⟩

theorem isDigits_zero : IsDigits ['0'] := by
  refine ⟨List.cons_ne_nil _ _, ?_⟩
  intro digit member
  rw [List.mem_singleton.mp member]
  rfl

section Digits

variable {digits : List Char}

theorem IsDigits.append_zeros (isDigits : IsDigits digits) (count : Nat) :
    IsDigits (digits ++ List.replicate count '0') := by
  refine ⟨by simp [isDigits.1], ?_⟩
  intro digit member
  rcases List.mem_append.mp member with inDigits | isZero
  · exact isDigits.2 digit inDigits
  · rw [List.eq_of_mem_replicate isZero]
    decide

theorem IsDigits.zeros_append (isDigits : IsDigits digits) (count : Nat) :
    IsDigits (List.replicate count '0' ++ digits) := by
  refine ⟨by simp [isDigits.1], ?_⟩
  intro digit member
  rcases List.mem_append.mp member with isZero | inDigits
  · rw [List.eq_of_mem_replicate isZero]
    decide
  · exact isDigits.2 digit inDigits

theorem IsDigits.take (isDigits : IsDigits digits) (count : Nat) :
    IsDigits (digits.take (count + 1)) := by
  refine ⟨?_, fun digit member => isDigits.2 digit (List.mem_of_mem_take member)⟩
  intro empty
  rcases List.take_eq_nil_iff.mp empty with isZero | noDigits
  · cases isZero
  · exact isDigits.1 noDigits

theorem IsDigits.drop (isDigits : IsDigits digits) {count : Nat}
    (long : count < digits.length) : IsDigits (digits.drop count) := by
  refine ⟨?_, fun digit member => isDigits.2 digit (List.mem_of_mem_drop member)⟩
  intro empty
  exact absurd (List.drop_eq_nil_iff.mp empty) (Nat.not_le_of_lt long)

end Digits

theorem head?_toDigits {value : Nat} (positive : 0 < value) :
    (Nat.toDigits 10 value).head? ≠ some '0' := by
  induction value using Nat.strongRecOn with
  | ind value induction =>
      by_cases small : value < 10
      · rw [Nat.toDigits_of_lt_base small]
        simp
        omega
      · rw [Nat.toDigits_of_base_le (by decide) (Nat.le_of_not_lt small)]
        have shorter := induction (value / 10) (by omega) (by omega)
        cases written : Nat.toDigits 10 (value / 10) with
        | nil => exact absurd written Nat.toDigits_ne_nil
        | cons digit digits =>
            rw [written] at shorter
            exact shorter

theorem leadingDigits_append {digits rest : List Char}
    (isDigits : ∀ digit ∈ digits, digit.isDigit = true) (stops : Stops Char.isDigit rest) :
    leadingDigits (digits ++ rest) = digits ∧ afterDigits (digits ++ rest) = rest := by
  rw [leadingDigits, afterDigits, List.takeWhile_append_of_pos isDigits,
    List.dropWhile_append_of_pos isDigits]
  cases rest with
  | nil => simp
  | cons character rest => simp [stops character rfl]

theorem readDigits_append {digits : List Char} (isDigits : IsDigits digits)
    {rest : List Char} (stops : Stops Char.isDigit rest) :
    readDigits (digits ++ rest) = some (digits, rest) := by
  rcases leadingDigits_append isDigits.2 stops with ⟨leading, after⟩
  unfold readDigits
  rw [leading, after]
  cases digits with
  | nil => exact absurd rfl isDigits.1
  | cons digit digits => rfl

/-! ## Literals -/

def continuesNumber (character : Char) : Bool :=
  character.isDigit || character = '.' || character = 'e' || character = 'E'

/-- A text that a number in front of it cannot reach into. -/
def EndsNumber (text : List Char) : Prop := Stops continuesNumber text

namespace Literal

def fractionText : Option (List Char) → List Char
  | none => []
  | some digits => '.' :: digits

def exponentText : Option (Bool × List Char) → List Char
  | none => []
  | some (negative, digits) => 'e' :: (if negative then '-' else '+') :: digits

def magnitudeText (literal : Literal) : List Char :=
  literal.whole ++ fractionText literal.fraction ++ exponentText literal.exponent

def text (literal : Literal) : List Char :=
  if literal.negative then '-' :: literal.magnitudeText else literal.magnitudeText

/-- What the reader accepts: no part is empty, and the whole part starts with a
zero only if it is a single zero. -/
structure IsWellFormed (literal : Literal) : Prop where
  whole : literal.whole = ['0'] ∨
    IsDigits literal.whole ∧ literal.whole.head? ≠ some '0'
  fraction : ∀ digits, literal.fraction = some digits → IsDigits digits
  exponent : ∀ negative digits,
    literal.exponent = some (negative, digits) → IsDigits digits

theorem readWhole_append {whole : List Char}
    (wellFormed : whole = ['0'] ∨ IsDigits whole ∧ whole.head? ≠ some '0')
    {rest : List Char} (stops : Stops Char.isDigit rest) :
    Json.readWhole (whole ++ rest) = some (whole, rest) := by
  rcases wellFormed with isZero | ⟨isDigits, noZero⟩
  · subst isZero
    rfl
  · rw [Json.readWhole.eq_2, readDigits_append isDigits stops]
    intro tail starts
    cases whole with
    | nil => exact isDigits.1 rfl
    | cons digit digits =>
        cases starts
        exact noZero rfl

theorem readFraction_append {fraction : Option (List Char)}
    (wellFormed : ∀ digits, fraction = some digits → IsDigits digits) {rest : List Char}
    (stops : Stops (fun character => character.isDigit || character = '.') rest) :
    Json.readFraction (fractionText fraction ++ rest) = some (fraction, rest) := by
  cases fraction with
  | none =>
      change Json.readFraction rest = _
      rw [Json.readFraction.eq_2]
      intro tail starts
      have := stops '.' (by rw [starts]; rfl)
      cases this
  | some digits =>
      have noDigit : Stops Char.isDigit rest := stops.mono fun character isDigit => by
        simp [isDigit]
      change (readDigits (digits ++ rest)).map _ = _
      rw [readDigits_append (wellFormed digits rfl) noDigit]
      rfl

theorem readExponent_append {exponent : Option (Bool × List Char)}
    (wellFormed : ∀ negative digits, exponent = some (negative, digits) → IsDigits digits)
    {rest : List Char} (ends : EndsNumber rest) :
    Json.readExponent (exponentText exponent ++ rest) = some (exponent, rest) := by
  cases exponent with
  | none =>
      cases rest with
      | nil => rfl
      | cons character rest =>
          have outside := ends character rfl
          have noLetter : ¬(character = 'e' ∨ character = 'E') := by
            rintro (equal | equal) <;> subst equal <;> cases outside
          change (if character = 'e' ∨ character = 'E' then _ else _) = _
          rw [if_neg noLetter]
  | some exponent =>
      rcases exponent with ⟨negative, digits⟩
      have noDigit : Stops Char.isDigit rest := ends.mono fun character isDigit => by
        simp [continuesNumber, isDigit]
      have digitsRead := readDigits_append (wellFormed negative digits rfl) noDigit
      cases negative <;>
        simp [exponentText, Json.readExponent, readSign, digitsRead]

theorem readMagnitude_append {literal : Literal} (wellFormed : literal.IsWellFormed)
    {rest : List Char} (ends : EndsNumber rest) :
    readMagnitude literal.negative (literal.magnitudeText ++ rest) =
      some (literal, rest) := by
  have afterFraction : Stops (fun character => character.isDigit || character = '.')
      (exponentText literal.exponent ++ rest) := by
    cases literal.exponent with
    | none =>
        exact ends.mono fun character inside => by
          simp only [Bool.or_eq_true] at inside
          rcases inside with isDigit | isPoint
          · simp [continuesNumber, isDigit]
          · simp [continuesNumber, isPoint]
    | some exponent => exact stops_cons (by decide) _
  have afterWhole : Stops Char.isDigit
      (fractionText literal.fraction ++ (exponentText literal.exponent ++ rest)) := by
    cases literal.fraction with
    | none => exact afterFraction.mono fun character isDigit => by simp [isDigit]
    | some digits => exact stops_cons (by decide) _
  simp only [readMagnitude, magnitudeText, List.append_assoc]
  rw [readWhole_append wellFormed.whole afterWhole]
  change (Json.readFraction _).bind _ = _
  rw [readFraction_append wellFormed.fraction afterFraction]
  change (Json.readExponent _).bind _ = _
  rw [readExponent_append wellFormed.exponent ends]
  rfl

theorem head?_magnitudeText {literal : Literal} (wellFormed : literal.IsWellFormed) :
    ∃ digit, literal.magnitudeText.head? = some digit ∧ digit.isDigit = true := by
  have isDigits : IsDigits literal.whole := by
    rcases wellFormed.whole with isZero | whole
    · rw [isZero]
      exact isDigits_zero
    · exact whole.1
  cases first : literal.whole with
  | nil => exact absurd first isDigits.1
  | cons digit digits =>
      exact ⟨digit, by simp [magnitudeText, first],
        isDigits.2 digit (by rw [first]; exact List.mem_cons_self)⟩

/-- A well-formed literal is read back from its text, whatever stands behind
it. -/
theorem readLiteral_text {literal : Literal} (wellFormed : literal.IsWellFormed)
    {rest : List Char} (ends : EndsNumber rest) :
    readLiteral (literal.text ++ rest) = some (literal, rest) := by
  have magnitude := readMagnitude_append wellFormed ends
  unfold text
  cases negative : literal.negative with
  | true =>
      rw [negative] at magnitude
      exact magnitude
  | false =>
      rw [negative] at magnitude
      change readLiteral (literal.magnitudeText ++ rest) = _
      rw [readLiteral.eq_2, magnitude]
      intro tail starts
      rcases head?_magnitudeText wellFormed with ⟨digit, isHead, isDigit⟩
      have isMinus : digit = '-' := by
        cases written : literal.magnitudeText with
        | nil => simp [written] at isHead
        | cons first others =>
            rw [written] at isHead starts
            cases isHead
            cases starts
            rfl
      subst isMinus
      cases isDigit

end Literal

end Relay.Json
