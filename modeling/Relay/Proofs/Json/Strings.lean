import Relay.Json.Parser

namespace Relay.Json

/-! Written strings are read back. A character is written as itself, as a short
escape or as the escape of a control character; each of the three is one step of
the reader. -/

open Relay.Text (hexDigit?)

/-! ## Steps of the reader -/

theorem readCharacters_plain {character : Char} (noQuote : character ≠ '"')
    (noEscape : character ≠ '\\') (visible : 0x20 ≤ character.toNat) (text : List Char) :
    readCharacters (character :: text) =
      (readCharacters text).map fun (characters, rest) => (character :: characters, rest) := by
  rw [readCharacters.eq_def]
  split <;> rename_i same <;> cases same
  · exact absurd rfl noQuote
  · exact absurd rfl noEscape
  · exact absurd rfl noEscape
  · exact if_neg (Nat.not_lt.mpr visible)

theorem readCharacters_short {letter character : Char} (noUnit : letter ≠ 'u')
    (escaped : shortEscaped? letter = some character) (text : List Char) :
    readCharacters ('\\' :: letter :: text) =
      (readCharacters text).map fun (characters, rest) => (character :: characters, rest) := by
  rw [readCharacters.eq_def]
  simp [noUnit, escaped]

theorem readCharacters_unit {first second third fourth : Char} {unit : Nat}
    (isUnit : unit? first second third fourth = some unit)
    (notHigh : isHighSurrogate unit = false) (notLow : isLowSurrogate unit = false)
    (text : List Char) :
    readCharacters ('\\' :: 'u' :: first :: second :: third :: fourth :: text) =
      (readCharacters text).map fun (characters, rest) =>
        (Char.ofNat unit :: characters, rest) := by
  rw [readCharacters.eq_def]
  simp [isUnit, notHigh, notLow]

/-! ## Written characters -/

theorem shortEscaped?_of_shortEscape? {character letter : Char}
    (written : shortEscape? character = some letter) :
    letter ≠ 'u' ∧ shortEscaped? letter = some character := by
  unfold shortEscape? at written
  split at written <;> simp_all <;> subst written <;> decide

theorem hexDigit?_digitChar : ∀ value, value < 16 →
    hexDigit? (Nat.digitChar value) = some value := by decide

theorem unit?_of_control {value : Nat} (control : value < 0x20) :
    unit? '0' '0' (Nat.digitChar (value / 16)) (Nat.digitChar (value % 16)) = some value := by
  have high := hexDigit?_digitChar (value / 16) (by omega)
  have low := hexDigit?_digitChar (value % 16) (by omega)
  have zero : hexDigit? '0' = some 0 := by decide
  simp only [unit?, high, low, zero]
  change some (((0 * 16 + 0) * 16 + value / 16) * 16 + value % 16) = some value
  congr 1
  omega

theorem readCharacters_characterText (character : Char) (text : List Char) :
    readCharacters (characterText character ++ text) =
      (readCharacters text).map fun (characters, rest) => (character :: characters, rest) := by
  unfold characterText
  cases written : shortEscape? character with
  | some letter =>
      rcases shortEscaped?_of_shortEscape? written with ⟨noUnit, escaped⟩
      exact readCharacters_short noUnit escaped text
  | none =>
      by_cases control : character.toNat < 0x20
      · have notHigh : isHighSurrogate character.toNat = false := by
          simp only [isHighSurrogate, decide_eq_false_iff_not]
          omega
        have notLow : isLowSurrogate character.toNat = false := by
          simp only [isLowSurrogate, decide_eq_false_iff_not]
          omega
        have step := readCharacters_unit (unit?_of_control control) notHigh notLow text
        rw [Char.ofNat_toNat] at step
        simpa [control] using step
      · have noQuote : character ≠ '"' := by
          intro equal
          subst equal
          cases written
        have noEscape : character ≠ '\\' := by
          intro equal
          subst equal
          cases written
        simpa [control] using readCharacters_plain noQuote noEscape
          (Nat.le_of_not_lt control) text

theorem readCharacters_flatMap (characters rest : List Char) :
    readCharacters (characters.flatMap characterText ++ '"' :: rest) =
      some (characters, rest) := by
  induction characters with
  | nil => simp [readCharacters]
  | cons character characters induction =>
      rw [List.flatMap_cons, List.append_assoc, readCharacters_characterText, induction]
      rfl

theorem readString_stringText (value : String) (rest : List Char) :
    readString (stringText value ++ rest) = some (value, rest) := by
  simp only [stringText, List.cons_append, List.append_assoc, List.nil_append, readString]
  rw [readCharacters_flatMap]
  simp

end Relay.Json
