import Mathlib.Order.Bounds.Basic
import Mathlib.Tactic.SplitIfs
import Relay.Proofs.Exchange.Octets

namespace Relay

/-! Defects of octets that are no UTF-8. What stands in front of a defect is the longest
beginning that encodes a text. A defect is a beginning of a character that breaks off, and it
is incomplete if nothing but more octets is missing. The replacement puts one character in the
place of every maximal ill-formed part and changes nothing else. -/

namespace Utf8

/-! ## Tests

A first octet decides how many octets follow it and which values they may have. The octets are
tested one after the other, and the first that fails is no part of the character. -/

def passed : List (UInt8 → Bool) → List UInt8 → Nat
  | test :: tests, octet :: octets => if test octet then passed tests octets + 1 else 0
  | [], _ => 0
  | _ :: _, [] => 0

theorem passed_le (tests : List (UInt8 → Bool)) (octets : List UInt8) :
    passed tests octets ≤ tests.length ∧ passed tests octets ≤ octets.length := by
  induction tests, octets using passed.induct with
  | case1 test tests octet octets passes induction =>
      rw [passed, if_pos passes, List.length_cons, List.length_cons]
      omega
  | case2 test tests octet octets fails =>
      rw [passed, if_neg fails]
      omega
  | case3 octets => exact ⟨Nat.le_refl _, Nat.zero_le _⟩
  | case4 test tests => exact ⟨Nat.zero_le _, Nat.le_refl _⟩

theorem passed_take (tests : List (UInt8 → Bool)) (octets : List UInt8) (count : Nat) :
    passed tests (octets.take count) = min count (passed tests octets) := by
  induction tests, octets using passed.induct generalizing count with
  | case1 test tests octet octets passes induction =>
      cases count with
      | zero => simp [passed]
      | succ count =>
          rw [List.take_succ_cons, passed, passed, if_pos passes, if_pos passes, induction,
            Nat.add_min_add_right]
  | case2 test tests octet octets fails =>
      cases count with
      | zero => simp [passed]
      | succ count => rw [List.take_succ_cons, passed, passed, if_neg fails, if_neg fails,
          Nat.min_zero]
  | case3 octets => simp [passed]
  | case4 test tests => simp [passed]

theorem exists_passing (tests : List (UInt8 → Bool)) (octets : List UInt8)
    (passable : ∀ test ∈ tests, ∃ octet, test octet = true)
    (allPass : passed tests octets = octets.length) :
    ∃ others, passed tests (octets ++ others) = tests.length ∧
      octets.length + others.length = tests.length := by
  induction tests generalizing octets with
  | nil =>
      have isEmpty : octets = [] := List.length_eq_zero_iff.mp allPass.symm
      exact ⟨[], by simp [passed], by simp [isEmpty]⟩
  | cons test tests induction =>
      have others := fun octets => induction octets fun other member =>
        passable other (List.mem_cons_of_mem _ member)
      cases octets with
      | nil =>
          rcases passable test List.mem_cons_self with ⟨octet, passes⟩
          rcases others [] (by simpa [passed] using (passed_le tests []).2)
            with ⟨more, allPassed, full⟩
          refine ⟨octet :: more, ?_, by simpa using full⟩
          simpa [passed, passes] using allPassed
      | cons octet octets =>
          rw [passed] at allPass
          split at allPass
          · rename_i passes
            rcases others octets (Nat.succ.inj allPass) with ⟨more, allPassed, full⟩
            refine ⟨more, ?_, by simp only [List.length_cons]; omega⟩
            simpa [passed, passes] using allPassed
          · simp at allPass

/-- What stands in front, as the tests of the octets behind some others decide it. -/
def Front.Agrees (others : Nat) (tests : List (UInt8 → Bool)) (octets : List UInt8) :
    Front → Prop
  | .character _ further => passed tests octets = tests.length ∧ further = others + tests.length
  | .illFormed further =>
      further = others + passed tests octets ∧ passed tests octets < tests.length ∧
        passed tests octets < octets.length
  | .truncated => passed tests octets = octets.length ∧ octets.length < tests.length

theorem Front.Agrees.eq_truncated {front : Front} {tests : List (UInt8 → Bool)}
    {octets : List UInt8} (agrees : front.Agrees 0 tests octets)
    (allPass : passed tests octets = octets.length) (fewer : octets.length < tests.length) :
    front = .truncated := by
  cases front with
  | truncated => rfl
  | character value further =>
      rw [Agrees] at agrees
      omega
  | illFormed further =>
      rw [Agrees] at agrees
      omega

theorem Front.Agrees.eq_illFormed {front : Front} {tests : List (UInt8 → Bool)}
    {octets : List UInt8} (agrees : front.Agrees 0 tests octets)
    (fewer : passed tests octets < tests.length)
    (inside : passed tests octets < octets.length) :
    front = .illFormed (passed tests octets) := by
  cases front with
  | illFormed further => rw [agrees.1, Nat.zero_add]
  | character value further =>
      rw [Agrees] at agrees
      omega
  | truncated =>
      rw [Agrees] at agrees
      omega

theorem agrees_frontFrom (tests : List (UInt8 → Bool)) (octets : List UInt8)
    (number others : Nat) : (frontFrom number others tests octets).Agrees others tests octets := by
  induction tests generalizing octets number others with
  | nil => exact ⟨by simp [passed], rfl⟩
  | cons test tests induction =>
      cases octets with
      | nil => simp [frontFrom, Front.Agrees, passed]
      | cons octet octets =>
          rw [frontFrom]
          split
          · rename_i passes
            have later := induction octets (number * 0x40 + bits octet) (others + 1)
            cases isFront : frontFrom (number * 0x40 + bits octet) (others + 1) tests octets <;>
              simp only [isFront, Front.Agrees] at later ⊢ <;>
              simp only [passed, passes, if_true, List.length_cons] <;> omega
          · rename_i fails
            simp [Front.Agrees, passed, fails]

/-- The first octets `0xe0` and `0xf0` rule out `0x80` behind them, and no other does. -/
theorem exists_isSecond (first : UInt8) : ∃ octet, isSecond first octet = true := by
  by_cases ofThree : first.toNat = 0xe0
  · exact ⟨0xa0, isSecond_iff.mpr (by simp [ofThree])⟩
  · by_cases ofFour : first.toNat = 0xf0
    · exact ⟨0x90, isSecond_iff.mpr (by simp [ofFour])⟩
    · exact ⟨0x80, isSecond_iff.mpr (by simp [ofThree, ofFour])⟩

/-- No character starts with the first octet, or it decides the tests for those behind it. -/
theorem exists_tests (first : UInt8) :
    (∀ rest, front first rest = .illFormed 0) ∨
      ∃ tests : List (UInt8 → Bool), tests.length ≤ 3 ∧
        (∀ test ∈ tests, ∃ octet, test octet = true) ∧
        ∀ rest, (front first rest).Agrees 0 tests rest := by
  cases starts : further? first with
  | none => exact .inl fun rest => by simp only [front, starts]
  | some further =>
      refine .inr ⟨tests first further, ?_, ?_, fun rest => ?_⟩
      · have range := further?_eq_some_iff.mp starts
        rw [length_tests]
        omega
      · intro test member
        cases further with
        | zero => cases member
        | succ further =>
            rcases List.mem_cons.mp member with same | later
            · rw [same]
              exact exists_isSecond first
            · rw [List.eq_of_mem_replicate later]
              exact ⟨0x80, by decide⟩
      · simp only [front, starts]
        exact agrees_frontFrom _ _ _ _

/-! ## Octets that are cut off -/

section Cut

variable {first : UInt8} {rest : List UInt8} {further count : Nat}

theorem front_take_of_character {value : Char}
    (isCharacter : front first rest = .character value further) (fewer : count < further) :
    front first (rest.take count) = .truncated := by
  rcases exists_tests first with bad | ⟨tests, _, _, agrees⟩
  · rw [bad] at isCharacter
    cases isCharacter
  · have whole := agrees rest
    have bounds := passed_le tests rest
    rw [isCharacter, Front.Agrees] at whole
    apply (agrees (rest.take count)).eq_truncated
    · rw [passed_take, List.length_take]
      omega
    · rw [List.length_take]
      omega

theorem front_take_of_illFormed (isDefect : front first rest = .illFormed further)
    (more : further < count) : front first (rest.take count) = .illFormed further := by
  rcases exists_tests first with bad | ⟨tests, _, _, agrees⟩
  · rw [bad] at isDefect ⊢
    exact isDefect
  · have whole := agrees rest
    rw [isDefect, Front.Agrees] at whole
    have same : passed tests (rest.take count) = further := by
      rw [passed_take]
      omega
    rw [← same]
    apply (agrees (rest.take count)).eq_illFormed
    · omega
    · rw [same, List.length_take]
      omega

theorem front_take_further (isDefect : front first rest = .illFormed further)
    (several : further ≠ 0) : front first (rest.take further) = .truncated := by
  rcases exists_tests first with bad | ⟨tests, _, _, agrees⟩
  · rw [bad] at isDefect
    cases isDefect
    exact absurd rfl several
  · have whole := agrees rest
    rw [isDefect, Front.Agrees] at whole
    apply (agrees (rest.take further)).eq_truncated
    · rw [passed_take, List.length_take]
      omega
    · rw [List.length_take]
      omega

theorem further_of_illFormed (isDefect : front first rest = .illFormed further) :
    further ≤ 2 ∧ further ≤ rest.length := by
  rcases exists_tests first with bad | ⟨tests, short, _, agrees⟩
  · rw [bad] at isDefect
    cases isDefect
    exact ⟨Nat.zero_le _, Nat.zero_le _⟩
  · have whole := agrees rest
    rw [isDefect, Front.Agrees] at whole
    omega

theorem exists_rest_of_truncated (breaksOff : front first rest = .truncated) :
    ∃ (value : Char) (others : List UInt8), others ≠ [] ∧
      String.utf8EncodeChar value = first :: rest ++ others := by
  rcases exists_tests first with bad | ⟨tests, _, passable, agrees⟩
  · rw [bad] at breaksOff
    cases breaksOff
  · have whole := agrees rest
    rw [breaksOff] at whole
    rcases exists_passing tests rest passable whole.1 with ⟨others, allPass, full⟩
    have size : (rest ++ others).length = tests.length := by
      rw [List.length_append, full]
    have completed := agrees (rest ++ others)
    cases isFront : front first (rest ++ others) with
    | character value further =>
        rw [isFront] at completed
        have octets := octets_of_front isFront
        rw [completed.2, ← size, Nat.zero_add, List.take_length] at octets
        refine ⟨value, others, ?_, octets⟩
        intro isEmpty
        rw [isEmpty, List.length_nil] at full
        exact absurd full (Nat.ne_of_lt whole.2)
    | illFormed further =>
        rw [isFront, Front.Agrees] at completed
        omega
    | truncated =>
        rw [isFront, Front.Agrees] at completed
        omega

end Cut

/-! ## Ill-formed parts -/

def IsInitial (octets : List UInt8) : Prop := ∃ text, octets <+: encode text

/-- The maximal ill-formed part in front of octets that start with no character: the longest
run of octets that begins a well-formed sequence, or a single octet if none does. -/
structure IsIllFormedPart (part octets : List UInt8) : Prop where
  noCharacter : ∀ value : Char, ¬String.utf8EncodeChar value <+: octets
  inFront : part <+: octets
  initial : part.length = 1 ∨ part ≠ [] ∧ IsInitial part
  longest : ∀ other, other <+: octets → IsInitial other → other.length ≤ part.length

section Parts

variable {first : UInt8} {rest : List UInt8} {further : Nat}

theorem front_eq_character {value : Char}
    (inFront : String.utf8EncodeChar value <+: first :: rest) :
    front first rest = .character value ((String.utf8EncodeChar value).length - 1) := by
  rcases inFront with ⟨others, same⟩
  rcases front_append value others with ⟨head, tail, octets, isFront⟩
  rw [octets, List.cons_append, List.cons.injEq] at same
  rw [← same.1, ← same.2, isFront, octets, List.length_cons, Nat.add_sub_cancel]

theorem front_of_prefix_utf8EncodeChar {value : Char}
    (begins : first :: rest <+: String.utf8EncodeChar value) :
    front first rest ≠ .illFormed further := by
  rcases front_append value [] with ⟨head, tail, octets, isFront⟩
  rw [List.append_nil] at isFront
  rw [octets, List.cons_prefix_cons] at begins
  rcases begins with ⟨same, begins⟩
  rw [List.prefix_iff_eq_take] at begins
  rw [same, begins]
  rcases Nat.lt_or_ge rest.length tail.length with fewer | all
  · rw [front_take_of_character isFront fewer]
    nofun
  · rw [List.take_of_length_le all, isFront]
    nofun

theorem front_of_isInitial (initial : IsInitial (first :: rest)) :
    front first rest ≠ .illFormed further := by
  rcases initial with ⟨text, begins⟩
  rw [encode_eq_flatMap] at begins
  cases characters : text.toList with
  | nil =>
      rw [characters, List.flatMap_nil, List.prefix_nil] at begins
      cases begins
  | cons value others =>
      rw [characters, List.flatMap_cons] at begins
      rcases List.prefix_or_prefix_of_prefix begins (List.prefix_append _ _) with short | whole
      · exact front_of_prefix_utf8EncodeChar short
      · rw [front_eq_character whole]
        nofun

theorem isInitial_of_truncated (breaksOff : front first rest = .truncated) :
    IsInitial (first :: rest) := by
  rcases exists_rest_of_truncated breaksOff with ⟨value, others, _, octets⟩
  refine ⟨String.ofList [value], others, ?_⟩
  rw [encode_eq_flatMap, String.toList_ofList, List.flatMap_singleton, octets]

/-- The part that a defect reports is the maximal one. -/
theorem isIllFormedPart_of_illFormed (isDefect : front first rest = .illFormed further) :
    IsIllFormedPart (first :: rest.take further) (first :: rest) where
  noCharacter := by
    intro value inFront
    rw [front_eq_character inFront] at isDefect
    cases isDefect
  inFront := List.cons_prefix_cons.mpr ⟨rfl, List.take_prefix _ _⟩
  initial := by
    by_cases single : further = 0
    · left
      simp [single]
    · right
      exact ⟨List.cons_ne_nil _ _, isInitial_of_truncated (front_take_further isDefect single)⟩
  longest := by
    intro other inFront initial
    have size := (further_of_illFormed isDefect).2
    cases other with
    | nil => exact Nat.zero_le _
    | cons head tail =>
        rcases List.cons_prefix_cons.mp inFront with ⟨same, inFront⟩
        rw [List.prefix_iff_eq_take] at inFront
        apply Nat.le_of_not_lt
        intro longer
        rw [List.length_cons, List.length_cons, List.length_take] at longer
        have stillDefect : front first (rest.take tail.length) = .illFormed further :=
          front_take_of_illFormed isDefect (by omega)
        rw [← inFront, ← same] at stillDefect
        exact front_of_isInitial initial stillDefect

theorem isIllFormedPart_of_truncated (breaksOff : front first rest = .truncated) :
    IsIllFormedPart (first :: rest) (first :: rest) where
  noCharacter := by
    intro value inFront
    rw [front_eq_character inFront] at breaksOff
    cases breaksOff
  inFront := List.prefix_refl _
  initial := .inr ⟨List.cons_ne_nil _ _, isInitial_of_truncated breaksOff⟩
  longest := fun _ inFront _ => inFront.length_le

theorem IsIllFormedPart.unique {left right octets : List UInt8}
    (isLeft : IsIllFormedPart left octets) (isRight : IsIllFormedPart right octets) :
    left = right := by
  have le : ∀ {one other : List UInt8}, IsIllFormedPart one octets →
      IsIllFormedPart other octets → one.length ≤ other.length := by
    intro one other isOne isOther
    rcases isOne.initial with single | ⟨_, initial⟩
    · rw [single]
      rcases isOther.initial with otherSingle | ⟨someOctets, _⟩
      · exact otherSingle.ge
      · exact List.length_pos_iff.mpr someOctets
    · exact isOther.longest one isOne.inFront initial
  have size := Nat.le_antisymm (le isLeft isRight) (le isRight isLeft)
  exact (List.prefix_of_prefix_length_le isLeft.inFront isRight.inFront size.le).eq_of_length size

end Parts

/-! ## The first defect -/

theorem length_utf8EncodeChar_of_front {first : UInt8} {rest : List UInt8} {value : Char}
    {further : Nat} (isFront : front first rest = .character value further) :
    (String.utf8EncodeChar value).length = further + 1 := by
  have octets := octets_of_front isFront
  have inFront : String.utf8EncodeChar value <+: first :: rest :=
    octets ▸ List.cons_prefix_cons.mpr ⟨rfl, List.take_prefix _ _⟩
  have same := front_eq_character inFront
  have positive := List.length_pos_iff.mpr (String.utf8EncodeChar_ne_nil (c := value))
  rw [isFront, Front.character.injEq] at same
  omega

structure Defect.IsBehind (characters : List Char) (first : UInt8) (rest : List UInt8)
    (defect : Defect) : Prop where
  index : defect.index = (characters.flatMap String.utf8EncodeChar).length
  cause : (∃ further, front first rest = .illFormed further ∧
      defect.length = some (further + 1)) ∨
    front first rest = .truncated ∧ defect.length = none

theorem exists_isBehind_of_decodeFrom {index : Nat} {octets : List UInt8} {defect : Defect}
    (failed : decodeFrom index octets = .error defect) :
    ∃ (characters : List Char) (first : UInt8) (rest : List UInt8),
      octets = characters.flatMap String.utf8EncodeChar ++ first :: rest ∧
        index ≤ defect.index ∧
        Defect.IsBehind characters first rest ⟨defect.index - index, defect.length⟩ := by
  induction index, octets using decodeFrom.induct with
  | case1 index =>
      rw [decodeFrom] at failed
      cases failed
  | case2 index first rest value further isFront induction =>
      rw [decodeFrom_of_character isFront] at failed
      cases later : decodeFrom (index + further + 1) (rest.drop further) with
      | ok characters =>
          rw [later] at failed
          cases failed
      | error other =>
          rw [later] at failed
          cases failed
          rcases induction later with ⟨characters, head, tail, same, behind, ⟨isIndex, cause⟩⟩
          have size := length_utf8EncodeChar_of_front isFront
          refine ⟨value :: characters, head, tail, ?_, by omega, ⟨?_, cause⟩⟩
          · rw [List.flatMap_cons, List.append_assoc, ← same, octets_of_front isFront,
              List.cons_append, List.take_append_drop]
          · rw [List.flatMap_cons, List.length_append, size]
            simp only at isIndex ⊢
            omega
  | case3 index first rest further isFront =>
      rw [decodeFrom, isFront] at failed
      cases failed
      exact ⟨[], first, rest, rfl, Nat.le_refl _, ⟨by simp, .inl ⟨further, isFront, rfl⟩⟩⟩
  | case4 index first rest isFront =>
      rw [decodeFrom, isFront] at failed
      cases failed
      exact ⟨[], first, rest, rfl, Nat.le_refl _, ⟨by simp, .inr ⟨isFront, rfl⟩⟩⟩

theorem exists_isBehind {octets : List UInt8} {defect : Defect}
    (failed : decode octets = .error defect) :
    ∃ (characters : List Char) (first : UInt8) (rest : List UInt8),
      octets = characters.flatMap String.utf8EncodeChar ++ first :: rest ∧
        defect.IsBehind characters first rest := by
  rcases exists_isBehind_of_decodeFrom failed
    with ⟨characters, first, rest, same, _, ⟨isIndex, cause⟩⟩
  exact ⟨characters, first, rest, same, ⟨isIndex, cause⟩⟩

theorem encode_ofList (characters : List Char) :
    encode (String.ofList characters) = characters.flatMap String.utf8EncodeChar := by
  rw [encode_eq_flatMap, String.toList_ofList]

theorem decodeFrom_flatMap_append (characters : List Char) (others : List UInt8) (index : Nat) :
    decodeFrom index (characters.flatMap String.utf8EncodeChar ++ others) =
      (decodeFrom (index + (characters.flatMap String.utf8EncodeChar).length) others).map
        (characters ++ ·) := by
  induction characters generalizing index with
  | nil =>
      change decodeFrom index others = (decodeFrom index others).map fun read => read
      cases decodeFrom index others <;> rfl
  | cons value characters induction =>
      rw [List.flatMap_cons, List.append_assoc, decodeFrom_append, induction,
        List.length_append, Nat.add_assoc]
      cases decodeFrom _ others <;> rfl

theorem exists_characters_of_append {characters others : List Char} {octets : List UInt8}
    (same : others.flatMap String.utf8EncodeChar =
      characters.flatMap String.utf8EncodeChar ++ octets) :
    ∃ more : List Char, octets = more.flatMap String.utf8EncodeChar := by
  have read := decodeFrom_flatMap others 0
  rw [same, decodeFrom_flatMap_append] at read
  cases later : decodeFrom (0 + (characters.flatMap String.utf8EncodeChar).length) octets with
  | error defect =>
      rw [later] at read
      cases read
  | ok more => exact ⟨more, eq_flatMap_of_decodeFrom later⟩

namespace Defect.IsBehind

variable {characters : List Char} {first : UInt8} {rest : List UInt8} {defect : Defect}

theorem noCharacter (isBehind : defect.IsBehind characters first rest) (value : Char) :
    ¬String.utf8EncodeChar value <+: first :: rest := by
  intro inFront
  have isFront := front_eq_character inFront
  rcases isBehind.cause with ⟨further, isDefect, _⟩ | ⟨breaksOff, _⟩
  · rw [isDefect] at isFront
    cases isFront
  · rw [breaksOff] at isFront
    cases isFront

theorem isGreatest (isBehind : defect.IsBehind characters first rest) :
    IsGreatest {size | ∃ text, (encode text).length = size ∧
      encode text <+: characters.flatMap String.utf8EncodeChar ++ first :: rest}
      defect.index := by
  constructor
  · refine ⟨String.ofList characters, ?_, ?_⟩
    · rw [encode_ofList, isBehind.index]
    · rw [encode_ofList]
      exact List.prefix_append _ _
  · rintro size ⟨text, isSize, inFront⟩
    rw [← isSize, isBehind.index]
    rw [encode_eq_flatMap] at inFront ⊢
    rcases List.prefix_or_prefix_of_prefix inFront (List.prefix_append _ _)
      with shorter | ⟨octets, longer⟩
    · exact shorter.length_le
    -- A longer text goes on with a character behind the first one, and none stands there.
    · rcases exists_characters_of_append longer.symm with ⟨more, isText⟩
      rw [← longer, List.prefix_append_right_inj, isText] at inFront
      cases more with
      | nil =>
          rw [← longer, isText]
          simp
      | cons value others =>
          rw [List.flatMap_cons] at inFront
          exact absurd ((List.prefix_append _ _).trans inFront) (isBehind.noCharacter value)

/-- Nothing but more octets is missing exactly if a text goes on where the octets end. -/
theorem length_eq_none_iff (isBehind : defect.IsBehind characters first rest) :
    defect.length = none ↔ ∃ others, others ≠ [] ∧ ∃ text,
      encode text = characters.flatMap String.utf8EncodeChar ++ first :: rest ++ others := by
  constructor
  · intro incomplete
    rcases isBehind.cause with ⟨further, _, isLength⟩ | ⟨breaksOff, _⟩
    · rw [isLength] at incomplete
      cases incomplete
    · rcases exists_rest_of_truncated breaksOff with ⟨value, others, someOthers, octets⟩
      refine ⟨others, someOthers, String.ofList (characters ++ [value]), ?_⟩
      rw [encode_ofList, List.flatMap_append, List.flatMap_singleton, octets, List.append_assoc]
  · rintro ⟨others, _, text, encoded⟩
    rcases isBehind.cause with ⟨further, isDefect, _⟩ | ⟨_, incomplete⟩
    -- In a longer text a character starts with the octets or stands in front of them.
    · rw [encode_eq_flatMap, List.append_assoc] at encoded
      rcases exists_characters_of_append encoded with ⟨more, isText⟩
      cases more with
      | nil => cases isText
      | cons value characters =>
          rw [List.flatMap_cons] at isText
          have inFront : String.utf8EncodeChar value <+: first :: rest ++ others :=
            isText ▸ List.prefix_append _ _
          rcases List.prefix_or_prefix_of_prefix inFront (List.prefix_append _ _)
            with whole | begins
          · exact absurd whole (isBehind.noCharacter value)
          · exact absurd isDefect (front_of_prefix_utf8EncodeChar begins)
    · exact incomplete

theorem isIllFormedPart (isBehind : defect.IsBehind characters first rest) {length : Nat}
    (isLength : defect.length = some length) :
    1 ≤ length ∧ length ≤ 3 ∧ length ≤ (first :: rest).length ∧
      IsIllFormedPart ((first :: rest).take length) (first :: rest) := by
  rcases isBehind.cause with ⟨further, isDefect, same⟩ | ⟨_, incomplete⟩
  · have bounds := further_of_illFormed isDefect
    rw [isLength, Option.some.injEq] at same
    rw [same, List.length_cons]
    exact ⟨by omega, by omega, by omega, isIllFormedPart_of_illFormed isDefect⟩
  · rw [isLength] at incomplete
    cases incomplete

end Defect.IsBehind

/-- What a report says of the first defect: the longest text in front of it ends at its index,
it is incomplete if the octets can be continued to a text, and otherwise its length is that of
the maximal ill-formed part behind the index. -/
structure Defect.IsFirst (octets : List UInt8) (defect : Defect) : Prop where
  index : IsGreatest {size | ∃ text, (encode text).length = size ∧ encode text <+: octets}
    defect.index
  incomplete : defect.length = none ↔
    ∃ others, others ≠ [] ∧ ∃ text, encode text = octets ++ others
  part : ∀ length, defect.length = some length →
    1 ≤ length ∧ length ≤ 3 ∧ defect.index + length ≤ octets.length ∧
      IsIllFormedPart ((octets.drop defect.index).take length) (octets.drop defect.index)

theorem isFirst_of_decode {octets : List UInt8} {defect : Defect}
    (failed : decode octets = .error defect) : defect.IsFirst octets := by
  rcases exists_isBehind failed with ⟨characters, first, rest, same, isBehind⟩
  rw [same]
  have behind : (characters.flatMap String.utf8EncodeChar ++ first :: rest).drop defect.index =
      first :: rest := by
    rw [isBehind.index, List.drop_left]
  refine ⟨isBehind.isGreatest, isBehind.length_eq_none_iff, ?_⟩
  intro length isLength
  rcases isBehind.isIllFormedPart isLength with ⟨positive, short, inside, isPart⟩
  rw [behind, List.length_append, ← isBehind.index]
  exact ⟨positive, short, Nat.add_le_add_left inside _, isPart⟩

end Utf8

end Relay
