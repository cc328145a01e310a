import Mathlib.Algebra.Group.Nat.Defs
import Mathlib.Data.List.Forall2
import Mathlib.Data.List.Induction
import Mathlib.Tactic.SplitIfs
import Relay.Utf8

namespace Relay.Utf8

/-! Octets and the texts that they encode. A character stands at the front of some
octets exactly if they begin with its own octets, so that the octets that can be
read are the encodings of texts and no others. -/

def encode (text : String) : List UInt8 := text.toUTF8.data.toList

theorem encode_eq_flatMap (text : String) :
    encode text = text.toList.flatMap String.utf8EncodeChar := by
  have octets : (String.ofList text.toList).toByteArray = text.toList.utf8Encode :=
    String.toByteArray_ofList
  rw [String.ofList_toList] at octets
  rw [encode, String.toUTF8_eq_toByteArray, octets, List.utf8Encode, List.data_toByteArray]

/-! ## Octets as numbers -/

theorem isBetween_iff {low high octet : UInt8} :
    isBetween low high octet = true ↔ low.toNat ≤ octet.toNat ∧ octet.toNat ≤ high.toNat := by
  simp [isBetween, UInt8.le_iff_toNat_le]

theorem isContinuation_iff {octet : UInt8} :
    isContinuation octet = true ↔ 0x80 ≤ octet.toNat ∧ octet.toNat ≤ 0xbf :=
  isBetween_iff

theorem isSecond_iff {first second : UInt8} :
    isSecond first second = true ↔
      (0x80 ≤ second.toNat ∧ second.toNat ≤ 0xbf) ∧
        (first.toNat = 0xe0 → 0xa0 ≤ second.toNat) ∧
        (first.toNat = 0xed → second.toNat ≤ 0x9f) ∧
        (first.toNat = 0xf0 → 0x90 ≤ second.toNat) ∧
        (first.toNat = 0xf4 → second.toNat ≤ 0x8f) := by
  simp only [isSecond, ← UInt8.toNat_inj]
  split_ifs <;> simp_all [isContinuation, isBetween_iff] <;> omega

theorem further?_eq_some_iff {first : UInt8} {further : Nat} :
    further? first = some further ↔
      first.toNat < 0x80 ∧ further = 0 ∨
        (0xc2 ≤ first.toNat ∧ first.toNat ≤ 0xdf) ∧ further = 1 ∨
        (0xe0 ≤ first.toNat ∧ first.toNat ≤ 0xef) ∧ further = 2 ∨
        (0xf0 ≤ first.toNat ∧ first.toNat ≤ 0xf4) ∧ further = 3 := by
  simp only [further?, UInt8.lt_iff_toNat_lt, isBetween_iff]
  split_ifs <;> simp_all <;> omega

theorem toNat_ofNat_of_lt {value : Nat} (small : value < 256) :
    (UInt8.ofNat value).toNat = value := by
  rw [UInt8.toNat_ofNat']
  exact Nat.mod_eq_of_lt small

theorem toNat_lt_of_char (value : Char) :
    value.toNat < 0xd800 ∨ 0xdfff < value.toNat ∧ value.toNat < 0x110000 :=
  value.valid

abbrev Pass (tests : List (UInt8 → Bool)) (octets : List UInt8) : Prop :=
  List.Forall₂ (fun test octet => test octet = true) tests octets

/-! ## Numbers in octets

A number is cut into groups of six bits. The lowest groups stand in continuations, and what is
left above them stands in the first octet. -/

def continuations : Nat → Nat → List UInt8
  | 0, _ => []
  | count + 1, number =>
      continuations count (number / 0x40) ++ [.ofNat (number % 0x40 + 0x80)]

/-- The number whose lowest groups stand in some octets. -/
def numberFrom (number : Nat) (octets : List UInt8) : Nat :=
  octets.foldl (fun number octet => number * 0x40 + bits octet) number

theorem numberFrom_cons (number : Nat) (octet : UInt8) (octets : List UInt8) :
    numberFrom number (octet :: octets) = numberFrom (number * 0x40 + bits octet) octets := by
  simp only [numberFrom, List.foldl_cons]

theorem numberFrom_append (number : Nat) (octets : List UInt8) (last : UInt8) :
    numberFrom number (octets ++ [last]) = numberFrom number octets * 0x40 + bits last := by
  rw [numberFrom, List.foldl_append]
  rfl

theorem isContinuation_ofNat (number : Nat) :
    isContinuation (.ofNat (number % 0x40 + 0x80)) = true := by
  rw [isContinuation_iff, toNat_ofNat_of_lt (by omega)]
  omega

theorem groups_of_isContinuation {last : UInt8} (isLast : isContinuation last = true)
    (number : Nat) :
    (number * 0x40 + bits last) / 0x40 = number ∧
      UInt8.ofNat ((number * 0x40 + bits last) % 0x40 + 0x80) = last := by
  have range := isContinuation_iff.mp isLast
  have lowest : (number * 0x40 + bits last) % 0x40 + 0x80 = last.toNat := by
    unfold bits
    omega
  rw [lowest, UInt8.ofNat_toNat]
  unfold bits
  exact ⟨by omega, rfl⟩

/-- The groups of the number that octets stand for are those octets again. -/
theorem continuations_numberFrom (number : Nat) {octets : List UInt8}
    (continuing : ∀ octet ∈ octets, isContinuation octet = true) :
    continuations octets.length (numberFrom number octets) = octets ∧
      numberFrom number octets / 0x40 ^ octets.length = number := by
  -- From the back, because the last octet holds the lowest group.
  induction octets using List.reverseRecOn with
  | nil => exact ⟨rfl, Nat.div_one number⟩
  | append_singleton octets last induction =>
      rcases List.forall_mem_append.mp continuing with ⟨others, isLast⟩
      rcases induction others with ⟨sameOctets, sameNumber⟩
      rcases groups_of_isContinuation (isLast last List.mem_cons_self)
        (numberFrom number octets) with ⟨above, lowest⟩
      rw [List.length_append, List.length_singleton, numberFrom_append, continuations, above,
        lowest, sameOctets, Nat.pow_succ', ← Nat.div_div_eq_div_mul, above, sameNumber]
      exact ⟨rfl, rfl⟩

/-! ## The octets of a character -/

def furtherOf (number : Nat) : Nat :=
  if number ≤ 0x7f then 0 else if number ≤ 0x7ff then 1 else if number ≤ 0xffff then 2 else 3

theorem furtherOf_eq_iff {number further : Nat} :
    furtherOf number = further ↔
      number < 0x80 ∧ further = 0 ∨
        (0x80 ≤ number ∧ number < 0x800) ∧ further = 1 ∨
        (0x800 ≤ number ∧ number < 0x10000) ∧ further = 2 ∨
        0x10000 ≤ number ∧ further = 3 := by
  unfold furtherOf
  split_ifs <;> omega

theorem utf8EncodeChar_eq (value : Char) :
    String.utf8EncodeChar value =
      .ofNat (value.toNat / 0x40 ^ furtherOf value.toNat + mark (furtherOf value.toNat)) ::
        continuations (furtherOf value.toNat) value.toNat := by
  have valid := toNat_lt_of_char value
  simp only [String.utf8EncodeChar, Char.toNat_val, furtherOf]
  split_ifs
  · simp [continuations, mark]
  · have highest : value.toNat / 64 % 32 = value.toNat / 64 := Nat.mod_eq_of_lt (by omega)
    simp [continuations, mark, highest]
  · have highest : value.toNat / 4096 % 16 = value.toNat / 4096 := Nat.mod_eq_of_lt (by omega)
    simp [continuations, mark, highest]
  · have highest : value.toNat / 262144 % 8 = value.toNat / 262144 := Nat.mod_eq_of_lt (by omega)
    simp [continuations, mark, highest, Nat.div_div_eq_div_mul]

/-- Octets that pass the tests of the first one are those of a character. -/
theorem isValidChar_numberFrom {first : UInt8} {further : Nat} {octets : List UInt8}
    (starts : further? first = some further)
    (pass : Pass (tests first further) octets) :
    (numberFrom (first.toNat - mark further) octets).isValidChar ∧
      furtherOf (numberFrom (first.toNat - mark further) octets) = further := by
  -- The tests of the second octet are what keeps the number among those of so many octets.
  rcases further?_eq_some_iff.mp starts with ⟨range, rfl⟩ | ⟨range, rfl⟩ | ⟨range, rfl⟩ |
    ⟨range, rfl⟩
  · cases pass
    exact ⟨.inl (Nat.lt_trans range (by decide)), furtherOf_eq_iff.mpr (.inl ⟨range, rfl⟩)⟩
  · rcases pass with _ | ⟨second, ⟨⟩⟩
    rw [isSecond_iff] at second
    simp only [numberFrom, List.foldl_cons, List.foldl_nil, mark]
    unfold bits Nat.isValidChar
    exact ⟨by omega, furtherOf_eq_iff.mpr (.inr (.inl ⟨by omega, rfl⟩))⟩
  · rcases pass with _ | ⟨second, _ | ⟨third, ⟨⟩⟩⟩
    rw [isSecond_iff] at second
    rw [isContinuation_iff] at third
    simp only [numberFrom, List.foldl_cons, List.foldl_nil, mark]
    unfold bits Nat.isValidChar
    exact ⟨by omega, furtherOf_eq_iff.mpr (.inr (.inr (.inl ⟨by omega, rfl⟩)))⟩
  · rcases pass with _ | ⟨second, _ | ⟨third, _ | ⟨fourth, ⟨⟩⟩⟩⟩
    rw [isSecond_iff] at second
    rw [isContinuation_iff] at third fourth
    simp only [numberFrom, List.foldl_cons, List.foldl_nil, mark]
    unfold bits Nat.isValidChar
    exact ⟨by omega, furtherOf_eq_iff.mpr (.inr (.inr (.inr ⟨by omega, rfl⟩)))⟩

theorem numberFrom_continuations (count number : Nat) :
    numberFrom (number / 0x40 ^ count) (continuations count number) = number := by
  induction count generalizing number with
  | zero => exact Nat.div_one number
  | succ count induction =>
      have lowest : bits (.ofNat (number % 0x40 + 0x80)) = number % 0x40 := by
        unfold bits
        rw [toNat_ofNat_of_lt (by omega)]
        omega
      rw [continuations, numberFrom_append, Nat.pow_succ', ← Nat.div_div_eq_div_mul, induction,
        lowest]
      omega

theorem toNat_ofNat_add_mark (value : Char) :
    (UInt8.ofNat
        (value.toNat / 0x40 ^ furtherOf value.toNat + mark (furtherOf value.toNat))).toNat =
      value.toNat / 0x40 ^ furtherOf value.toNat + mark (furtherOf value.toNat) := by
  have valid := toNat_lt_of_char value
  apply toNat_ofNat_of_lt
  rcases furtherOf_eq_iff.mp (rfl : furtherOf value.toNat = _) with ⟨range, same⟩ | ⟨range, same⟩ |
    ⟨range, same⟩ | ⟨range, same⟩ <;> simp only [same, mark] <;> omega

theorem exists_utf8EncodeChar_eq (value : Char) :
    ∃ first octets further, String.utf8EncodeChar value = first :: octets ∧
      further? first = some further ∧ Pass (tests first further) octets ∧
      numberFrom (first.toNat - mark further) octets = value.toNat := by
  have valid := toNat_lt_of_char value
  have marks : mark 0 = 0 ∧ mark 1 = 0xc0 ∧ mark 2 = 0xe0 ∧ mark 3 = 0xf0 :=
    ⟨rfl, rfl, rfl, rfl⟩
  have isFirst := toNat_ofNat_add_mark value
  have stands := numberFrom_continuations (furtherOf value.toNat) value.toNat
  have continues := isContinuation_ofNat
  refine ⟨_, _, furtherOf value.toNat, utf8EncodeChar_eq value, ?_⟩
  rw [further?_eq_some_iff, isFirst, Nat.add_sub_cancel, stands]
  rcases furtherOf_eq_iff.mp (rfl : furtherOf value.toNat = _) with ⟨range, same⟩ | ⟨range, same⟩ |
    ⟨range, same⟩ | ⟨range, same⟩ <;> rw [same] at isFirst ⊢
  · exact ⟨.inl ⟨by omega, rfl⟩, .nil, rfl⟩
  · refine ⟨.inr (.inl ⟨by omega, rfl⟩), .cons ?_ .nil, rfl⟩
    rw [isSecond_iff, isFirst, toNat_ofNat_of_lt (by omega)]
    omega
  · refine ⟨.inr (.inr (.inl ⟨by omega, rfl⟩)), .cons ?_ (.cons (continues _) .nil), rfl⟩
    rw [isSecond_iff, isFirst, toNat_ofNat_of_lt (by omega)]
    omega
  · refine ⟨.inr (.inr (.inr ⟨by omega, rfl⟩)),
      .cons ?_ (.cons (continues _) (.cons (continues _) .nil)), rfl⟩
    rw [isSecond_iff, isFirst, toNat_ofNat_of_lt (by omega)]
    omega

/-! ## The front of some octets -/

theorem frontFrom_append {tests : List (UInt8 → Bool)} {octets : List UInt8}
    (pass : Pass tests octets)
    (number further : Nat) (others : List UInt8) :
    frontFrom number further tests (octets ++ others) =
      .character (.ofNat (numberFrom number octets)) (further + octets.length) := by
  induction pass generalizing number further with
  | nil => rfl
  | cons passes _ induction =>
      rw [List.cons_append, frontFrom, if_pos passes, induction, numberFrom_cons,
        List.length_cons, Nat.add_assoc, Nat.add_comm 1]

theorem exists_octets_of_frontFrom {tests : List (UInt8 → Bool)} {number further count : Nat}
    {rest : List UInt8} {value : Char}
    (isCharacter : frontFrom number further tests rest = .character value count) :
    ∃ octets others, rest = octets ++ others ∧
      Pass tests octets ∧
      value = .ofNat (numberFrom number octets) ∧ count = further + octets.length := by
  induction tests generalizing number further rest with
  | nil =>
      cases isCharacter
      exact ⟨[], rest, rfl, .nil, rfl, rfl⟩
  | cons test tests induction =>
      cases rest with
      | nil => cases isCharacter
      | cons octet rest =>
          rw [frontFrom] at isCharacter
          split at isCharacter
          · rename_i passes
            rcases induction isCharacter with ⟨octets, others, same, pass, isValue, isCount⟩
            refine ⟨octet :: octets, others, by rw [same, List.cons_append],
              .cons passes pass, by rw [isValue, numberFrom_cons], ?_⟩
            rw [isCount, List.length_cons, Nat.add_assoc, Nat.add_comm 1]
          · cases isCharacter

theorem front_append (value : Char) (others : List UInt8) :
    ∃ first rest, String.utf8EncodeChar value = first :: rest ∧
      front first (rest ++ others) = .character value rest.length := by
  rcases exists_utf8EncodeChar_eq value with ⟨first, octets, further, same, starts, pass, number⟩
  refine ⟨first, octets, same, ?_⟩
  simp only [front, starts]
  rw [frontFrom_append pass, number, Char.ofNat_toNat, Nat.zero_add]

theorem toNat_ofNat_of_valid {number : Nat} (valid : number.isValidChar) :
    (Char.ofNat number).toNat = number := by
  rw [Char.ofNat, dif_pos valid]
  rfl

theorem mark_le {first : UInt8} {further : Nat} (starts : further? first = some further) :
    mark further ≤ first.toNat := by
  rcases further?_eq_some_iff.mp starts with ⟨_, rfl⟩ | ⟨range, rfl⟩ | ⟨range, rfl⟩ |
    ⟨range, rfl⟩
  · exact Nat.zero_le _
  · exact Nat.le_trans (by decide) range.1
  · exact range.1
  · exact range.1

@[simp] theorem length_tests (first : UInt8) (further : Nat) :
    (tests first further).length = further := by
  cases further <;> simp [tests]

theorem isContinuation_of_pass {first : UInt8} {further : Nat} {octets : List UInt8}
    (pass : Pass (tests first further) octets) :
    ∀ octet ∈ octets, isContinuation octet = true := by
  have weaker : ∀ test ∈ tests first further, ∀ octet,
      test octet = true → isContinuation octet = true := by
    intro test member octet passes
    cases further with
    | zero => cases member
    | succ further =>
        rcases List.mem_cons.mp member with same | later
        · rw [same, isSecond_iff] at passes
          exact isContinuation_iff.mpr passes.1
        · rwa [List.eq_of_mem_replicate later] at passes
  intro octet member
  rcases List.mem_iff_get.mp member with ⟨index, rfl⟩
  have inside : index.val < (tests first further).length := by
    rw [pass.length_eq]
    exact index.isLt
  exact weaker _ (List.get_mem _ ⟨index, inside⟩) _ (pass.get inside index.isLt)

theorem octets_of_front {first : UInt8} {rest : List UInt8} {value : Char} {further : Nat}
    (isCharacter : front first rest = .character value further) :
    String.utf8EncodeChar value = first :: rest.take further := by
  cases starts : further? first with
  | none =>
      simp only [front, starts] at isCharacter
      cases isCharacter
  | some count =>
      simp only [front, starts] at isCharacter
      rcases exists_octets_of_frontFrom isCharacter with
        ⟨octets, others, same, pass, isValue, isFurther⟩
      have size : octets.length = count := by rw [← pass.length_eq, length_tests]
      rcases isValidChar_numberFrom starts pass with ⟨valid, sameFurther⟩
      rcases continuations_numberFrom (first.toNat - mark count)
        (isContinuation_of_pass pass) with
        ⟨sameOctets, above⟩
      rw [size] at sameOctets above
      rw [utf8EncodeChar_eq, isValue, toNat_ofNat_of_valid valid, sameFurther, above, sameOctets,
        Nat.sub_add_cancel (mark_le starts), UInt8.ofNat_toNat, same, isFurther, Nat.zero_add,
        List.take_left]

/-! ## Whole texts -/

theorem decodeFrom_of_character {first : UInt8} {rest : List UInt8} {value : Char}
    {further : Nat} (isFront : front first rest = .character value further) (index : Nat) :
    decodeFrom index (first :: rest) =
      (decodeFrom (index + further + 1) (rest.drop further)).map (value :: ·) := by
  rw [decodeFrom, isFront]

theorem decodeFrom_append (value : Char) (others : List UInt8) (index : Nat) :
    decodeFrom index (String.utf8EncodeChar value ++ others) =
      (decodeFrom (index + (String.utf8EncodeChar value).length) others).map
        (value :: ·) := by
  rcases front_append value others with ⟨first, rest, octets, isFront⟩
  rw [octets, List.cons_append, decodeFrom_of_character isFront, List.drop_left]
  rfl

theorem decodeFrom_flatMap (characters : List Char) (index : Nat) :
    decodeFrom index (characters.flatMap String.utf8EncodeChar) = .ok characters := by
  induction characters generalizing index with
  | nil => rw [List.flatMap_nil, decodeFrom]
  | cons value characters induction =>
      rw [List.flatMap_cons, decodeFrom_append, induction]
      rfl

theorem eq_flatMap_of_decodeFrom {index : Nat} {octets : List UInt8}
    {characters : List Char} (decoded : decodeFrom index octets = .ok characters) :
    octets = characters.flatMap String.utf8EncodeChar := by
  induction index, octets using decodeFrom.induct generalizing characters with
  | case1 index =>
      rw [decodeFrom] at decoded
      cases decoded
      rfl
  | case2 index first rest value further isFront induction =>
      rw [decodeFrom_of_character isFront] at decoded
      cases later : decodeFrom (index + further + 1) (rest.drop further) with
      | error defect =>
          rw [later] at decoded
          cases decoded
      | ok others =>
          rw [later] at decoded
          cases decoded
          rw [List.flatMap_cons, octets_of_front isFront, ← induction later,
            List.cons_append, List.take_append_drop]
  | case3 index first rest further isFront =>
      rw [decodeFrom, isFront] at decoded
      cases decoded
  | case4 index first rest isFront =>
      rw [decodeFrom, isFront] at decoded
      cases decoded

/-- Octets are read as a text exactly if they encode it. -/
theorem decode_eq_ok_iff {octets : List UInt8} {characters : List Char} :
    decode octets = .ok characters ↔ octets = encode (String.ofList characters) := by
  rw [encode_eq_flatMap, String.toList_ofList]
  constructor
  · exact eq_flatMap_of_decodeFrom
  · intro encoded
    rw [encoded]
    exact decodeFrom_flatMap characters 0

theorem decode_encode (text : String) : decode (encode text) = .ok text.toList := by
  rw [decode_eq_ok_iff, String.ofList_toList]

end Relay.Utf8
