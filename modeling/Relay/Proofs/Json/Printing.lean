import Relay.Proofs.Double.Intervals
import Relay.Proofs.Json.Reprinting

namespace Relay

/-! What is printed. A value is determined by its text, down to the last place of its binary
numbers, and its text is read as some value unless it is nested too deeply. -/

/-! ## Numbers -/

namespace Json

namespace Literal

theorem magnitude_ofReal (number : Double) :
    (ofReal number).magnitude = (number.shortest .even).value :=
  magnitude_ofDecimal _ _

theorem ofReal_injective : Function.Injective ofReal := by
  intro left right same
  have sameSign := congrArg Literal.negative same
  have sameMagnitude := congrArg Literal.magnitude same
  rw [ofReal, ofReal, negative_ofDecimal, negative_ofDecimal] at sameSign
  rw [magnitude_ofReal, magnitude_ofReal] at sameMagnitude
  have sameRank := Double.rank_eq_of_shortest sameMagnitude
  cases left
  cases right
  simp only at sameSign sameRank
  subst sameSign sameRank
  rfl

end Literal

theorem Number.literal_injective : Function.Injective Number.literal := by
  intro left right same
  have sameNumber := congrArg Literal.number? same
  cases left with
  | integer value fits =>
      cases right with
      | integer other otherFits =>
          simp only [literal] at sameNumber
          rw [Literal.number?_ofInteger value fits,
            Literal.number?_ofInteger other otherFits] at sameNumber
          exact Option.some.inj sameNumber
      | real other =>
          simp only [literal] at sameNumber
          rw [Literal.number?_ofInteger value fits, Literal.number?_ofReal] at sameNumber
          cases read : other.reread? <;> simp [read] at sameNumber
  | real value =>
      cases right with
      | integer other otherFits =>
          simp only [literal] at sameNumber
          rw [Literal.number?_ofInteger other otherFits, Literal.number?_ofReal] at sameNumber
          cases read : value.reread? <;> simp [read] at sameNumber
      | real other => exact congrArg Number.real (Literal.ofReal_injective same)

end Json

namespace Double

open Json

/-- The shortest decimals of the four greatest numbers are too near to the end of the range
for an estimate. -/
theorem isSome_reread?_greatest : ∀ negative : Bool, ∀ rank ∈
    [rankBound - 4, rankBound - 3, rankBound - 2, rankBound - 1],
      ((ofRank? negative rank).bind reread?).isSome = true := by
  decide +kernel

theorem value_valueAt_greatest :
    (valueAt (rankBound - 4)).value = 2 ^ 1024 - 2 ^ 973 := by
  have place : rankBound - 4 = 2045 * rankStep + (2 * rankStep - 4) := rfl
  have units : ((2 * rankStep - 4 : Nat) : ℚ) = 2 ^ 53 - 4 := by norm_num [rankStep]
  have unit : (2 : ℚ) ^ (((2045 : Nat) : Int) - 1074) = 2 * 2 ^ 970 := by
    rw [← pow_succ', ← zpow_natCast]
    rfl
  rw [place, value_valueAt_units (.inr (by decide)) (Nat.sub_le _ _), units, unit,
    pow_1024_eq, pow_973_eq]
  generalize (2 : ℚ) ^ 970 = half
  ring

/-- Every binary number is printed within the range of the reader. -/
theorem isSome_reread? (number : Double) : number.reread?.isSome := by
  rcases Nat.lt_or_ge number.rank (rankBound - 4) with inside | greatest
  · rw [reread?, Literal.isSome_real?_iff (Literal.isWellFormed_ofReal number)]
    apply Literal.isInRange_of_le (Literal.isWellFormed_ofReal number)
    rw [Literal.magnitude_ofReal, ← value_valueAt_greatest]
    exact number.value_shortest_lt.le.trans (value_mono inside)
  · have finite := number.finite
    have isOne : number.rank ∈
        [rankBound - 4, rankBound - 3, rankBound - 2, rankBound - 1] := by
      simp only [List.mem_cons, List.not_mem_nil, or_false]
      omega
    have read := isSome_reread?_greatest number.negative number.rank isOne
    rw [ofRank?, dif_pos number.finite] at read
    exact read

end Double

open Json

/-! ## Values -/

mutual
theorem Json.phrase_injective : (left right : Json) → left.phrase = right.phrase → left = right
  | .null, right, same | .boolean _, right, same | .string _, right, same => by
      cases right <;> simp_all [Json.phrase]
  | .number value, right, same => by
      cases right with
      | number other =>
          rw [Json.phrase, Json.phrase, Phrase.number.injEq] at same
          rw [Number.literal_injective same]
      | null | boolean _ | string _ | array _ | object _ => simp [Json.phrase] at same
  | .array elements, right, same => by
      cases right with
      | array others =>
          rw [Json.phrase, Json.phrase, Phrase.array.injEq] at same
          rw [elements.phrases_injective others same]
      | null | boolean _ | string _ | number _ | object _ => simp [Json.phrase] at same
  | .object members, right, same => by
      cases right with
      | object others =>
          rw [Json.phrase, Json.phrase, Phrase.object.injEq] at same
          rw [members.entries_injective others same]
      | null | boolean _ | string _ | number _ | array _ => simp [Json.phrase] at same

theorem Elements.phrases_injective : (left right : Elements) → left.phrases = right.phrases →
    left = right
  | .nil, right, same => by
      cases right with
      | nil => rfl
      | cons head tail => simp [Elements.phrases] at same
  | .cons head tail, right, same => by
      cases right with
      | nil => simp [Elements.phrases] at same
      | cons otherHead otherTail =>
          rw [Elements.phrases, Elements.phrases, Phrases.cons.injEq] at same
          rw [head.phrase_injective otherHead same.1, tail.phrases_injective otherTail same.2]

theorem Members.entries_injective : (left right : Members) → left.entries = right.entries →
    left = right
  | .nil, right, same => by
      cases right with
      | nil => rfl
      | cons key value rest => simp [Members.entries] at same
  | .cons key value rest, right, same => by
      cases right with
      | nil => simp [Members.entries] at same
      | cons otherKey otherValue otherRest =>
          rw [Members.entries, Members.entries, Entries.cons.injEq] at same
          rw [same.1, value.phrase_injective otherValue same.2.1,
            rest.entries_injective otherRest same.2.2]
end

/-- Different values have different texts. -/
theorem Json.render_injective : Function.Injective Json.render := by
  intro left right same
  have sameText : left.text = right.text := String.ofList_injective same
  have isLeft := left.isText_text
  rw [sameText] at isLeft
  exact left.phrase_injective right (isLeft.unique right.isText_text)

/-! ## Values that are read -/

theorem Json.Number.isSome_reread? (number : Number) : number.reread?.isSome := by
  cases number with
  | integer _ _ => rfl
  | real value =>
      rw [reread?, Option.isSome_map]
      exact value.isSome_reread?

theorem Members.isSome_reread? {members : Members} {levels : Nat}
    (shallow : members.depth ≤ levels) : (members.reread? levels).isSome := by
  have stands : members.entries.value?.isSome := by
    rw [Entries.isSome_value?_iff]
    intro literal member
    rcases members.exists_number literal member with ⟨number, rfl⟩
    rw [number.number?_literal]
    exact number.isSome_reread?
  rcases Option.isSome_iff_exists.mp stands with ⟨read, isRead⟩
  rw [members.reread?_eq_some_iff.mpr ⟨shallow, isRead⟩]
  rfl

theorem Json.eq_of_reread?_iff {value read : Json} {levels : Nat} (shallow : value.depth ≤ levels)
    (reread : value.reread? levels = some read) :
    read = value ↔ ∀ real ∈ value.reals, real.ReadsBack := by
  have same := value.reread?_eq_self_iff levels
  rw [reread, Option.some.injEq, and_iff_right shallow] at same
  exact same

theorem Json.kind_of_reread? {value read : Json} {levels : Nat}
    (reread : value.reread? levels = some read) : read.kind = value.kind := by
  cases value with
  | null | boolean _ | string _ =>
      cases reread
      rfl
  | number number =>
      rcases Option.map_eq_some_iff.mp reread with ⟨again, _, same⟩
      rw [← same]
      rfl
  | array elements | object members =>
      cases levels with
      | zero => cases reread
      | succ levels =>
          rcases Option.map_eq_some_iff.mp reread with ⟨again, _, same⟩
          rw [← same]
          rfl

theorem Members.get?_of_reread? (key : String) {members read : Members} {levels : Nat}
    (reread : members.reread? levels = some read) :
    (members.get? key).map (fun value => value.reread? levels) = (read.get? key).map some := by
  induction members using Members.toList.induct generalizing read with
  | case1 =>
      cases reread
      rfl
  | case2 other value rest induction =>
      rcases Option.bind_eq_some_iff.mp reread with ⟨first, firstRead, others⟩
      rcases Option.map_eq_some_iff.mp others with ⟨others, othersRead, same⟩
      rw [← same, Members.get?, Members.get?]
      split
      · rw [Option.map_some, Option.map_some, firstRead]
      · exact induction othersRead

end Relay
