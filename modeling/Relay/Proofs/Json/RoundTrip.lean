import Relay.Proofs.Json.Normal
import Relay.Proofs.Json.Writing

namespace Relay

/-! Written values are read back. `reread?` says for every value what its text is
read as: nothing if it is nested too deeply, and otherwise the same value with
the binary numbers that the reader makes of theirs. -/

mutual
def Json.reread? : Json → Nat → Option Json
  | .null, _ => some .null
  | .boolean value, _ => some (.boolean value)
  | .number value, _ => value.reread?.map .number
  | .string value, _ => some (.string value)
  | .array _, 0 => none
  | .array elements, levels + 1 => (elements.reread? levels).map .array
  | .object _, 0 => none
  | .object members, levels + 1 => (members.reread? levels).map .object

def Elements.reread? : Elements → Nat → Option Elements
  | .nil, _ => some .nil
  | .cons head tail, levels =>
      (head.reread? levels).bind fun head => (tail.reread? levels).map (.cons head)

def Members.reread? : Members → Nat → Option Members
  | .nil, _ => some .nil
  | .cons key value rest, levels =>
      (value.reread? levels).bind fun value => (rest.reread? levels).map (.cons key value)
end

mutual
def Json.reals : Json → List Double
  | .number (.real value) => [value]
  | .array elements => elements.reals
  | .object members => members.reals
  | .null | .boolean _ | .string _ | .number (.integer _ _) => []

def Elements.reals : Elements → List Double
  | .nil => []
  | .cons head tail => head.reals ++ tail.reals

def Members.reals : Members → List Double
  | .nil => []
  | .cons _ value rest => value.reals ++ rest.reals
end

open Json

/-! ## What is read -/

mutual
theorem Json.reread?_eq_some_iff : (value : Json) → {levels : Nat} → {read : Json} →
    (value.reread? levels = some read ↔
      value.depth ≤ levels ∧ value.phrase.value? = some read)
  | .null, _, _ | .boolean _, _, _ | .string _, _, _ => by
      simp [Json.reread?, Json.depth, Json.phrase, Phrase.value?]
  | .number value, _, _ => by
      simp [Json.reread?, Json.depth, Json.phrase, Phrase.value?, value.number?_literal]
  | .array _, 0, _ | .object _, 0, _ => by simp [Json.reread?, Json.depth]
  | .array elements, levels + 1, _ => by
      simp [Json.reread?, Json.depth, Json.phrase, Phrase.value?,
        elements.reread?_eq_some_iff, and_assoc]
  | .object members, levels + 1, _ => by
      simp [Json.reread?, Json.depth, Json.phrase, Phrase.value?,
        members.reread?_eq_some_iff, and_assoc]

theorem Elements.reread?_eq_some_iff : (elements : Elements) → {levels : Nat} →
    {read : Elements} → (elements.reread? levels = some read ↔
      elements.depth ≤ levels ∧ elements.phrases.value? = some read)
  | .nil, _, _ => by simp [Elements.reread?, Elements.depth, Elements.phrases, Phrases.value?]
  | .cons head tail, levels, read => by
      rw [Elements.reread?, Elements.phrases, Phrases.value?_cons_eq_some_iff, Elements.depth,
        Nat.max_le]
      simp only [Option.bind_eq_some_iff, Option.map_eq_some_iff, head.reread?_eq_some_iff,
        tail.reread?_eq_some_iff]
      constructor
      · rintro ⟨first, ⟨shallow, stands⟩, others, ⟨tailShallow, tailStands⟩, rfl⟩
        exact ⟨⟨shallow, tailShallow⟩, first, others, stands, tailStands, rfl⟩
      · rintro ⟨⟨shallow, tailShallow⟩, first, others, stands, tailStands, rfl⟩
        exact ⟨first, ⟨shallow, stands⟩, others, ⟨tailShallow, tailStands⟩, rfl⟩

theorem Members.reread?_eq_some_iff : (members : Members) → {levels : Nat} →
    {read : Members} → (members.reread? levels = some read ↔
      members.depth ≤ levels ∧ members.entries.value? = some read)
  | .nil, _, _ => by simp [Members.reread?, Members.depth, Members.entries, Entries.value?]
  | .cons key value rest, levels, read => by
      rw [Members.reread?, Members.entries, Entries.value?_cons_eq_some_iff, Members.depth,
        Nat.max_le]
      simp only [Option.bind_eq_some_iff, Option.map_eq_some_iff, value.reread?_eq_some_iff,
        rest.reread?_eq_some_iff]
      constructor
      · rintro ⟨first, ⟨shallow, stands⟩, others, ⟨restShallow, restStands⟩, rfl⟩
        exact ⟨⟨shallow, restShallow⟩, first, others, stands, restStands, rfl⟩
      · rintro ⟨⟨shallow, restShallow⟩, first, others, stands, restStands, rfl⟩
        exact ⟨first, ⟨shallow, stands⟩, others, ⟨restShallow, restStands⟩, rfl⟩
end

theorem Json.reread?_eq_none {value : Json} {levels : Nat} (deep : levels < value.depth) :
    value.reread? levels = none := by
  rw [Option.eq_none_iff_forall_ne_some]
  intro read reread
  exact absurd (value.reread?_eq_some_iff.mp reread).1 (Nat.not_le.mpr deep)

/-- The text of a value is derived from its phrase only. -/
theorem Json.parse?_text (value : Json) :
    Json.parse? value.text = value.reread? maximalDepth := by
  ext read
  rw [parse?_eq_some_iff, value.reread?_eq_some_iff, ← value.depth_phrase]
  constructor
  · rintro ⟨phrase, derived, stands⟩
    rwa [derived.unique value.isText_text] at stands
  · intro stands
    exact ⟨value.phrase, value.isText_text, stands⟩

mutual
/-- A value is read back exactly if it is not nested too deeply and every binary
number in it is read back. -/
theorem Json.reread?_eq_self_iff : (value : Json) → (levels : Nat) →
    (value.reread? levels = some value ↔
      value.depth ≤ levels ∧ ∀ real ∈ value.reals, real.ReadsBack)
  | .null, levels | .boolean _, levels | .string _, levels
  | .number (.integer _ _), levels => by
      simp [Json.reread?, Json.depth, Json.reals, Number.reread?]
  | .number (.real value), levels => by
      simp only [Json.reread?, Number.reread?, Json.depth, Json.reals, Nat.zero_le, true_and,
        List.forall_mem_singleton, Double.readsBack_iff]
      cases value.reread? <;> simp
  | .array elements, 0 => by simp [Json.reread?, Json.depth]
  | .array elements, levels + 1 => by
      have inner := elements.reread?_eq_self_iff levels
      rw [Json.reread?, Json.depth, Json.reals, Nat.add_le_add_iff_right, ← inner]
      cases elements.reread? levels <;> simp
  | .object members, 0 => by simp [Json.reread?, Json.depth]
  | .object members, levels + 1 => by
      have inner := members.reread?_eq_self_iff levels
      rw [Json.reread?, Json.depth, Json.reals, Nat.add_le_add_iff_right, ← inner]
      cases members.reread? levels <;> simp

theorem Elements.reread?_eq_self_iff : (elements : Elements) → (levels : Nat) →
    (elements.reread? levels = some elements ↔
      elements.depth ≤ levels ∧ ∀ real ∈ elements.reals, real.ReadsBack)
  | .nil, levels => by simp [Elements.reread?, Elements.depth, Elements.reals]
  | .cons head tail, levels => by
      have first := head.reread?_eq_self_iff levels
      have others := tail.reread?_eq_self_iff levels
      have both : (Elements.cons head tail).reread? levels = some (.cons head tail) ↔
          head.reread? levels = some head ∧ tail.reread? levels = some tail := by
        rw [Elements.reread?]
        cases head.reread? levels <;> cases tail.reread? levels <;> simp
      rw [both, first, others, Elements.depth, Elements.reals, Nat.max_le,
        List.forall_mem_append]
      exact and_and_and_comm

theorem Members.reread?_eq_self_iff : (members : Members) → (levels : Nat) →
    (members.reread? levels = some members ↔
      members.depth ≤ levels ∧ ∀ real ∈ members.reals, real.ReadsBack)
  | .nil, levels => by simp [Members.reread?, Members.depth, Members.reals]
  | .cons key value rest, levels => by
      have first := value.reread?_eq_self_iff levels
      have others := rest.reread?_eq_self_iff levels
      have both :
          (Members.cons key value rest).reread? levels = some (.cons key value rest) ↔
            value.reread? levels = some value ∧ rest.reread? levels = some rest := by
        rw [Members.reread?]
        cases value.reread? levels <;> cases rest.reread? levels <;> simp
      rw [both, first, others, Members.depth, Members.reals, Nat.max_le,
        List.forall_mem_append]
      exact and_and_and_comm
end

theorem Members.keys_of_reread? {members read : Members} {levels : Nat}
    (reread : members.reread? levels = some read) :
    read.toList.map Prod.fst = members.toList.map Prod.fst := by
  induction members using Members.toList.induct generalizing read with
  | case1 =>
      cases reread
      rfl
  | case2 key value rest induction =>
      rw [Members.reread?] at reread
      rcases Option.bind_eq_some_iff.mp reread with ⟨first, _, others⟩
      rcases Option.map_eq_some_iff.mp others with ⟨others, othersRead, same⟩
      cases same
      simp only [toList, List.map_cons, induction othersRead]

mutual
theorem Json.isNormal_of_reread? : (value : Json) → {levels : Nat} → {read : Json} →
    value.reread? levels = some read → value.IsNormal → read.IsNormal
  | .null, _, _, reread, _ | .boolean _, _, _, reread, _ | .string _, _, _, reread, _ => by
      cases reread
      trivial
  | .number value, _, _, reread, _ => by
      rcases Option.map_eq_some_iff.mp reread with ⟨number, _, same⟩
      cases same
      trivial
  | .array elements, 0, _, reread, _ => by cases reread
  | .object members, 0, _, reread, _ => by cases reread
  | .array elements, levels + 1, _, reread, normal => by
      rcases Option.map_eq_some_iff.mp reread with ⟨others, othersRead, same⟩
      cases same
      exact elements.isNormal_of_reread? othersRead normal
  | .object members, levels + 1, _, reread, normal => by
      rcases Option.map_eq_some_iff.mp reread with ⟨others, othersRead, same⟩
      cases same
      exact members.isNormal_of_reread? othersRead normal

theorem Elements.isNormal_of_reread? : (elements : Elements) → {levels : Nat} →
    {read : Elements} → elements.reread? levels = some read → elements.IsNormal →
    read.IsNormal
  | .nil, _, _, reread, _ => by
      cases reread
      trivial
  | .cons head tail, levels, _, reread, normal => by
      rcases Option.bind_eq_some_iff.mp reread with ⟨first, firstRead, others⟩
      rcases Option.map_eq_some_iff.mp others with ⟨others, othersRead, same⟩
      cases same
      exact ⟨head.isNormal_of_reread? firstRead normal.1,
        tail.isNormal_of_reread? othersRead normal.2⟩

theorem Members.isNormal_of_reread? : (members : Members) → {levels : Nat} →
    {read : Members} → members.reread? levels = some read → members.IsNormal →
    read.IsNormal
  | .nil, _, _, reread, _ => by
      cases reread
      trivial
  | .cons key value rest, levels, _, reread, normal => by
      rcases Option.bind_eq_some_iff.mp reread with ⟨first, firstRead, others⟩
      rcases Option.map_eq_some_iff.mp others with ⟨others, othersRead, same⟩
      cases same
      refine ⟨value.isNormal_of_reread? firstRead normal.1, ?_,
        rest.isNormal_of_reread? othersRead normal.2.2⟩
      rw [Members.keys_of_reread? othersRead]
      exact normal.2.1
end

end Relay
