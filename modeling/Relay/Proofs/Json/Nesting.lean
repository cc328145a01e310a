import Relay.Json

namespace Relay

/-! How deep values are nested. Normalization makes no value deeper, and a member is
less deep than its object. -/

namespace Members

theorem depth_insert_le (key : String) (value : Json) (members : Members) :
    (members.insert key value).depth ≤ max value.depth members.depth := by
  induction members using Members.toList.induct with
  | case1 => exact Nat.le_refl _
  | case2 first old rest induction =>
      rw [insert]
      split
      · exact Nat.le_refl _
      · split
        · simp only [depth]
          omega
        · simp only [depth]
          omega

theorem depth_le_of_get? {key : String} {value : Json} {members : Members}
    (found : members.get? key = some value) : value.depth ≤ members.depth := by
  induction members using Members.toList.induct with
  | case1 => cases found
  | case2 first old rest induction =>
      rw [get?] at found
      split at found
      · cases found
        exact Nat.le_max_left _ _
      · exact Nat.le_trans (induction found) (Nat.le_max_right _ _)

end Members

mutual
theorem Json.depth_normalize_le : (value : Json) → value.normalize.depth ≤ value.depth
  | .array elements => Nat.succ_le_succ elements.depth_normalize_le
  | .object members => by
      have inserted := members.depth_normalizeInto_le .nil
      rw [Json.normalize, Json.depth, Json.depth]
      simp only [Members.depth] at inserted
      omega
  | .null | .boolean _ | .number _ | .string _ => Nat.le_refl 0

theorem Elements.depth_normalize_le : (elements : Elements) →
    elements.normalize.depth ≤ elements.depth
  | .nil => Nat.le_refl 0
  | .cons head tail => by
      have first := head.depth_normalize_le
      have others := tail.depth_normalize_le
      simp only [Elements.normalize, Elements.depth]
      omega

theorem Members.depth_normalizeInto_le : (members : Members) → (normal : Members) →
    (members.normalizeInto normal).depth ≤ max members.depth normal.depth
  | .nil, _ => Nat.le_max_right _ _
  | .cons key value rest, normal => by
      have first := value.depth_normalize_le
      have inserted := normal.depth_insert_le key value.normalize
      have others := rest.depth_normalizeInto_le (normal.insert key value.normalize)
      simp only [Members.normalizeInto, Members.depth]
      omega
end

end Relay
