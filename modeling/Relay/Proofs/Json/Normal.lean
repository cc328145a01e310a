import Relay.Json

namespace Relay

/-! Normal values: at every level the keys of the members increase, so that no
key occurs twice. `normalize` gives a normal value and changes none that is
normal already. -/

mutual
def Json.IsNormal : Json → Prop
  | .array elements => elements.IsNormal
  | .object members => members.IsNormal
  | .null | .boolean _ | .number _ | .string _ => True

def Elements.IsNormal : Elements → Prop
  | .nil => True
  | .cons head tail => head.IsNormal ∧ tail.IsNormal

def Members.IsNormal : Members → Prop
  | .nil => True
  | .cons key value rest =>
      value.IsNormal ∧ (∀ other ∈ rest.toList.map Prod.fst, key < other) ∧ rest.IsNormal
end

mutual
def Json.decideIsNormal : (value : Json) → Decidable value.IsNormal
  | .array elements => elements.decideIsNormal
  | .object members => members.decideIsNormal
  | .null | .boolean _ | .number _ | .string _ => isTrue trivial

def Elements.decideIsNormal : (elements : Elements) → Decidable elements.IsNormal
  | .nil => isTrue trivial
  | .cons head tail =>
      have := head.decideIsNormal
      have := tail.decideIsNormal
      inferInstanceAs (Decidable (_ ∧ _))

def Members.decideIsNormal : (members : Members) → Decidable members.IsNormal
  | .nil => isTrue trivial
  | .cons _ value rest =>
      have := value.decideIsNormal
      have := rest.decideIsNormal
      inferInstanceAs (Decidable (_ ∧ _ ∧ _))
end

instance (value : Json) : Decidable value.IsNormal := value.decideIsNormal

instance (members : Members) : Decidable members.IsNormal := members.decideIsNormal

namespace Members

/-! ## Insertion -/

theorem mem_keys_insert {key other : String} {value : Json} {members : Members}
    (member : other ∈ (members.insert key value).toList.map Prod.fst) :
    other = key ∨ other ∈ members.toList.map Prod.fst := by
  induction members using Members.toList.induct with
  | case1 =>
      left
      simpa [insert, toList] using member
  | case2 first old rest induction =>
      rw [insert] at member
      split at member
      · simpa [toList] using member
      · split at member
        · rename_i same
          subst same
          right
          simpa [toList] using member
        · simp only [toList, List.map_cons, List.mem_cons] at member ⊢
          rcases member with isFirst | later
          · exact .inr (.inl isFirst)
          · rcases induction later with isNew | isOld
            · exact .inl isNew
            · exact .inr (.inr isOld)

theorem isNormal_insert {key : String} {value : Json} (normalValue : value.IsNormal)
    {members : Members} (normal : members.IsNormal) :
    (members.insert key value).IsNormal := by
  induction members using Members.toList.induct with
  | case1 =>
      refine ⟨normalValue, ?_, trivial⟩
      intro other member
      cases member
  | case2 first old rest induction =>
      rcases normal with ⟨normalOld, increasing, normalRest⟩
      rw [insert]
      split
      · rename_i before
        refine ⟨normalValue, ?_, normalOld, increasing, normalRest⟩
        intro other member
        rcases List.mem_cons.mp member with isFirst | later
        · rw [isFirst]
          exact before
        · exact String.lt_trans before (increasing other later)
      · rename_i notBefore
        split
        · rename_i same
          subst same
          exact ⟨normalValue, increasing, normalRest⟩
        · rename_i different
          refine ⟨normalOld, ?_, induction normalRest⟩
          intro other member
          rcases mem_keys_insert member with isNew | isOld
          · rw [isNew]
            exact Std.lt_of_le_of_ne (String.not_lt.mp notBefore) (Ne.symm different)
          · exact increasing other isOld

theorem insert_of_greatest {key : String} (value : Json) {members : Members}
    (greatest : ∀ other ∈ members.toList.map Prod.fst, other < key) :
    (members.insert key value).toList = members.toList ++ [(key, value)] := by
  induction members using Members.toList.induct with
  | case1 => rfl
  | case2 first old rest induction =>
      have before : first < key := greatest first List.mem_cons_self
      have notAfter : ¬key < first := fun after =>
        String.lt_irrefl key (String.lt_trans after before)
      have different : key ≠ first := fun same => by
        subst same
        exact notAfter before
      rw [insert, if_neg notAfter, if_neg different, toList, toList,
        induction fun other member => greatest other (List.mem_cons_of_mem _ member)]
      rfl

theorem isNormal_of_get? {key : String} {value : Json} {members : Members}
    (normal : members.IsNormal) (found : members.get? key = some value) :
    value.IsNormal := by
  induction members using Members.toList.induct with
  | case1 => cases found
  | case2 first old rest induction =>
      rw [get?] at found
      split at found
      · cases found
        exact normal.1
      · exact induction normal.2.2 found

end Members

/-! ## Normalization -/

mutual
theorem Json.isNormal_normalize : (value : Json) → value.normalize.IsNormal
  | .array elements => elements.isNormal_normalize
  | .object members => members.isNormal_normalizeInto trivial
  | .null | .boolean _ | .number _ | .string _ => trivial

theorem Elements.isNormal_normalize : (elements : Elements) → elements.normalize.IsNormal
  | .nil => trivial
  | .cons head tail => ⟨head.isNormal_normalize, tail.isNormal_normalize⟩

theorem Members.isNormal_normalizeInto : (members : Members) → {normal : Members} →
    normal.IsNormal → (members.normalizeInto normal).IsNormal
  | .nil, _, isNormal => isNormal
  | .cons _ value rest, _, isNormal =>
      rest.isNormal_normalizeInto (Members.isNormal_insert value.isNormal_normalize isNormal)
end

mutual
theorem Json.normalize_of_isNormal : (value : Json) → value.IsNormal →
    value.normalize = value
  | .array elements, normal => by
      rw [Json.normalize, elements.normalize_of_isNormal normal]
  | .object members, normal => by
      have same : (members.normalizeInto .nil).toList = [] ++ members.toList :=
        members.toList_normalizeInto normal nofun
      rw [Json.normalize, ← (members.normalizeInto .nil).ofList_toList, same]
      exact congrArg Json.object members.ofList_toList
  | .null, _ | .boolean _, _ | .number _, _ | .string _, _ => by rw [Json.normalize]

theorem Elements.normalize_of_isNormal : (elements : Elements) → elements.IsNormal →
    elements.normalize = elements
  | .nil, _ => rfl
  | .cons head tail, normal => by
      rw [Elements.normalize, head.normalize_of_isNormal normal.1,
        tail.normalize_of_isNormal normal.2]

theorem Members.toList_normalizeInto : (members : Members) → members.IsNormal →
    {before : Members} →
    (∀ first ∈ before.toList.map Prod.fst, ∀ other ∈ members.toList.map Prod.fst,
      first < other) →
    (members.normalizeInto before).toList = before.toList ++ members.toList
  | .nil, _, _, _ => by simp [Members.normalizeInto, Members.toList]
  | .cons key value rest, ⟨normalValue, increasing, normalRest⟩, before, separate => by
      have inserted := Members.insert_of_greatest value fun other member =>
        separate other member key List.mem_cons_self
      rw [Members.normalizeInto, value.normalize_of_isNormal normalValue,
        rest.toList_normalizeInto normalRest, inserted, List.append_assoc]
      · rfl
      · intro first member other later
        rw [inserted, List.map_append, List.mem_append] at member
        rcases member with isOld | isNew
        · exact separate first isOld other (List.mem_cons_of_mem _ later)
        · rw [List.mem_singleton.mp isNew]
          exact increasing other later
end

end Relay
