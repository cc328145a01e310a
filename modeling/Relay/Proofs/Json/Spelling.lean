import Relay.Proofs.Json.Meaning

namespace Relay

/-! What a text says apart from its spelling: numbers by their literals, strings by their
characters, and objects by the value of the last member with each key. Blanks, escapes, the
order of members and members that are overridden are of no account. Values that are read from
phrases with one content are normalized to one value. -/

namespace Json

inductive Content where
  | null
  | boolean (value : Bool)
  | number (literal : Literal)
  | string (value : String)
  | array (elements : List Content)
  | object (members : String → Option Content)

mutual
def Phrase.content : Phrase → Content
  | .null => .null
  | .boolean value => .boolean value
  | .number literal => .number literal
  | .string value => .string value
  | .array elements => .array elements.contents
  | .object members => .object members.contentOf

def Phrases.contents : Phrases → List Content
  | .nil => []
  | .cons head tail => head.content :: tail.contents

def Entries.contentOf : Entries → String → Option Content
  | .nil, _ => none
  | .cons other value rest, key =>
      (rest.contentOf key).or (if other = key then some value.content else none)
end

namespace Entries

theorem contentOf_eq (key : String) (members : Entries) :
    members.contentOf key = (members.last? key).map Phrase.content :=
  eq_map_last? (fun _ => rfl) (fun _ _ _ _ => rfl) key members

theorem isSome_contentOf {key : String} {members : Entries} (member : key ∈ members.keys) :
    (members.contentOf key).isSome := by
  induction members using Entries.keys.induct with
  | case1 => cases member
  | case2 other value rest induction =>
      rw [contentOf, Option.isSome_or, Bool.or_eq_true]
      rcases List.mem_cons.mp member with isFirst | isLater
      · right
        rw [if_pos isFirst.symm]
        rfl
      · exact .inl (induction isLater)

theorem contentOf_swap {key other : String} (different : key ≠ other) (value next : Phrase)
    (rest : Entries) :
    (cons key value (cons other next rest)).contentOf =
      (cons other next (cons key value rest)).contentOf := by
  funext wanted
  simp only [contentOf]
  cases rest.contentOf wanted with
  | some _ => rfl
  | none =>
      by_cases isKey : key = wanted
      · subst isKey
        simp [Ne.symm different]
      · simp [isKey]

theorem contentOf_overridden {key : String} {rest : Entries} (later : key ∈ rest.keys)
    (value : Phrase) : (cons key value rest).contentOf = rest.contentOf := by
  funext wanted
  rw [contentOf]
  by_cases isKey : key = wanted
  · subst isKey
    rcases Option.isSome_iff_exists.mp (isSome_contentOf later) with ⟨content, found⟩
    rw [found, Option.some_or]
  · simp [isKey]

theorem contentOf_cons {key : String} {value other : Phrase} {left right : Entries}
    (sameValue : value.content = other.content) (same : left.contentOf = right.contentOf) :
    (cons key value left).contentOf = (cons key other right).contentOf := by
  funext wanted
  rw [contentOf, contentOf, same, sameValue]

end Entries

end Json

open Json

/-! ## Normal objects -/

namespace Members

theorem get?_eq_none {key : String} {members : Members}
    (absent : ∀ other ∈ members.toList.map Prod.fst, key < other) :
    members.get? key = none := by
  induction members using Members.toList.induct with
  | case1 => rfl
  | case2 other value rest induction =>
      have isOther : ¬other = key := by
        intro same
        have before := absent other List.mem_cons_self
        rw [same] at before
        exact String.lt_irrefl key before
      rw [get?, if_neg isOther]
      exact induction fun next member => absent next (List.mem_cons_of_mem _ member)

theorem not_lt_of_get? {key other : String} {value next : Json} {left right : Members}
    (normal : (cons other next right).IsNormal)
    (same : ∀ wanted, (cons key value left).get? wanted = (cons other next right).get? wanted) :
    ¬key < other := by
  intro before
  have absent : (cons other next right).get? key = none := by
    apply get?_eq_none
    intro later member
    rcases List.mem_cons.mp member with isFirst | isLater
    · rw [isFirst]
      exact before
    · exact String.lt_trans before (normal.2.1 later isLater)
  have found := same key
  rw [absent, get?, if_pos rfl] at found
  cases found

/-- A normal object is determined by the values of its keys. -/
theorem eq_of_get? {left right : Members} (normal : left.IsNormal) (otherNormal : right.IsNormal)
    (same : ∀ key, left.get? key = right.get? key) : left = right := by
  induction left using Members.toList.induct generalizing right with
  | case1 =>
      cases right with
      | nil => rfl
      | cons key value rest =>
          have found := same key
          rw [get?, get?, if_pos rfl] at found
          cases found
  | case2 key value rest induction =>
      cases right with
      | nil =>
          have found := same key
          rw [get?, get?, if_pos rfl] at found
          cases found
      | cons other next others =>
          have sameKey : key = other := String.le_antisymm
            (String.not_lt.mp (not_lt_of_get? normal fun wanted => (same wanted).symm))
            (String.not_lt.mp (not_lt_of_get? otherNormal same))
          subst sameKey
          have sameValue := same key
          rw [get?, get?, if_pos rfl, if_pos rfl, Option.some.injEq] at sameValue
          have sameRest : ∀ wanted, rest.get? wanted = others.get? wanted := by
            intro wanted
            have found := same wanted
            rw [get?, get?] at found
            by_cases isKey : key = wanted
            · subst isKey
              rw [get?_eq_none normal.2.1, get?_eq_none otherNormal.2.1]
            · rwa [if_neg isKey, if_neg isKey] at found
          rw [sameValue, induction normal.2.2 otherNormal.2.2 sameRest]

end Members

/-! ## Values -/

mutual
/-- The value that is read from a phrase is determined by what the phrase says. -/
theorem Json.Phrase.normalize_of_content : (phrase : Phrase) → {other : Phrase} →
    {value read : Json} → phrase.content = other.content → phrase.value? = some value →
    other.value? = some read → value.normalize = read.normalize
  | .null, other, _, _, same, stands, otherStands
  | .boolean _, other, _, _, same, stands, otherStands
  | .number _, other, _, _, same, stands, otherStands
  | .string _, other, _, _, same, stands, otherStands => by
      cases other <;> simp_all [Phrase.content]
  | .array elements, other, _, _, same, stands, otherStands => by
      cases other with
      | array others =>
          rw [Phrase.content, Phrase.content, Content.array.injEq] at same
          rcases Option.map_eq_some_iff.mp stands with ⟨values, valuesStand, isArray⟩
          rcases Option.map_eq_some_iff.mp otherStands with ⟨reads, readsStand, isOther⟩
          rw [← isArray, ← isOther, Json.normalize, Json.normalize,
            elements.normalize_of_contents same valuesStand readsStand]
      | null | boolean _ | number _ | string _ | object _ => simp [Phrase.content] at same
  | .object members, other, _, _, same, stands, otherStands => by
      cases other with
      | object others =>
          rw [Phrase.content, Phrase.content, Content.object.injEq] at same
          rcases Option.map_eq_some_iff.mp stands with ⟨values, valuesStand, isObject⟩
          rcases Option.map_eq_some_iff.mp otherStands with ⟨reads, readsStand, isOther⟩
          rw [← isObject, ← isOther, Json.normalize, Json.normalize]
          congr 1
          have normal : (values.normalizeInto .nil).IsNormal :=
            values.isNormal_normalizeInto trivial
          have otherNormal : (reads.normalizeInto .nil).IsNormal :=
            reads.isNormal_normalizeInto trivial
          -- The values are compared key by key; each of them stands somewhere among the members.
          apply Members.eq_of_get? normal otherNormal
          intro key
          have sameKey := congrFun same key
          rw [Entries.contentOf_eq, Entries.contentOf_eq] at sameKey
          rw [Members.get?_normalizeInto, Members.get?_normalizeInto]
          cases found : members.last? key with
          | none =>
              have written := Entries.last?_of_value? key valuesStand
              have otherWritten := Entries.last?_of_value? key readsStand
              rw [found, Option.map_none, eq_comm, Option.map_eq_none_iff] at sameKey
              rw [found, Option.map_none, eq_comm, Option.map_eq_none_iff] at written
              rw [sameKey, Option.map_none, eq_comm, Option.map_eq_none_iff] at otherWritten
              rw [written, otherWritten]
          | some phrase =>
              rw [found, Option.map_some, eq_comm, Option.map_eq_some_iff] at sameKey
              rcases sameKey with ⟨next, otherFound, sameContent⟩
              rcases Entries.exists_last?_of_value? valuesStand found
                with ⟨value, valueStands, isLast⟩
              rcases Entries.exists_last?_of_value? readsStand otherFound
                with ⟨read, readStands, isOtherLast⟩
              rw [isLast, isOtherLast, Option.map_some, Option.map_some,
                members.normalize_of_contentOf found sameContent.symm valueStands readStands]
      | null | boolean _ | number _ | string _ | array _ => simp [Phrase.content] at same

theorem Json.Phrases.normalize_of_contents : (elements : Phrases) → {others : Phrases} →
    {values reads : Elements} → elements.contents = others.contents →
    elements.value? = some values → others.value? = some reads →
    values.normalize = reads.normalize
  | .nil, others, _, _, same, stands, otherStands => by
      cases others with
      | nil =>
          cases stands
          cases otherStands
          rfl
      | cons head tail => simp [Phrases.contents] at same
  | .cons head tail, others, _, _, same, stands, otherStands => by
      cases others with
      | nil => simp [Phrases.contents] at same
      | cons otherHead otherTail =>
          rw [Phrases.contents, Phrases.contents, List.cons.injEq] at same
          rcases Phrases.value?_cons_eq_some_iff.mp stands
            with ⟨first, rest, firstStands, restStands, isCons⟩
          rcases Phrases.value?_cons_eq_some_iff.mp otherStands
            with ⟨otherFirst, otherRest, otherFirstStands, otherRestStands, isOther⟩
          rw [isCons, isOther, Elements.normalize, Elements.normalize,
            head.normalize_of_content same.1 firstStands otherFirstStands,
            tail.normalize_of_contents same.2 restStands otherRestStands]

theorem Json.Entries.normalize_of_contentOf : (members : Entries) → {key : String} →
    {phrase other : Phrase} → {value read : Json} → members.last? key = some phrase →
    phrase.content = other.content → phrase.value? = some value →
    other.value? = some read → value.normalize = read.normalize
  | .nil, _, _, _, _, _, found, _, _, _ => by cases found
  | .cons _ first rest, _, _, _, _, _, found, same, stands, otherStands => by
      rcases Option.or_eq_some_iff.mp found with later | ⟨_, here⟩
      · exact rest.normalize_of_contentOf later same stands otherStands
      · split at here
        · cases here
          exact first.normalize_of_content same stands otherStands
        · cases here
end

end Relay
