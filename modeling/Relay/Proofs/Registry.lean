import Mathlib.Data.Set.Card
import Relay.Proofs.Hub.Posting

namespace Relay

/-! The registry as a table from names to connections. A name stands for at most one
connection, so the table says all there is to know about who takes part; the order of the
members is of no account. -/

namespace Registry

def handle? (id : ConnectionId) (registry : Registry) : Option Connection :=
  registry.members.find? fun member => member.id = id

section Table

variable {id : ConnectionId} {registry : Registry}

theorem id_of_handle? {connection : Connection}
    (found : registry.handle? id = some connection) : connection.id = id := by
  simpa using List.find?_some found

theorem contains_eq (id : ConnectionId) (registry : Registry) :
    registry.contains id = (registry.handle? id).isSome :=
  List.isSome_find?.symm

theorem mem_members_iff {connection : Connection} :
    connection ∈ registry.members ↔ registry.handle? connection.id = some connection := by
  constructor
  · intro member
    have present : registry.contains connection.id = true :=
      contains_iff.mpr (List.mem_map_of_mem member)
    rw [contains_eq] at present
    rcases Option.isSome_iff_exists.mp present with ⟨other, found⟩
    have same : other = connection :=
      List.inj_on_of_nodup_map registry.distinct (List.mem_of_find?_eq_some found) member
        (id_of_handle? found)
    rw [found, same]
  · exact List.mem_of_find?_eq_some

theorem nodup_members (registry : Registry) : registry.members.Nodup :=
  .of_map Connection.id registry.distinct

/-- Registries that agree on every name have the same members. -/
theorem perm_members {other : Registry}
    (same : ∀ id, registry.handle? id = other.handle? id) :
    registry.members.Perm other.members := by
  apply (List.perm_ext_iff_of_nodup registry.nodup_members other.nodup_members).mpr
  intro connection
  rw [mem_members_iff, mem_members_iff, same]

theorem isEmpty_iff : registry.isEmpty = true ↔ ∀ id, registry.handle? id = none := by
  rw [isEmpty, List.isEmpty_iff]
  constructor
  · intro nobody id
    rw [handle?, nobody]
    rfl
  · intro nobody
    apply List.eq_nil_iff_forall_not_mem.mpr
    intro connection member
    rw [mem_members_iff, nobody] at member
    cases member

theorem countP_members (kind : Connection → Bool) (registry : Registry) :
    registry.members.countP kind =
      {id | ∃ connection, registry.handle? id = some connection ∧ kind connection}.ncard := by
  have distinct : ((registry.members.filter kind).map Connection.id).Nodup :=
    registry.distinct.sublist (List.filter_sublist.map _)
  have names : {id | ∃ connection, registry.handle? id = some connection ∧ kind connection} =
      ((registry.members.filter kind).map Connection.id).toFinset := by
    ext id
    simp only [Set.mem_ofPred_eq, List.coe_toFinset, List.mem_map, List.mem_filter]
    constructor
    · rintro ⟨connection, found, isKind⟩
      have sameName := id_of_handle? found
      exact ⟨connection, ⟨mem_members_iff.mpr (sameName.symm ▸ found), isKind⟩, sameName⟩
    · rintro ⟨connection, ⟨member, isKind⟩, rfl⟩
      exact ⟨connection, mem_members_iff.mp member, isKind⟩
  rw [names, Set.ncard_coe_finset, List.toFinset_card_of_nodup distinct, List.length_map,
    List.countP_eq_length_filter]

end Table

/-! ## Changes -/

theorem handle?_register (id : ConnectionId) (connection : Connection) (registry : Registry) :
    (registry.register connection).handle? id =
      if connection.id = id then some ((registry.handle? id).getD connection)
      else registry.handle? id := by
  cases present : registry.contains connection.id with
  | true =>
      rw [register_of_contains present]
      split
      · rename_i same
        rw [contains_eq, same] at present
        rcases Option.isSome_iff_exists.mp present with ⟨other, found⟩
        rw [found]
        rfl
      · rfl
  | false =>
      rw [contains_eq, Option.isSome_eq_false_iff, Option.isNone_iff_eq_none] at present
      have absent : registry.contains connection.id = false := by rw [contains_eq, present]; rfl
      rw [handle?, members_register_of_absent absent, List.find?_append]
      split
      · rename_i same
        subst same
        have nobody : registry.members.find? (fun member => member.id = connection.id) = none :=
          present
        rw [nobody, present]
        simp
      · rename_i different
        simp [different, handle?]

theorem handle?_unregister (id other : ConnectionId) (registry : Registry) :
    (registry.unregister other).handle? id =
      if other = id then none else registry.handle? id := by
  rw [handle?, unregister, List.find?_filter]
  split
  · rename_i same
    apply List.find?_eq_none.mpr
    intro member _ found
    simp [same] at found
  · rename_i different
    unfold handle?
    congr 1
    funext member
    by_cases same : member.id = id
    · simp [same, Ne.symm different]
    · simp [same]

theorem contains_register {id : ConnectionId} (connection : Connection) (registry : Registry) :
    (registry.register connection).contains id =
      (connection.id = id || registry.contains id) := by
  rw [contains_eq, handle?_register, contains_eq]
  split
  · rename_i same
    rw [decide_eq_true same]
    rfl
  · rename_i different
    rw [decide_eq_false different, Bool.false_or]

theorem contains_unregister {id : ConnectionId} (other : ConnectionId) (registry : Registry) :
    (registry.unregister other).contains id = (registry.contains id && other ≠ id) := by
  rw [contains_eq, handle?_unregister, contains_eq]
  split
  · rename_i same
    rw [decide_eq_false (not_not_intro same), Bool.and_false]
    rfl
  · rename_i different
    rw [decide_eq_true different, Bool.and_true]

theorem contains_unregister_self (id : ConnectionId) (registry : Registry) :
    (registry.unregister id).contains id = false := by
  rw [contains_unregister, decide_eq_false (not_not_intro rfl), Bool.and_false]

theorem unregister_of_absent {id : ConnectionId} {registry : Registry}
    (absent : registry.contains id = false) : registry.unregister id = registry := by
  have everybody : registry.members.filter (fun member => member.id ≠ id) =
      registry.members := by
    apply List.filter_eq_self.mpr
    intro member isMember
    apply decide_eq_true
    intro same
    have present : registry.contains member.id = true :=
      contains_iff.mpr (List.mem_map_of_mem isMember)
    rw [same, absent] at present
    cases present
  cases registry
  simp only [unregister, everybody]

end Registry

end Relay
