import Mathlib.Data.List.TakeWhile
import Relay.Proofs.Config.Entries
import Relay.Proofs.Config.Reading

namespace Relay.Config

/-! Putting layers over each other, seen from one setting. A table that is assigned gives its
values to its own keys, a value that is assigned to the place of one setting changes no other,
and a part of a configuration that is a table remains one. -/

/-! ## One table -/

@[simp] theorem Tree.entries_modifyKey (key : String) (change : Tree → Tree) (tree : Tree) :
    (tree.modifyKey key change).entries = tree.entries.modify key change := by
  cases tree <;> rfl

theorem Tree.exists_modifyKey (key : String) (change : Tree → Tree) (tree : Tree) :
    ∃ origin, tree.modifyKey key change = .table origin (tree.entries.modify key change) := by
  cases tree with
  | scalar origin value => exact ⟨none, rfl⟩
  | array origin elements => exact ⟨none, rfl⟩
  | table origin entries => exact ⟨origin, rfl⟩

theorem Branches.exists_assignInto (branches : Branches) (origin : Option String)
    (entries : Branches) :
    ∃ newOrigin inner,
      branches.assignInto (.table origin entries) = .table newOrigin inner := by
  induction branches using keys.induct generalizing origin entries with
  | case1 => exact ⟨origin, entries, rfl⟩
  | case2 key value rest induction => exact induction origin _

theorem Branches.get?_assignInto {branches : Branches} (distinct : branches.IsDistinct)
    (table : Tree) (key : String) :
    (branches.assignInto table).entries.get? key =
      match branches.get? key with
      | some value => some (value.assign ((table.entries.get? key).getD .nothing))
      | none => table.entries.get? key := by
  induction branches using keys.induct generalizing table with
  | case1 => rfl
  | case2 other value rest induction =>
      rw [assignInto, induction distinct.2.2, get?, Tree.entries_modifyKey]
      by_cases same : other = key
      · have noMore : rest.get? key = none := by
          rw [← same, get?_eq_none_iff]
          exact distinct.1
        rw [noMore, if_pos same, ← same]
        exact get?_modify_self _ _ _
      · rw [if_neg same, get?_modify_other (Ne.symm same)]

theorem Tree.get?_entries_assign {value : Tree} (distinct : value.IsDistinct) (key : String) :
    (value.assign .nothing).entries.get? key =
      (value.entries.get? key).map fun inner => inner.assign .nothing := by
  cases value with
  | scalar origin value => rfl
  | array origin elements => rfl
  | table origin entries =>
      refine (Branches.get?_assignInto distinct (.table none .nil) key).trans ?_
      change _ = (entries.get? key).map _
      cases entries.get? key <;> rfl

/-! ## One setting -/

/-- Changing the value of one setting leaves the others as they are. -/
theorem Tree.valueOf_modifyAt (change : Tree → Tree) (changed setting : Setting) (root : Tree) :
    (root.modifyAt change changed.place).valueOf setting =
      if changed = setting then change (root.valueOf setting) else root.valueOf setting := by
  have within (found? : Option Tree) (key : String) :
      (found?.bind fun inner => inner.entries.get? key).getD .nothing =
        ((found?.getD .nothing).entries.get? key).getD .nothing := by
    cases found? <;> rfl
  have changedRoot : (root.modifyAt change changed.place).entries =
      root.entries.modify changed.part.name fun old => old.modifyKey changed.key change :=
    root.entries_modifyKey _ _
  rw [valueOf, valueOf, Branches.valueOf?, Branches.valueOf?, within, within, changedRoot]
  by_cases sameSection : setting.part.name = changed.part.name
  · rw [sameSection, Branches.get?_modify_self, Option.getD_some, entries_modifyKey]
    by_cases same : changed = setting
    · rw [if_pos same, ← same, Branches.get?_modify_self, Option.getD_some]
    · have differentKey : setting.key ≠ changed.key := fun sameKey =>
        same (Setting.key_inj.mp sameKey.symm)
      rw [if_neg same, Branches.get?_modify_other differentKey]
  · have different : changed ≠ setting := fun same => sameSection (by rw [same])
    rw [if_neg different, Branches.get?_modify_other sameSection]

theorem Tree.hasSections_modifyAt {root : Tree} (sections : root.entries.HasSections)
    (change : Tree → Tree) (changed : Setting) :
    (root.modifyAt change changed.place).entries.HasSections := by
  have changedRoot : (root.modifyAt change changed.place).entries =
      root.entries.modify changed.part.name fun old => old.modifyKey changed.key change :=
    root.entries_modifyKey _ _
  intro part
  rw [changedRoot]
  by_cases same : part.name = changed.part.name
  · rw [same, Branches.get?_modify_self]
    rcases exists_modifyKey changed.key change
      ((root.entries.get? changed.part.name).getD .nothing) with ⟨origin, isTable⟩
    exact .inr ⟨origin, _, congrArg some isTable⟩
  · rw [Branches.get?_modify_other same]
    exact sections part

/-! ## A layer that names settings -/

namespace Layer

variable {assignments : List (List Tree.Step × Tree)} {root : Tree}

theorem onto_cons (place : List Tree.Step) (value : Tree)
    (rest : List (List Tree.Step × Tree)) (root : Tree) :
    Layer.onto ⟨(place, value) :: rest⟩ root =
      Layer.onto ⟨rest⟩ (root.modifyAt value.assign place) := rfl

theorem hasSections_onto
    (named : ∀ assignment ∈ assignments, ∃ setting : Setting, assignment.1 = setting.place)
    (sections : root.entries.HasSections) :
    (Layer.onto ⟨assignments⟩ root).entries.HasSections := by
  induction assignments generalizing root with
  | nil => exact sections
  | cons assignment rest induction =>
      rcases assignment with ⟨place, value⟩
      rcases List.forall_mem_cons.mp named with ⟨⟨setting, isPlace⟩, others⟩
      have isSetting : place = setting.place := isPlace
      rw [onto_cons, isSetting]
      exact induction others (Tree.hasSections_modifyAt sections value.assign setting)

theorem valueOf_onto
    (named : ∀ assignment ∈ assignments, ∃ setting : Setting, assignment.1 = setting.place)
    (distinct : (assignments.map Prod.fst).Nodup) (setting : Setting) :
    (Layer.onto ⟨assignments⟩ root).valueOf setting =
      match assignments.find? fun assignment => assignment.1 = setting.place with
      | some assignment => assignment.2.assign (root.valueOf setting)
      | none => root.valueOf setting := by
  induction assignments generalizing root with
  | nil => rfl
  | cons assignment rest induction =>
      rcases assignment with ⟨place, value⟩
      rcases List.forall_mem_cons.mp named with ⟨⟨changed, isPlace⟩, others⟩
      rcases List.nodup_cons.mp distinct with ⟨fresh, distinctRest⟩
      have changedPlace : place = changed.place := isPlace
      rw [onto_cons, induction others distinctRest, List.find?_cons, changedPlace,
        Tree.valueOf_modifyAt]
      by_cases same : changed = setting
      -- What was assigned here stays, because no later assignment has this place.
      · have noMore : rest.find? (fun assignment => assignment.1 = setting.place) = none := by
          rw [List.find?_eq_none]
          intro other member isOther
          apply fresh
          rw [isPlace, same, ← of_decide_eq_true isOther]
          exact List.mem_map_of_mem member
        rw [noMore, if_pos same, decide_eq_true (congrArg Setting.place same)]
      · have isOther : changed.place ≠ setting.place := fun samePlace =>
          same (Setting.place_inj.mp samePlace)
        rw [if_neg same, decide_eq_false isOther]

end Layer

/-! ## A layer from a file -/

/-- Whether a key is a name of its own, without points and brackets. -/
def Path.IsPlain (key : String) : Prop := key ≠ "" ∧ key.toList.all isKeyCharacter = true

instance (key : String) : Decidable (Path.IsPlain key) := inferInstanceAs (Decidable (_ ∧ _))

theorem Path.ofName_of_isPlain {key : String} (plain : Path.IsPlain key) :
    Path.ofName key = [.key key] := by
  rcases plain with ⟨nonempty, all⟩
  have isTaken : key.toList.takeWhile isKeyCharacter = key.toList := by
    rw [List.takeWhile_eq_self_iff]
    exact List.all_eq_true.mp all
  have nothingLeft : key.toList.dropWhile isKeyCharacter = [] := by
    rw [List.dropWhile_eq_nil_iff]
    exact List.all_eq_true.mp all
  have isRead : readKey key.toList = some (key, []) := by
    rw [readKey, isTaken, nothingLeft]
    split
    · rename_i isEmpty
      exact absurd (String.toList_eq_nil_iff.mp isEmpty) nonempty
    · rw [String.ofList_toList]
  rw [ofName, parse?, isRead]
  rfl

theorem Layer.onto_assignments {entries : Branches}
    (plain : ∀ key ∈ entries.keys, Path.IsPlain key) (root : Tree) :
    Layer.onto ⟨entries.assignments⟩ root = entries.assignInto root := by
  induction entries using Branches.keys.induct generalizing root with
  | case1 => rfl
  | case2 key value rest induction =>
      rcases List.forall_mem_cons.mp plain with ⟨isPlain, others⟩
      rw [Branches.assignments, onto_cons, Path.ofName_of_isPlain isPlain, induction others,
        Branches.assignInto]
      rfl

/-- The layer of a file gives to each setting what the file says under its key. -/
theorem Layer.valueOf_onto_assignments {entries : Branches} (distinct : entries.IsDistinct)
    (plain : ∀ key ∈ entries.keys, Path.IsPlain key) (setting : Setting) :
    (Layer.onto ⟨entries.assignments⟩ (.table none .nil)).valueOf setting =
      ((entries.valueOf? setting).map fun value => value.assign .nothing).getD .nothing := by
  have assigned := Branches.get?_assignInto distinct (.table none .nil) setting.part.name
  rw [onto_assignments plain, Tree.valueOf, Branches.valueOf?, Branches.valueOf?, assigned]
  cases found : entries.get? setting.part.name with
  | none => rfl
  | some inner =>
      have innerDistinct := Branches.isDistinct_of_get? distinct found
      exact congrArg (Option.getD · Tree.nothing)
        (Tree.get?_entries_assign innerDistinct setting.key)

theorem Layer.hasSections_onto_assignments {entries : Branches} (distinct : entries.IsDistinct)
    (plain : ∀ key ∈ entries.keys, Path.IsPlain key) (sections : entries.HasSections) :
    (Layer.onto ⟨entries.assignments⟩ (.table none .nil)).entries.HasSections := by
  intro part
  have assigned := Branches.get?_assignInto distinct (.table none .nil) part.name
  rw [onto_assignments plain, assigned]
  rcases sections part with missing | ⟨origin, inner, found⟩
  · left
    rw [missing]
    rfl
  · right
    rcases inner.exists_assignInto none .nil with ⟨newOrigin, result, isTable⟩
    refine ⟨newOrigin, result, ?_⟩
    rw [found]
    exact congrArg some isTable

end Relay.Config
