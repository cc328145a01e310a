import Relay.Config.Environment
import Relay.Proofs.Config.Assignment

namespace Relay.Config

/-! Settings from the environment. Where every variable of the configuration names a setting,
and no two of them the same one, each variable decides its own setting and no other, and
the order of the variables is of no account. -/

def Setting.variableName (setting : Setting) : String :=
  "wsrelay_" ++ setting.part.name ++ "__" ++ setting.key

namespace Environment

variable {environment : List (String × String)}

def lowered (name : String) : String := String.ofList (name.toList.map lowerCharacter)

def isOwn (name : String) : Bool := "wsrelay_".toList.isPrefixOf (lowered name).toList

def text? (setting : Setting) (environment : List (String × String)) : Option String :=
  (environment.find? fun binding => lowered binding.1 = setting.variableName).map Prod.snd

/-- Whether the variables that belong to the configuration name settings, and no two the
same one. -/
structure NamesSettings (environment : List (String × String)) : Prop where
  named : ∀ binding ∈ environment, isOwn binding.1 = true →
    ∃ setting : Setting, lowered binding.1 = setting.variableName
  distinct : ((environment.filter fun binding => isOwn binding.1).map
    fun binding => lowered binding.1).Nodup

/-! ## Names -/

theorem place?_of_named {name : String} {setting : Setting}
    (named : lowered name = setting.variableName) : place? name = some setting.place := by
  have letters : name.toList.map lowerCharacter = setting.variableName.toList := by
    rw [← named, lowered, String.toList_ofList]
  rw [place?, letters]
  cases setting <;> decide +kernel

theorem isOwn_of_named {name : String} {setting : Setting}
    (named : lowered name = setting.variableName) : isOwn name = true := by
  rw [isOwn, named]
  cases setting <;> decide +kernel

theorem isOwn_of_place? {name : String} {place : List Tree.Step}
    (isPlace : place? name = some place) : isOwn name = true := by
  have start : (namePrefix.toList ++ ['_']).map lowerCharacter = "wsrelay_".toList := by
    decide +kernel
  rcases Option.map_eq_some_iff.mp isPlace with ⟨rest, isDropped, _⟩
  rw [start, Text.dropWord] at isDropped
  split at isDropped
  · rename_i begins
    have letters : (lowered name).toList = name.toList.map lowerCharacter :=
      String.toList_ofList
    rw [isOwn, letters]
    exact begins
  · cases isDropped

theorem NamesSettings.place?_iff (names : NamesSettings environment)
    {binding : String × String} (member : binding ∈ environment) (setting : Setting) :
    place? binding.1 = some setting.place ↔ lowered binding.1 = setting.variableName := by
  constructor
  · intro isPlace
    rcases names.named binding member (isOwn_of_place? isPlace) with ⟨other, named⟩
    rw [place?_of_named named, Option.some_inj, Setting.place_inj] at isPlace
    rw [named, isPlace]
  · exact place?_of_named

theorem NamesSettings.exists_place (names : NamesSettings environment)
    {binding : String × String} (member : binding ∈ environment) {place : List Tree.Step}
    (isPlace : place? binding.1 = some place) : ∃ setting : Setting, place = setting.place := by
  rcases names.named binding member (isOwn_of_place? isPlace) with ⟨setting, named⟩
  rw [place?_of_named named, Option.some_inj] at isPlace
  exact ⟨setting, isPlace.symm⟩

/-! ## The layer -/

def places (environment : List (String × String)) : List (List Tree.Step × String) :=
  environment.filterMap fun binding => (place? binding.1).map fun place => (place, binding.2)

theorem NamesSettings.distinct_places (names : NamesSettings environment) :
    ((places environment).map Prod.fst).Nodup := by
  have distinct := names.distinct
  rw [List.Nodup, List.pairwise_map, List.pairwise_filter] at distinct
  rw [List.Nodup, List.pairwise_map, places, List.pairwise_filterMap]
  refine distinct.imp_of_mem fun {first second} isFirst isSecond different => ?_
  intro assignment isAssigned other isOther samePlace
  rcases Option.map_eq_some_iff.mp isAssigned with ⟨place, isPlace, rfl⟩
  rcases Option.map_eq_some_iff.mp isOther with ⟨otherPlace, isOtherPlace, rfl⟩
  cases samePlace
  rcases names.exists_place isFirst isPlace with ⟨setting, rfl⟩
  apply different (isOwn_of_place? isPlace) (isOwn_of_place? isOtherPlace)
  rw [(names.place?_iff isFirst setting).mp isPlace,
    (names.place?_iff isSecond setting).mp isOtherPlace]

theorem latest_of_distinct {assignments : List (List Tree.Step × String)}
    (distinct : (assignments.map Prod.fst).Nodup) : latest assignments = assignments := by
  induction assignments with
  | nil => rfl
  | cons assignment rest induction =>
      rcases List.nodup_cons.mp distinct with ⟨fresh, distinctRest⟩
      have noOther : rest.any (fun other => other.1 = assignment.1) = false := by
        rw [List.any_eq_false]
        intro other member isSame
        apply fresh
        rw [← of_decide_eq_true isSame]
        exact List.mem_map_of_mem member
      have rest? : latest rest = rest := induction distinctRest
      rw [latest] at rest? ⊢
      rw [List.foldr_cons, rest?]
      exact if_neg (by rw [noOther]; exact Bool.false_ne_true)

theorem NamesSettings.assignments_layer (names : NamesSettings environment) :
    (layer environment).assignments = (places environment).map fun assignment =>
      (assignment.1, .scalar (some origin) (scalarOf assignment.2)) := by
  change (latest (places environment)).map _ = _
  rw [latest_of_distinct names.distinct_places]

theorem NamesSettings.named_layer (names : NamesSettings environment) :
    ∀ assignment ∈ (layer environment).assignments,
      ∃ setting : Setting, assignment.1 = setting.place := by
  rw [names.assignments_layer]
  intro assignment member
  rcases List.mem_map.mp member with ⟨named, isNamed, rfl⟩
  rcases List.mem_filterMap.mp isNamed with ⟨binding, isBinding, isAssigned⟩
  rcases Option.map_eq_some_iff.mp isAssigned with ⟨place, isPlace, rfl⟩
  exact names.exists_place isBinding isPlace

theorem NamesSettings.hasSections_onto (names : NamesSettings environment) {root : Tree}
    (sections : root.entries.HasSections) :
    ((layer environment).onto root).entries.HasSections :=
  Layer.hasSections_onto names.named_layer sections

theorem NamesSettings.tail {binding : String × String}
    (names : NamesSettings (binding :: environment)) : NamesSettings environment where
  named other member := names.named other (List.mem_cons_of_mem binding member)
  distinct := names.distinct.sublist
    (((List.sublist_cons_self binding environment).filter _).map _)

theorem NamesSettings.find?_places (names : NamesSettings environment) (setting : Setting) :
    ((places environment).find? fun assignment => assignment.1 = setting.place) =
      (text? setting environment).map fun text => (setting.place, text) := by
  induction environment with
  | nil => rfl
  | cons binding rest induction =>
      have place?_iff := names.place?_iff List.mem_cons_self setting
      have others := induction names.tail
      rw [places] at others ⊢
      rw [text?] at others ⊢
      rw [List.filterMap_cons, List.find?_cons]
      by_cases isNamed : lowered binding.1 = setting.variableName
      · rw [place?_iff.mpr isNamed, decide_eq_true isNamed]
        simp
      · rw [decide_eq_false isNamed]
        cases isPlace : place? binding.1 with
        | none => exact others
        | some place =>
            have different : place ≠ setting.place := fun same =>
              isNamed (place?_iff.mp (same ▸ isPlace))
            simpa [different] using others

/-- A setting has the value that its variable looks like, or else the one it had. -/
theorem NamesSettings.valueOf_onto (names : NamesSettings environment) (root : Tree)
    (setting : Setting) :
    ((layer environment).onto root).valueOf setting =
      match text? setting environment with
      | some text => .scalar (some origin) (scalarOf text)
      | none => root.valueOf setting := by
  have distinct : ((layer environment).assignments.map Prod.fst).Nodup := by
    rw [names.assignments_layer, List.map_map]
    exact names.distinct_places
  refine (Layer.valueOf_onto names.named_layer distinct setting).trans ?_
  simp only [names.assignments_layer, List.find?_map, Function.comp_def, names.find?_places]
  cases text? setting environment <;> rfl

/-! ## Order -/

theorem NamesSettings.of_perm {other : List (String × String)} (names : NamesSettings environment)
    (same : environment.Perm other) : NamesSettings other where
  named binding member := names.named binding (same.mem_iff.mpr member)
  distinct := ((same.filter _).map _).nodup_iff.mp names.distinct

theorem NamesSettings.text?_eq_some_iff (names : NamesSettings environment) (setting : Setting)
    (text : String) :
    text? setting environment = some text ↔
      ∃ binding ∈ environment, lowered binding.1 = setting.variableName ∧ binding.2 = text := by
  constructor
  · intro isText
    rcases Option.map_eq_some_iff.mp isText with ⟨binding, found, isValue⟩
    have isNamed := List.find?_some found
    exact ⟨binding, List.mem_of_find?_eq_some found, of_decide_eq_true isNamed, isValue⟩
  · rintro ⟨binding, member, isNamed, rfl⟩
    have isFound : (environment.find? fun binding =>
        lowered binding.1 = setting.variableName).isSome := by
      rw [List.find?_isSome]
      exact ⟨binding, member, decide_eq_true isNamed⟩
    rcases Option.isSome_iff_exists.mp isFound with ⟨other, found⟩
    have isOtherNamed := List.find?_some found
    have otherNamed := of_decide_eq_true isOtherNamed
    have same : other = binding := by
      apply List.inj_on_of_nodup_map names.distinct
      · exact List.mem_filter.mpr ⟨List.mem_of_find?_eq_some found, isOwn_of_named otherNamed⟩
      · exact List.mem_filter.mpr ⟨member, isOwn_of_named isNamed⟩
      · rw [otherNamed, isNamed]
    rw [text?, found, same]
    rfl

theorem NamesSettings.text?_of_perm {other : List (String × String)}
    (names : NamesSettings environment) (same : environment.Perm other) (setting : Setting) :
    text? setting environment = text? setting other := by
  apply Option.ext
  intro text
  rw [names.text?_eq_some_iff, (names.of_perm same).text?_eq_some_iff]
  simp only [same.mem_iff]

end Environment

end Relay.Config
