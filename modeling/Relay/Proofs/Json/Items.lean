import Mathlib.Data.List.Forall2
import Relay.Proofs.Json.Tokens

namespace Relay.Json

/-! What stands between brackets. The elements of an array and the members of an object are
joined by the same rule, which is read and shown to be unambiguous here for items of any
kind. -/

open Grammar

/-! ## First characters -/

def startsNumber (character : Char) : Bool := character.isDigit || character = '-'

def startsScalar (character : Char) : Bool :=
  startsNumber character || character = 'n' || character = 't' || character = 'f' ||
    character = '"'

def startsValue (character : Char) : Bool :=
  startsScalar character || character = '[' || character = '\x7b'

theorem not_isBlank_of_startsValue {character : Char}
    (starts : startsValue character = true) : isBlank character = false := by
  cases blank : isBlank character with
  | false => rfl
  | true =>
      simp only [isBlank, Bool.or_eq_true, decide_eq_true_eq] at blank
      rcases blank with ((isBlank | isTab) | isLine) | isReturn <;> subst character <;>
        exact absurd starts (by decide)

theorem skipBlanks_of_startsValue {character : Char}
    (starts : startsValue character = true) (text : List Char) :
    skipBlanks (character :: text) = character :: text := by
  rw [skipBlanks, List.dropWhile_cons, not_isBlank_of_startsValue starts]
  rfl

/-! ## Blanks in front of a mark -/

theorem Grammar.Blanks.isSuffix {text rest : List Char} (derived : Blanks text rest) :
    rest <:+ text := by
  induction derived with
  | none => exact List.suffix_refl _
  | more _ _ induction => exact induction.trans (List.suffix_cons _ _)

theorem Grammar.Blanks.isSuffix_tail {text rest : List Char} {mark : Char}
    (derived : Blanks text (mark :: rest)) : rest <:+ text :=
  (List.suffix_cons mark rest).trans derived.isSuffix

theorem skipBlanks_eq_cons_iff {mark : Char} (visible : isBlank mark = false)
    {text rest : List Char} : skipBlanks text = mark :: rest ↔ Blanks text (mark :: rest) := by
  constructor
  · intro same
    rw [← same]
    exact blanks_skipBlanks text
  · intro blanks
    rw [skipBlanks_of_blanks blanks, skipBlanks, List.dropWhile_cons, visible]
    rfl

theorem Grammar.Blanks.unique {text left right : List Char} {first second : Char}
    (firstVisible : isBlank first = false) (secondVisible : isBlank second = false)
    (leftBlanks : Blanks text (first :: left)) (rightBlanks : Blanks text (second :: right)) :
    first = second ∧ left = right := by
  have skipped := (skipBlanks_eq_cons_iff firstVisible).mpr leftBlanks
  rw [(skipBlanks_eq_cons_iff secondVisible).mpr rightBlanks] at skipped
  cases skipped
  exact ⟨rfl, rfl⟩

theorem endsNumber_of_blanks {text rest : List Char} (blanks : Blanks text rest)
    (ends : EndsNumber rest) : EndsNumber text := by
  cases blanks with
  | none => exact ends
  | more blank _ =>
      apply stops_cons
      simp only [List.mem_cons, List.not_mem_nil, or_false] at blank
      rcases blank with same | same | same | same <;> subst same <;> rfl

/-! ## Items -/

section Items

variable {α β : Type}

/-- Items with a comma between any two, at least one, and a closing character. -/
inductive Separated (item : α → List Char → List Char → Prop) (close : Char) :
    List α → List Char → List Char → Prop
  | last {head text stop rest} : item head text stop → Blanks stop (close :: rest) →
      Separated item close [head] text rest
  | next {head tail text stop others rest} : item head text stop →
      Blanks stop (',' :: others) → Separated item close tail others rest →
      Separated item close (head :: tail) text rest

def Enclosed (item : α → List Char → List Char → Prop) (close : Char) (values : List α)
    (text rest : List Char) : Prop :=
  values = [] ∧ Blanks text (close :: rest) ∨ Separated item close values text rest

structure Closes (close : Char) : Prop where
  noComma : close ≠ ','
  noValue : startsValue close = false
  visible : isBlank close = false
  stops : continuesNumber close = false

theorem closes_bracket : Closes ']' := ⟨by decide, rfl, rfl, rfl⟩

theorem closes_brace : Closes '\x7d' := ⟨by decide, rfl, rfl, rfl⟩

/-- Every item starts like a value and ends in front of what is left. -/
structure AreItems (item : α → List Char → List Char → Prop) : Prop where
  starts : ∀ {value text rest}, item value text rest →
    ∃ first others, startsValue first = true ∧ Blanks text (first :: others)
  isSuffix : ∀ {value text rest}, item value text rest → rest <:+ text

variable {item : α → List Char → List Char → Prop} {close : Char} {values : List α}
variable {text rest : List Char}

theorem AreItems.exists {stands : α → β → Prop} (areItems : AreItems item) :
    AreItems fun result text rest => ∃ value, item value text rest ∧ stands value result where
  starts := fun ⟨_, derived, _⟩ => areItems.starts derived
  isSuffix := fun ⟨_, derived, _⟩ => areItems.isSuffix derived

theorem Separated.starts (areItems : AreItems item)
    (derived : Separated item close values text rest) :
    ∃ first others, startsValue first = true ∧ Blanks text (first :: others) := by
  cases derived with
  | last head _ => exact areItems.starts head
  | next head _ _ => exact areItems.starts head

theorem Closes.not_separated (closes : Closes close) (areItems : AreItems item)
    {others : List Char} (closed : Blanks text (close :: others)) :
    ¬Separated item close values text rest := by
  intro derived
  rcases derived.starts areItems with ⟨first, others, isValue, blanks⟩
  have same := (closed.unique closes.visible (not_isBlank_of_startsValue isValue) blanks).1
  rw [← same, closes.noValue] at isValue
  cases isValue

/-! ## Reading items -/

theorem length_lt_of_isSuffix {stop : List Char} {mark : Char} (left : stop <:+ text)
    (blanks : Blanks stop (mark :: rest)) : rest.length < text.length := by
  have shorter := (blanks.isSuffix.trans left).length_le
  rw [List.length_cons] at shorter
  omega

section Readers

variable {reader : Reader α}

theorem readItems_succ_eq_some_iff (closes : Closes close) {bound : Nat} :
    readItems reader close (bound + 1) text = some (values, rest) ↔
      ∃ first stop, reader text = some (first, stop) ∧
        (values = [first] ∧ Blanks stop (close :: rest) ∨
          ∃ others left, values = first :: others ∧ Blanks stop (',' :: left) ∧
            readItems reader close bound left = some (others, rest)) := by
  have commaVisible : isBlank ',' = false := rfl
  simp only [← skipBlanks_eq_cons_iff closes.visible, ← skipBlanks_eq_cons_iff commaVisible]
  constructor
  · intro read
    rw [readItems] at read
    split at read
    · cases read
    · rename_i first stop firstRead
      refine ⟨first, stop, firstRead, ?_⟩
      split at read
      · cases read
      · rename_i mark left skipped
        split at read
        · rename_i isComma
          rcases Option.map_eq_some_iff.mp read with ⟨⟨others, after⟩, othersRead, same⟩
          cases same
          exact .inr ⟨others, left, rfl, by rw [skipped, isComma], othersRead⟩
        · split at read
          · rename_i isClose
            cases read
            exact .inl ⟨rfl, by rw [skipped, isClose]⟩
          · cases read
  · rintro ⟨first, stop, firstRead, ⟨single, skipped⟩ | ⟨others, left, several, skipped, read⟩⟩
    · simp [readItems, firstRead, skipped, closes.noComma, single]
    · simp [readItems, firstRead, skipped, read, several]

/-- Every item shortens what is left, so that the length of the text is bound enough. -/
theorem readItems_eq_some_iff (closes : Closes close) (areItems : AreItems item)
    (recognizes : reader.Recognizes item EndsNumber) {bound : Nat}
    (enough : text.length < bound) :
    readItems reader close bound text = some (values, rest) ↔
      Separated item close values text rest := by
  induction bound generalizing text values with
  | zero => exact absurd enough (Nat.not_lt_zero _)
  | succ bound induction =>
      rw [readItems_succ_eq_some_iff closes]
      constructor
      · rintro ⟨first, stop, read, ⟨rfl, blanks⟩ | ⟨others, left, rfl, blanks, othersRead⟩⟩
        · exact .last (recognizes.sound read) blanks
        · have derived := recognizes.sound read
          have shorter := length_lt_of_isSuffix (areItems.isSuffix derived) blanks
          exact .next derived blanks ((induction (by omega)).mp othersRead)
      · intro derived
        cases derived with
        | last head blanks =>
            have ends := endsNumber_of_blanks blanks (stops_cons closes.stops _)
            exact ⟨_, _, recognizes.complete head ends, .inl ⟨rfl, blanks⟩⟩
        | next head blanks tail =>
            have ends := endsNumber_of_blanks blanks (stops_cons rfl _)
            have shorter := length_lt_of_isSuffix (areItems.isSuffix head) blanks
            exact ⟨_, _, recognizes.complete head ends,
              .inr ⟨_, _, rfl, blanks, (induction (by omega)).mpr tail⟩⟩

theorem readEnclosed_eq_some_iff (closes : Closes close) (areItems : AreItems item)
    (recognizes : reader.Recognizes item EndsNumber) :
    readEnclosed reader close text = some (values, rest) ↔
      Enclosed item close values text rest := by
  have items : readItems reader close (text.length + 1) text = some (values, rest) ↔ _ :=
    readItems_eq_some_iff closes areItems recognizes (Nat.lt_succ_self _)
  rw [readEnclosed, Enclosed, ← skipBlanks_eq_cons_iff closes.visible]
  constructor
  · intro read
    split at read
    · cases read
    · rename_i mark left skipped
      split at read
      · rename_i isClose
        cases read
        exact .inl ⟨rfl, by rw [skipped, isClose]⟩
      · exact .inr (items.mp read)
  · rintro (⟨rfl, skipped⟩ | derived)
    · simp [skipped]
    · rcases derived.starts areItems with ⟨first, others, isValue, blanks⟩
      have goesOn : first ≠ close := by
        rintro rfl
        rw [closes.noValue] at isValue
        cases isValue
      have skipped := (skipBlanks_eq_cons_iff (not_isBlank_of_startsValue isValue)).mpr blanks
      simp [skipped, goesOn, items.mpr derived]

end Readers

/-! ## Unambiguity -/

/-- A value is the only one that is derived from its texts, and with one rest only. -/
def IsAlone (item : α → List Char → List Char → Prop) (value : α) : Prop :=
  ∀ {other : α} {text rest otherRest : List Char}, item value text rest →
    item other text otherRest → EndsNumber rest → EndsNumber otherRest →
    value = other ∧ rest = otherRest

theorem Separated.unique (closes : Closes close) {others : List α} {otherRest : List Char}
    (derived : Separated item close values text rest)
    (alone : ∀ value ∈ values, IsAlone item value)
    (otherDerived : Separated item close others text otherRest) :
    values = others ∧ rest = otherRest := by
  have ends : ∀ {mark : Char} {stop left : List Char}, Blanks stop (mark :: left) →
      continuesNumber mark = false → EndsNumber stop :=
    fun blanks stops => endsNumber_of_blanks blanks (stops_cons stops _)
  -- The first items are the same one, and the mark behind it says whether there are others.
  induction derived generalizing others with
  | last head blanks =>
      rcases List.forall_mem_cons.mp alone with ⟨isAlone, _⟩
      cases otherDerived with
      | last otherHead otherBlanks =>
          rcases isAlone head otherHead (ends blanks closes.stops)
            (ends otherBlanks closes.stops) with ⟨rfl, rfl⟩
          exact ⟨rfl, (blanks.unique closes.visible closes.visible otherBlanks).2⟩
      | next otherHead otherBlanks _ =>
          rcases isAlone head otherHead (ends blanks closes.stops) (ends otherBlanks rfl)
            with ⟨_, rfl⟩
          exact absurd (blanks.unique closes.visible rfl otherBlanks).1 closes.noComma
  | next head blanks _ induction =>
      rcases List.forall_mem_cons.mp alone with ⟨isAlone, tailAlone⟩
      cases otherDerived with
      | last otherHead otherBlanks =>
          rcases isAlone head otherHead (ends blanks rfl) (ends otherBlanks closes.stops)
            with ⟨_, rfl⟩
          exact absurd (otherBlanks.unique closes.visible rfl blanks).1 closes.noComma
      | next otherHead otherBlanks otherTail =>
          rcases isAlone head otherHead (ends blanks rfl) (ends otherBlanks rfl)
            with ⟨rfl, rfl⟩
          rcases blanks.unique rfl rfl otherBlanks with ⟨_, rfl⟩
          rcases induction tailAlone otherTail with ⟨rfl, sameRest⟩
          exact ⟨rfl, sameRest⟩

theorem Enclosed.unique (closes : Closes close) (areItems : AreItems item) {others : List α}
    {otherRest : List Char} (derived : Enclosed item close values text rest)
    (alone : ∀ value ∈ values, IsAlone item value)
    (otherDerived : Enclosed item close others text otherRest) :
    values = others ∧ rest = otherRest := by
  rcases derived with ⟨rfl, blanks⟩ | items
  · rcases otherDerived with ⟨rfl, otherBlanks⟩ | otherItems
    · exact ⟨rfl, (blanks.unique closes.visible closes.visible otherBlanks).2⟩
    · exact absurd otherItems (closes.not_separated areItems blanks)
  · rcases otherDerived with ⟨_, otherBlanks⟩ | otherItems
    · exact absurd items (closes.not_separated areItems otherBlanks)
    · exact items.unique closes alone otherItems

/-! ## What items stand for -/

/-- Items that stand for some values are derived exactly if they stand for them one by one. -/
theorem separated_exists_iff {stands : α → β → Prop} {results : List β} :
    Separated (fun result text rest => ∃ value, item value text rest ∧ stands value result)
        close results text rest ↔
      ∃ values, Separated item close values text rest ∧
        List.Forall₂ stands values results := by
  constructor
  · intro derived
    induction derived with
    | last head blanks =>
        rcases head with ⟨value, derived, isResult⟩
        exact ⟨[value], .last derived blanks, .cons isResult .nil⟩
    | next head blanks _ induction =>
        rcases head with ⟨value, derived, isResult⟩
        rcases induction with ⟨values, tail, areResults⟩
        exact ⟨value :: values, .next derived blanks tail, .cons isResult areResults⟩
  · rintro ⟨values, derived, areResults⟩
    induction derived generalizing results with
    | last head blanks =>
        rcases areResults with _ | ⟨isResult, ⟨⟩⟩
        exact .last ⟨_, head, isResult⟩ blanks
    | next head blanks _ induction =>
        rcases areResults with _ | ⟨isResult, areResults⟩
        exact .next ⟨_, head, isResult⟩ blanks (induction areResults)

theorem enclosed_exists_iff {stands : α → β → Prop} {results : List β} :
    Enclosed (fun result text rest => ∃ value, item value text rest ∧ stands value result)
        close results text rest ↔
      ∃ values, Enclosed item close values text rest ∧ List.Forall₂ stands values results := by
  simp only [Enclosed, separated_exists_iff]
  constructor
  · rintro (⟨rfl, blanks⟩ | ⟨values, derived, areResults⟩)
    · exact ⟨[], .inl ⟨rfl, blanks⟩, .nil⟩
    · exact ⟨values, .inr derived, areResults⟩
  · rintro ⟨values, ⟨rfl, blanks⟩ | derived, areResults⟩
    · exact .inl ⟨List.forall₂_nil_left_iff.mp areResults, blanks⟩
    · exact .inr ⟨values, derived, areResults⟩

end Items

/-! ## Elements and members -/

namespace Phrases

def ofList : List Phrase → Phrases
  | [] => .nil
  | head :: tail => .cons head (ofList tail)

def toList : Phrases → List Phrase
  | .nil => []
  | .cons head tail => head :: tail.toList

theorem toList_ofList : (elements : List Phrase) → (ofList elements).toList = elements
  | [] => rfl
  | head :: tail => by rw [ofList, toList, toList_ofList tail]

theorem ofList_toList : (elements : Phrases) → ofList elements.toList = elements
  | .nil => rfl
  | .cons head tail => by rw [toList, ofList, ofList_toList tail]

theorem toList_injective : Function.Injective toList :=
  Function.LeftInverse.injective ofList_toList

theorem toList_surjective : Function.Surjective toList :=
  Function.RightInverse.surjective toList_ofList

end Phrases

namespace Entries

def ofList : List (String × Phrase) → Entries
  | [] => .nil
  | (key, value) :: rest => .cons key value (ofList rest)

def toList : Entries → List (String × Phrase)
  | .nil => []
  | .cons key value rest => (key, value) :: rest.toList

theorem toList_ofList : (members : List (String × Phrase)) → (ofList members).toList = members
  | [] => rfl
  | (key, value) :: rest => by rw [ofList, toList, toList_ofList rest]

theorem ofList_toList : (members : Entries) → ofList members.toList = members
  | .nil => rfl
  | .cons key value rest => by rw [toList, ofList, ofList_toList rest]

theorem toList_injective : Function.Injective toList :=
  Function.LeftInverse.injective ofList_toList

theorem toList_surjective : Function.Surjective toList :=
  Function.RightInverse.surjective toList_ofList

end Entries

namespace Grammar

def Member (member : String × Phrase) : List Char → List Char → Prop :=
  Field member.1 member.2

section Lists

variable {text rest : List Char}

theorem items_iff {elements : Phrases} :
    Items elements text rest ↔ Separated Spaced ']' elements.toList text rest := by
  constructor
  · intro derived
    induction elements using Phrases.toList.induct generalizing text with
    | case1 => cases derived
    | case2 head tail induction =>
        cases derived with
        | last head blanks => exact .last head blanks
        | next head blanks tail => exact .next head blanks (induction tail)
  · intro derived
    induction elements using Phrases.toList.induct generalizing text with
    | case1 => cases derived
    | case2 head tail induction =>
        cases tail with
        | nil =>
            rcases derived with ⟨head, blanks⟩ | ⟨_, _, ⟨⟩⟩
            exact .last head blanks
        | cons next others =>
            rcases derived with _ | ⟨head, blanks, tail⟩
            exact .next head blanks (induction tail)

theorem fields_iff {members : Entries} :
    Fields members text rest ↔ Separated Member '\x7d' members.toList text rest := by
  constructor
  · intro derived
    induction members using Entries.toList.induct generalizing text with
    | case1 => cases derived
    | case2 key value tail induction =>
        cases derived with
        | last head blanks => exact .last head blanks
        | next head blanks tail => exact .next head blanks (induction tail)
  · intro derived
    induction members using Entries.toList.induct generalizing text with
    | case1 => cases derived
    | case2 key value tail induction =>
        cases tail with
        | nil =>
            rcases derived with ⟨head, blanks⟩ | ⟨_, _, ⟨⟩⟩
            exact .last head blanks
        | cons next other others =>
            rcases derived with _ | ⟨head, blanks, tail⟩
            exact .next head blanks (induction tail)

end Lists

end Grammar

end Relay.Json
