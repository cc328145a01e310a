import Mathlib.Data.List.Nodup
import Relay.Toml.Parser

namespace Relay.Toml

/-! A document defines no key twice. The keys of the table that a text describes are
distinct, and so are those of every table inside it. -/

namespace Value

inductive IsDistinct : Value → Prop
  | scalar (value : Scalar) : IsDistinct (.scalar value)
  | array {elements : List Value} (all : ∀ element ∈ elements, IsDistinct element) :
      IsDistinct (.array elements)
  | table {form : Form} {entries : List (String × Value)}
      (distinct : (entries.map Prod.fst).Nodup)
      (all : ∀ entry ∈ entries, IsDistinct entry.2) : IsDistinct (.table form entries)
  | tables {items : List Value} (all : ∀ item ∈ items, IsDistinct item) :
      IsDistinct (.tables items)

theorem isDistinct_emptyTable (form : Form) : (emptyTable form).IsDistinct :=
  .table .nil nofun

theorem IsDistinct.withForm {form : Form} {entries : List (String × Value)}
    (distinct : (Value.table form entries).IsDistinct) (other : Form) :
    (Value.table other entries).IsDistinct := by
  cases distinct with
  | table distinct all => exact .table distinct all

/-! ## Changes -/

/-- Whether a change of one value, if it succeeds, defines no key twice. -/
def Keeps (change : Value → Option Value) : Prop :=
  ∀ {value result : Value}, value.IsDistinct → change value = some result → result.IsDistinct

def KeepsEntry (change : Option Value → Option Value) : Prop :=
  ∀ {existing : Option Value} {result : Value}, (∀ value ∈ existing, value.IsDistinct) →
    change existing = some result → result.IsDistinct

theorem mem_keys_alter {key : String} {change : Option Value → Option Value}
    {entries altered : List (String × Value)} (isAltered : alter key change entries = some altered)
    {other : String} (member : other ∈ altered.map Prod.fst) :
    other = key ∨ other ∈ entries.map Prod.fst := by
  induction entries generalizing altered with
  | nil =>
      rcases Option.map_eq_some_iff.mp isAltered with ⟨value, _, rfl⟩
      exact .inl (List.mem_singleton.mp member)
  | cons entry rest induction =>
      rcases entry with ⟨first, value⟩
      rw [alter] at isAltered
      split at isAltered
      · rename_i same
        rcases Option.map_eq_some_iff.mp isAltered with ⟨value, _, rfl⟩
        rw [same]
        exact .inr member
      · rcases Option.map_eq_some_iff.mp isAltered with ⟨others, areAltered, rfl⟩
        rcases List.mem_cons.mp member with isFirst | isLater
        · exact .inr (List.mem_cons.mpr (.inl isFirst))
        · exact (induction areAltered isLater).imp_right (List.mem_cons_of_mem first)

theorem isDistinct_alter {key : String} {change : Option Value → Option Value}
    (keeps : KeepsEntry change) {form : Form} {entries altered : List (String × Value)}
    (distinct : (Value.table form entries).IsDistinct)
    (isAltered : alter key change entries = some altered) :
    (Value.table form altered).IsDistinct := by
  induction entries generalizing altered with
  | nil =>
      rcases Option.map_eq_some_iff.mp isAltered with ⟨value, isMade, rfl⟩
      have made := keeps (fun value member => absurd member (Option.not_mem_none value)) isMade
      exact .table (List.nodup_singleton _) fun entry member => by
        rw [List.mem_singleton.mp member]
        exact made
  | cons entry rest induction =>
      rcases entry with ⟨first, value⟩
      cases distinct with
      | table distinct all =>
          rcases List.nodup_cons.mp distinct with ⟨fresh, distinctRest⟩
          have allRest : ∀ entry ∈ rest, entry.2.IsDistinct := fun entry member =>
            all entry (List.mem_cons_of_mem _ member)
          rw [alter] at isAltered
          split at isAltered
          · rename_i same
            rcases Option.map_eq_some_iff.mp isAltered with ⟨changed, isChanged, rfl⟩
            have head : changed.IsDistinct := by
              apply keeps _ isChanged
              intro old isOld
              cases isOld
              exact all _ List.mem_cons_self
            exact .table (same ▸ distinct) (List.forall_mem_cons.mpr ⟨head, allRest⟩)
          · rename_i different
            rcases Option.map_eq_some_iff.mp isAltered with ⟨others, areAltered, rfl⟩
            cases induction (.table distinctRest allRest) areAltered with
            | table distinctOthers allOthers =>
                refine .table (List.nodup_cons.mpr ⟨fun member => ?_, distinctOthers⟩)
                  (List.forall_mem_cons.mpr ⟨all _ List.mem_cons_self, allOthers⟩)
                rcases mem_keys_alter areAltered member with isKey | isOther
                · exact different isKey
                · exact fresh isOther

theorem keeps_alter {key : String} {change : Option Value → Option Value}
    (keeps : KeepsEntry change) {form : Form} {entries : List (String × Value)} {result : Value}
    (distinct : (Value.table form entries).IsDistinct)
    (isResult : (alter key change entries).map (.table form) = some result) :
    result.IsDistinct := by
  rcases Option.map_eq_some_iff.mp isResult with ⟨altered, isAltered, rfl⟩
  exact isDistinct_alter keeps distinct isAltered

theorem keeps_descend {change : Value → Option Value} (keeps : Keeps change) (byDots : Bool)
    (keys : List String) : Keeps (descend byDots change keys) := by
  induction keys with
  | nil => exact keeps
  | cons key rest induction =>
      intro value result distinct isResult
      cases value with
      | scalar value => cases isResult
      | array elements => cases isResult
      | tables items => cases isResult
      | table form entries =>
          apply keeps_alter _ distinct isResult
          intro existing inner allExisting isInner
          -- A path leads into a table that is there or made on the way, or into the last of
          -- several tables.
          cases existing with
          | none => exact induction (isDistinct_emptyTable _) isInner
          | some old =>
              have oldDistinct := allExisting old rfl
              cases old with
              | scalar value => cases isInner
              | array elements => cases isInner
              | table inner entries =>
                  dsimp only at isInner
                  split at isInner
                  · cases isInner
                  · exact induction oldDistinct isInner
              | tables items =>
                  cases oldDistinct with
                  | tables all =>
                      rcases Option.bind_eq_some_iff.mp isInner with ⟨last, isLast, isNext⟩
                      rcases Option.map_eq_some_iff.mp isNext with ⟨changed, isChanged, rfl⟩
                      have lastDistinct := all last (List.mem_of_getLast? isLast)
                      refine .tables fun item member => ?_
                      rcases List.mem_append.mp member with isEarlier | isChangedItem
                      · exact all item (List.dropLast_subset items isEarlier)
                      · rw [List.mem_singleton.mp isChangedItem]
                        exact induction lastDistinct isChanged

/-! ## Statements -/

theorem keeps_insertNew {value : Value} (distinct : value.IsDistinct) (key : String) :
    Keeps (insertNew key value) := by
  intro table result tableDistinct isResult
  cases table with
  | scalar value => cases isResult
  | array elements => cases isResult
  | tables items => cases isResult
  | table form entries =>
      apply keeps_alter _ tableDistinct isResult
      intro existing inserted _ isInserted
      dsimp only at isInserted
      split at isInserted
      · cases isInserted
      · cases isInserted
        exact distinct

theorem keeps_insertAt {value : Value} (distinct : value.IsDistinct) (keys : List String) :
    Keeps (insertAt keys value) := by
  intro table result tableDistinct isResult
  rw [insertAt] at isResult
  split at isResult
  · cases isResult
  · rename_i key _
    apply keeps_descend _ true keys.dropLast tableDistinct isResult
    intro target inserted targetDistinct isInserted
    dsimp only at isInserted
    split at isInserted
    · cases isInserted
    · exact keeps_insertNew distinct key targetDistinct isInserted

theorem keeps_descend_alter {start : Option Value → Option Value} (keeps : KeepsEntry start)
    (keys : List String) (key : String) :
    Keeps (descend false (fun
      | .table form entries => (alter key start entries).map (.table form)
      | _ => none) keys) := by
  apply keeps_descend
  intro target result distinct isResult
  cases target with
  | scalar value => cases isResult
  | array elements => cases isResult
  | tables items => cases isResult
  | table form entries => exact keeps_alter keeps distinct isResult

theorem keeps_openTable (keys : List String) : Keeps (openTable keys) := by
  intro table result distinct isResult
  rw [openTable] at isResult
  split at isResult
  · cases isResult
  · apply keeps_descend_alter _ _ _ distinct isResult
    intro existing opened allExisting isOpened
    dsimp only at isOpened
    split at isOpened
    · cases isOpened
      exact isDistinct_emptyTable _
    · rename_i entries
      cases isOpened
      exact (allExisting _ rfl).withForm .header
    · cases isOpened

theorem keeps_openItem (keys : List String) : Keeps (openItem keys) := by
  intro table result distinct isResult
  rw [openItem] at isResult
  split at isResult
  · cases isResult
  · apply keeps_descend_alter _ _ _ distinct isResult
    intro existing opened allExisting isOpened
    dsimp only at isOpened
    split at isOpened
    · cases isOpened
      exact .tables fun item member => by
        rw [List.mem_singleton.mp member]
        exact isDistinct_emptyTable _
    · rename_i items
      cases isOpened
      cases allExisting _ rfl with
      | tables all =>
          refine .tables fun item member => ?_
          rcases List.mem_append.mp member with isEarlier | isNew
          · exact all item isEarlier
          · rw [List.mem_singleton.mp isNew]
            exact isDistinct_emptyTable _
    · cases isOpened

theorem isDistinct_foldl_insertAt {entries : List (List String × Value)}
    (all : ∀ entry ∈ entries, entry.2.IsDistinct) {table? : Option Value}
    (distinct : ∀ table ∈ table?, table.IsDistinct) :
    ∀ result ∈ entries.foldl (fun table? (keys, value) => table?.bind (insertAt keys value)) table?,
      result.IsDistinct := by
  induction entries generalizing table? with
  | nil => exact distinct
  | cons entry rest induction =>
      apply induction fun other member => all other (List.mem_cons_of_mem entry member)
      intro table isTable
      rcases Option.bind_eq_some_iff.mp isTable with ⟨before, isBefore, isInserted⟩
      exact keeps_insertAt (all entry List.mem_cons_self) entry.1 (distinct before isBefore)
        isInserted

theorem isDistinct_ofEntries {entries : List (List String × Value)}
    (all : ∀ entry ∈ entries, entry.2.IsDistinct) {table : Value}
    (isTable : ofEntries entries = some table) : table.IsDistinct := by
  rw [ofEntries] at isTable
  dsimp only at isTable
  split at isTable
  · rename_i form inner isFolded
    cases isTable
    have start : ∀ table ∈ some (emptyTable .header), table.IsDistinct := by
      intro table isStart
      cases isStart
      exact isDistinct_emptyTable .header
    exact (isDistinct_foldl_insertAt all start _ isFolded).withForm .inline
  · cases isTable

end Value

def Statement.IsDistinct : Statement → Prop
  | .entry _ value => value.IsDistinct
  | .header _ | .itemHeader _ => True

theorem isDistinct_assemble {statements : List Statement}
    (all : ∀ statement ∈ statements, statement.IsDistinct) {path : List String}
    {root result : Value} (distinct : root.IsDistinct)
    (isResult : assemble statements path root = some result) : result.IsDistinct := by
  induction statements generalizing path root with
  | nil =>
      cases isResult
      exact distinct
  | cons statement rest induction =>
      have goesOn {path : List String} {root : Value} (distinct : root.IsDistinct)
          (isResult : assemble rest path root = some result) : result.IsDistinct :=
        induction (fun other member => all other (List.mem_cons_of_mem statement member))
          distinct isResult
      have here := all statement List.mem_cons_self
      cases statement with
      | entry keys value =>
          rcases Option.bind_eq_some_iff.mp isResult with ⟨next, isNext, isLater⟩
          exact goesOn (Value.keeps_descend (Value.keeps_insertAt here keys) false path distinct
            isNext) isLater
      | header keys =>
          rcases Option.bind_eq_some_iff.mp isResult with ⟨next, isNext, isLater⟩
          exact goesOn (Value.keeps_openTable keys distinct isNext) isLater
      | itemHeader keys =>
          rcases Option.bind_eq_some_iff.mp isResult with ⟨next, isNext, isLater⟩
          exact goesOn (Value.keeps_openItem keys distinct isNext) isLater

/-! ## Texts -/

theorem forall_mem_of_readItems {α : Type} {item : Reader α} {close : Char} {holds : α → Prop}
    (read : ∀ text value rest, item text = some (value, rest) → holds value)
    {bound : Nat} {text : List Char} {values : List α} {rest : List Char}
    (found : readItems item close bound text = some (values, rest)) :
    ∀ value ∈ values, holds value := by
  induction bound generalizing text values rest with
  | zero => cases found
  | succ bound induction =>
      rw [readItems] at found
      split at found
      · cases found
      · rename_i character afterBlanks _
        split at found
        · cases found
          exact nofun
        · cases isFirst : item (character :: afterBlanks) with
          | none =>
              simp only [isFirst] at found
              cases found
          | some result =>
              rcases result with ⟨first, afterFirst⟩
              have firstHolds := read _ first afterFirst isFirst
              simp only [isFirst] at found
              split at found
              · rcases Option.map_eq_some_iff.mp found with ⟨⟨others, left⟩, othersRead, same⟩
                cases same
                exact List.forall_mem_cons.mpr ⟨firstHolds, induction othersRead⟩
              · split at found
                · cases found
                  exact List.forall_mem_singleton.mpr firstHolds
                · cases found
              · cases found

theorem isDistinct_of_readEntry {value : Reader Value}
    (read : ∀ text found rest, value text = some (found, rest) → found.IsDistinct)
    (text : List Char) (entry : List String × Value) (rest : List Char)
    (found : readEntry value text = some (entry, rest)) : entry.2.IsDistinct := by
  rw [readEntry] at found
  rcases Option.bind_eq_some_iff.mp found with ⟨⟨keys, afterKeys⟩, _, found⟩
  rcases Option.bind_eq_some_iff.mp found with ⟨afterSign, _, found⟩
  rcases Option.bind_eq_some_iff.mp found with ⟨⟨inner, left⟩, isRead, same⟩
  cases same
  exact read _ _ _ isRead

theorem isDistinct_of_scalar {α : Type} (ofRead : α → Scalar) {read : Option (α × List Char)}
    {text : List Char} {value : Value}
    (found : read.map (fun (read, rest) => (Value.scalar (ofRead read), rest)) =
      some (value, text)) : value.IsDistinct := by
  rcases Option.map_eq_some_iff.mp found with ⟨result, _, same⟩
  cases same
  exact .scalar _

theorem isDistinct_of_readValue {levels : Nat} :
    ∀ (text : List Char) (value : Value) (rest : List Char),
      readValue levels text = some (value, rest) → value.IsDistinct := by
  induction levels with
  | zero =>
      intro text value rest found
      unfold readValue at found
      split at found
      · cases found
      · cases found
      · exact isDistinct_of_scalar .string found
      · exact isDistinct_of_scalar .string found
      · exact isDistinct_of_scalar id found
  | succ levels induction =>
      intro text value rest found
      unfold readValue at found
      split at found
      · rcases Option.map_eq_some_iff.mp found with ⟨⟨elements, left⟩, isRead, same⟩
        cases same
        exact .array (forall_mem_of_readItems induction isRead)
      · rcases Option.bind_eq_some_iff.mp found with ⟨⟨entries, left⟩, isRead, found⟩
        rcases Option.bind_eq_some_iff.mp found with ⟨table, isTable, same⟩
        cases same
        exact Value.isDistinct_ofEntries
          (forall_mem_of_readItems (isDistinct_of_readEntry induction) isRead) isTable
      · exact isDistinct_of_scalar .string found
      · exact isDistinct_of_scalar .string found
      · exact isDistinct_of_scalar id found

theorem isDistinct_of_readStatement {text : List Char} {statement : Statement}
    {rest : List Char} (found : readStatement text = some (statement, rest)) :
    statement.IsDistinct := by
  rw [readStatement.eq_def] at found
  split at found
  · rcases Option.bind_eq_some_iff.mp found with ⟨⟨keys, afterKeys⟩, _, found⟩
    rcases Option.bind_eq_some_iff.mp found with ⟨left, _, same⟩
    cases same
    trivial
  · rcases Option.bind_eq_some_iff.mp found with ⟨⟨keys, afterKeys⟩, _, found⟩
    rcases Option.bind_eq_some_iff.mp found with ⟨left, _, same⟩
    cases same
    trivial
  · rcases Option.bind_eq_some_iff.mp found with ⟨⟨entry, left⟩, isRead, same⟩
    cases same
    exact isDistinct_of_readEntry isDistinct_of_readValue _ _ _ isRead

theorem isDistinct_of_readStatements {bound : Nat} {text : List Char}
    {statements : List Statement} (found : readStatements bound text = some statements) :
    ∀ statement ∈ statements, statement.IsDistinct := by
  induction bound generalizing text statements with
  | zero => cases found
  | succ bound induction =>
      rw [readStatements] at found
      split at found
      · cases found
        exact nofun
      · rcases Option.bind_eq_some_iff.mp found with ⟨⟨first, afterFirst⟩, isFirst, found⟩
        rcases Option.bind_eq_some_iff.mp found with ⟨afterLine, _, found⟩
        rcases Option.bind_eq_some_iff.mp found with ⟨others, areOthers, same⟩
        cases same
        exact List.forall_mem_cons.mpr
          ⟨isDistinct_of_readStatement isFirst, induction areOthers⟩

/-- No table that a text describes has a key twice, at any depth. -/
theorem isDistinct_of_parse? {text : List Char} {value : Value}
    (parsed : parse? text = some value) : value.IsDistinct := by
  rcases Option.bind_eq_some_iff.mp parsed with ⟨statements, areRead, isBuilt⟩
  exact isDistinct_assemble (isDistinct_of_readStatements areRead)
    (Value.isDistinct_emptyTable .header) isBuilt

end Relay.Toml
