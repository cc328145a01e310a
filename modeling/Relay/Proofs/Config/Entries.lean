import Relay.Config.File
import Relay.Proofs.Json.Normal
import Relay.Proofs.Toml.Tables

namespace Relay.Config

/-! What a file says under its keys. Neither format lets a table have a key twice: one
refuses a text that does, the other keeps the last value. -/

namespace Branches

def keys : Branches → List String
  | .nil => []
  | .cons key _ rest => key :: rest.keys

theorem get?_eq_none_iff {key : String} (branches : Branches) :
    branches.get? key = none ↔ key ∉ branches.keys := by
  induction branches using keys.induct with
  | case1 => simp [get?, keys]
  | case2 other value rest induction =>
      rw [get?, keys, List.mem_cons]
      by_cases same : other = key
      · simp [same]
      · simp [same, Ne.symm same, induction]

end Branches

mutual
def Tree.IsDistinct : Tree → Prop
  | .scalar .. => True
  | .array _ elements => elements.IsDistinct
  | .table _ entries => entries.IsDistinct

def Trees.IsDistinct : Trees → Prop
  | .nil => True
  | .cons head tail => head.IsDistinct ∧ tail.IsDistinct

def Branches.IsDistinct : Branches → Prop
  | .nil => True
  | .cons key value rest => key ∉ rest.keys ∧ value.IsDistinct ∧ rest.IsDistinct
end

theorem Branches.isDistinct_of_get? {key : String} {branches : Branches} {value : Tree}
    (distinct : branches.IsDistinct) (found : branches.get? key = some value) :
    value.IsDistinct := by
  induction branches using keys.induct with
  | case1 => cases found
  | case2 other first rest induction =>
      rw [get?] at found
      split at found
      · cases found
        exact distinct.2.1
      · exact induction distinct.2.2 found

/-! ## The formats -/

theorem Trees.isDistinct_ofToml {origin : String} {elements : List Toml.Value}
    (all : ∀ element ∈ elements, (Tree.ofToml origin element).IsDistinct) :
    (Trees.ofToml origin elements).IsDistinct := by
  induction elements with
  | nil => trivial
  | cons head tail induction =>
      rcases List.forall_mem_cons.mp all with ⟨first, others⟩
      exact ⟨first, induction others⟩

theorem Branches.keys_ofToml (origin : String) (entries : List (String × Toml.Value)) :
    (Branches.ofToml origin entries).keys = entries.map Prod.fst := by
  induction entries with
  | nil => rfl
  | cons entry rest induction => exact congrArg (entry.1 :: ·) induction

theorem Branches.isDistinct_ofToml {origin : String} {entries : List (String × Toml.Value)}
    (distinct : (entries.map Prod.fst).Nodup)
    (all : ∀ entry ∈ entries, (Tree.ofToml origin entry.2).IsDistinct) :
    (Branches.ofToml origin entries).IsDistinct := by
  induction entries with
  | nil => trivial
  | cons entry rest induction =>
      rcases List.forall_mem_cons.mp all with ⟨first, others⟩
      rcases List.nodup_cons.mp distinct with ⟨fresh, distinctRest⟩
      exact ⟨by rwa [keys_ofToml], first, induction distinctRest others⟩

theorem Tree.isDistinct_ofToml (origin : String) {value : Toml.Value}
    (distinct : value.IsDistinct) : (Tree.ofToml origin value).IsDistinct := by
  induction distinct with
  | scalar value => trivial
  | array _ induction => exact Trees.isDistinct_ofToml induction
  | tables _ induction => exact Trees.isDistinct_ofToml induction
  | table distinct _ induction => exact Branches.isDistinct_ofToml distinct induction

theorem Branches.keys_ofMembers (origin : String) (members : Members) :
    (Branches.ofMembers origin members).keys = members.toList.map Prod.fst := by
  induction members using Members.toList.induct with
  | case1 => rfl
  | case2 key value rest induction => exact congrArg (key :: ·) induction

mutual
theorem Tree.isDistinct_ofJson (origin : String) :
    (value : Json) → value.IsNormal → (Tree.ofJson origin value).IsDistinct
  | .array elements, normal => Trees.isDistinct_ofElements origin elements normal
  | .object members, normal => Branches.isDistinct_ofMembers origin members normal
  | .null, _ | .boolean _, _ | .number _, _ | .string _, _ => trivial

theorem Trees.isDistinct_ofElements (origin : String) :
    (elements : Elements) → elements.IsNormal → (Trees.ofElements origin elements).IsDistinct
  | .nil, _ => trivial
  | .cons head tail, normal =>
      ⟨Tree.isDistinct_ofJson origin head normal.1,
        Trees.isDistinct_ofElements origin tail normal.2⟩

theorem Branches.isDistinct_ofMembers (origin : String) :
    (members : Members) → members.IsNormal → (Branches.ofMembers origin members).IsDistinct
  | .nil, _ => trivial
  | .cons key value rest, normal => by
      refine ⟨fun member => ?_, Tree.isDistinct_ofJson origin value normal.1,
        Branches.isDistinct_ofMembers origin rest normal.2.2⟩
      rw [Branches.keys_ofMembers] at member
      exact String.lt_irrefl key (normal.2.1 key member)
end

theorem Format.isDistinct_of_entries? {format : Format} {origin : String} {text : List Char}
    {entries : Branches} (read : format.entries? origin text = some entries) :
    entries.IsDistinct := by
  cases format with
  | toml =>
      rw [entries?] at read
      split at read
      · rename_i form inner parsed
        cases read
        exact Tree.isDistinct_ofToml origin (Toml.isDistinct_of_parse? parsed)
      · cases read
  | json =>
      rw [entries?] at read
      split at read
      · rename_i members parsed
        cases read
        rcases Option.map_eq_some_iff.mp parsed with ⟨value, _, isNormalized⟩
        have normal := value.isNormal_normalize
        rw [isNormalized] at normal
        exact Branches.isDistinct_ofMembers origin members normal
      · cases read

end Relay.Config
