import Mathlib
import GameVault.Value.Basic

namespace GameVault.Value

/-- Induction over documents with a hypothesis for every element of an array and for every key
and value of a map. Documents nest through lists, so the plain `induction` tactic refuses them. -/
@[induction_eliminator]
theorem nestedInduction {motive : Value → Prop}
    (null : motive .null) (bool : ∀ b, motive (.bool b)) (int : ∀ n, motive (.int n))
    (float : ∀ x, motive (.float x)) (bytes : ∀ bs, motive (.bytes bs)) (text : ∀ s, motive (.text s))
    (array : ∀ items, (∀ x ∈ items, motive x) → motive (.array items))
    (map : ∀ entries, (∀ p ∈ entries, motive p.1 ∧ motive p.2) → motive (.map entries)) :
    ∀ v, motive v
  | .null => null
  | .bool b => bool b
  | .int n => int n
  | .float x => float x
  | .bytes bs => bytes bs
  | .text s => text s
  | .array items => array items fun x _ => nestedInduction null bool int float bytes text array map x
  | .map entries => map entries fun p _ =>
      ⟨nestedInduction null bool int float bytes text array map p.1,
        nestedInduction null bool int float bytes text array map p.2⟩
termination_by v => sizeOf v
decreasing_by
  all_goals simp_wf
  · have := List.sizeOf_lt_of_mem ‹x ∈ items›
    omega
  all_goals
    have := List.sizeOf_lt_of_mem ‹p ∈ entries›
    cases p
    simp only [Prod.mk.sizeOf_spec] at this ⊢
    omega

mutual
/-- Whether a document and every document inside it, map keys included, pass `p`. -/
def every (p : Value → Bool) : Value → Bool
  | .array items => p (.array items) && everyItem p items
  | .map entries => p (.map entries) && everyEntry p entries
  | v => p v

/-- Whether every element passes `every p`. -/
def everyItem (p : Value → Bool) : List Value → Bool
  | [] => true
  | x :: xs => every p x && everyItem p xs

/-- Whether every key and value passes `every p`. -/
def everyEntry (p : Value → Bool) : List (Value × Value) → Bool
  | [] => true
  | (k, v) :: rest => every p k && every p v && everyEntry p rest
end

theorem everyItem_iff {p : Value → Bool} {items : List Value} :
    everyItem p items = true ↔ ∀ x ∈ items, every p x = true := by
  induction items with
  | nil => simp [everyItem]
  | cons x xs ih => simp [everyItem, ih]

theorem everyEntry_iff {p : Value → Bool} {entries : List (Value × Value)} :
    everyEntry p entries = true ↔ ∀ e ∈ entries, every p e.1 = true ∧ every p e.2 = true := by
  induction entries with
  | nil => simp [everyEntry]
  | cons e rest ih =>
    obtain ⟨k, v⟩ := e
    simp [everyEntry, ih, and_assoc]

theorem every_array {p : Value → Bool} {items : List Value} :
    every p (.array items) = true ↔ p (.array items) = true ∧ ∀ x ∈ items, every p x = true := by
  simp [every, everyItem_iff]

theorem every_map {p : Value → Bool} {entries : List (Value × Value)} :
    every p (.map entries) = true ↔
      p (.map entries) = true ∧ ∀ e ∈ entries, every p e.1 = true ∧ every p e.2 = true := by
  simp [every, everyEntry_iff]

theorem every_self {p : Value → Bool} {v : Value} (all : every p v = true) : p v = true := by
  cases v <;> simp_all [every]

end GameVault.Value
