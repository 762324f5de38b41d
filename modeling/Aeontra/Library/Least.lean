import Mathlib.Data.List.Sort
import Mathlib.Data.Prod.Lex

/-!
Sorting by a key: the first element of a sorted list is the least one, and where the keys
tell the elements apart the sorted list depends on the elements only.
-/

namespace Aeontra.Library

open List

variable {α κ : Type} [LinearOrder κ] {key : α → κ} {items more : List α} {result : Option α} {a b : α}

def LeastBy (key : α → κ) (items : List α) : Option α → Prop
  | none => items = []
  | some a => a ∈ items ∧ ∀ b ∈ items, key a ≤ key b

theorem LeastBy.add (least : LeastBy key items result) (inside : a ∈ items) (above : key a ≤ key b)
    (added : ∀ x, x ∈ more ↔ x = b ∨ x ∈ items) : LeastBy key more result := by
  cases result with
  | none =>
    rw [show items = [] from least] at inside
    cases inside
  | some c =>
    refine ⟨(added c).mpr (.inr least.1), ?_⟩
    intro x member
    rcases (added x).mp member with rfl | old
    · exact (least.2 a inside).trans above
    · exact least.2 x old

section

variable {r : α → α → Prop} [DecidableRel r] (byKey : ∀ a b, r a b ↔ key a ≤ key b)
include byKey

theorem insertionSort_pairwise (items : List α) : (items.insertionSort r).Pairwise r := by
  have : Std.Total r := ⟨fun a b => by
    rw [byKey, byKey]
    exact le_total _ _⟩
  have : IsTrans α r := ⟨fun a b c first second => by
    rw [byKey] at first second ⊢
    exact first.trans second⟩
  exact pairwise_insertionSort r items

theorem leastBy_head (items : List α) : LeastBy key items (items.insertionSort r).head? := by
  have perm := perm_insertionSort r items
  have pairs := insertionSort_pairwise byKey items
  cases sorted : items.insertionSort r with
  | nil => exact perm_nil.mp (sorted ▸ perm.symm)
  | cons a rest =>
    rw [sorted] at perm pairs
    refine ⟨perm.mem_iff.mp mem_cons_self, ?_⟩
    intro b member
    rcases mem_cons.mp (perm.mem_iff.mpr member) with rfl | later
    · exact le_rfl
    · exact (byKey a b).mp (rel_of_pairwise_cons pairs later)

theorem insertionSort_congr (distinct : ∀ a ∈ items, ∀ b ∈ items, key a = key b → a = b)
    (perm : more.Perm items) : more.insertionSort r = items.insertionSort r := by
  have sorts := perm_insertionSort r items
  have sorts' := (perm_insertionSort r more).trans perm
  refine Perm.eq_of_pairwise ?_ (insertionSort_pairwise byKey more) (insertionSort_pairwise byKey items)
    (sorts'.trans sorts.symm)
  intro a b left right up down
  rw [byKey] at up down
  exact distinct a (sorts'.mem_iff.mp left) b (sorts.mem_iff.mp right) (le_antisymm up down)

end

end Aeontra.Library
