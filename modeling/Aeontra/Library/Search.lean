import Mathlib.Data.List.Sort
import Mathlib.Data.List.Dedup
import Mathlib.Data.String.Basic

/-!
Binary search and canonical lists: what `sort.Search` returns, and the sorted lists without
repetition that a set of texts is stored as.
-/

namespace Aeontra.Library

open List

/-- One run of `sort.Search` between two bounds; the first argument bounds the halvings. -/
def searchBetween (found : Nat → Bool) : Nat → Nat → Nat → Nat
  | 0, low, _ => low
  | bound + 1, low, high =>
    if low < high then
      let middle := (low + high) / 2
      if found middle then searchBetween found bound low middle
      else searchBetween found bound (middle + 1) high
    else low

/-- `sort.Search`: the least index at which a monotone predicate holds. -/
def search (length : Nat) (found : Nat → Bool) : Nat := searchBetween found length 0 length

/-- Whether the element at the place where a search for `key` ends is `key`. -/
def searchFinds (keys : List String) (key : String) : Bool :=
  keys[search keys.length fun i => key ≤ keys.getD i ""]? = some key

theorem searchBetween_eq {found : Nat → Bool} {bound low high place : Nat} (from_ : low ≤ place)
    (until_ : place ≤ high) (enough : high - low ≤ bound) (below : ∀ i < place, found i = false)
    (above : ∀ i, place ≤ i → i < high → found i = true) : searchBetween found bound low high = place := by
  induction bound generalizing low high with
  | zero =>
    rw [searchBetween]
    omega
  | succ bound ih =>
    rw [searchBetween]
    split
    · dsimp only
      split
      · rename_i here
        have later : place ≤ (low + high) / 2 := by
          by_contra early
          rw [below _ (by omega)] at here
          cases here
        exact ih from_ later (by omega) fun i least _ => above i least (by omega)
      · rename_i nothing
        have earlier : (low + high) / 2 < place := by
          by_contra late
          exact nothing (above _ (by omega) (by omega))
        exact ih earlier until_ (by omega) above
    · omega

theorem searchFinds_iff {keys : List String} {key : String} (sorted : keys.Pairwise (· < ·)) :
    searchFinds keys key = true ↔ key ∈ keys := by
  rw [searchFinds, decide_eq_true_eq]
  constructor
  · exact mem_of_getElem?
  intro member
  obtain ⟨place, inside, rfl⟩ := mem_iff_getElem.mp member
  have order := pairwise_iff_getElem.mp sorted
  have found : search keys.length (fun i => decide (keys[place] ≤ keys.getD i "")) = place := by
    refine searchBetween_eq (Nat.zero_le _) inside.le (by omega) ?_ ?_
    · intro i less
      rw [getD_eq_getElem?_getD, getElem?_eq_getElem (less.trans inside), Option.getD_some,
        decide_eq_false_iff_not, not_le]
      exact order i place (less.trans inside) inside less
    · intro i least bounded
      rw [getD_eq_getElem?_getD, getElem?_eq_getElem bounded, Option.getD_some, decide_eq_true_eq]
      rcases least.eq_or_lt with rfl | less
      · exact le_rfl
      · exact (order place i inside bounded less).le
  rw [found, getElem?_eq_getElem inside]

def canonical (texts : List String) : List String := texts.dedup.insertionSort (· ≤ ·)

def ascending : List String → Bool
  | first :: second :: rest => first < second && ascending (second :: rest)
  | _ => true

theorem ascending_iff {texts : List String} : ascending texts = true ↔ texts.Pairwise (· < ·) := by
  rw [← isChain_iff_pairwise]
  induction texts with
  | nil => simp [ascending]
  | cons first rest ih =>
    cases rest with
    | nil => simp [ascending]
    | cons second rest =>
      rw [ascending, Bool.and_eq_true, decide_eq_true_eq, ih, isChain_cons_cons]

@[simp] theorem mem_canonical {texts : List String} {text : String} :
    text ∈ canonical texts ↔ text ∈ texts := by
  rw [canonical, (perm_insertionSort _ _).mem_iff, mem_dedup]

theorem canonical_pairwise (texts : List String) : (canonical texts).Pairwise (· < ·) := by
  have sorted : (canonical texts).Pairwise (· ≤ ·) := pairwise_insertionSort (· ≤ ·) _
  have distinct : (canonical texts).Nodup := (perm_insertionSort _ _).nodup_iff.mpr (nodup_dedup texts)
  exact List.Pairwise.imp₂ (fun _ _ le ne => lt_of_le_of_ne le ne) sorted distinct

theorem canonical_of_pairwise {texts : List String} (sorted : texts.Pairwise (· < ·)) :
    canonical texts = texts := by
  have distinct : texts.Nodup := sorted.imp fun less => less.ne
  rw [canonical, distinct.dedup]
  exact List.Pairwise.insertionSort_eq (sorted.imp fun less => less.le)

theorem canonical_idem (texts : List String) : canonical (canonical texts) = canonical texts :=
  canonical_of_pairwise (canonical_pairwise texts)

theorem sublist_of_subset {smaller larger : List String} (sorted : smaller.Pairwise (· < ·))
    (sorted' : larger.Pairwise (· < ·)) (inside : ∀ text ∈ smaller, text ∈ larger) :
    smaller.Sublist larger := by
  have distinct : smaller.Nodup := sorted.imp fun less => less.ne
  exact sublist_of_subperm_of_pairwise (subperm_of_subset distinct inside) sorted sorted'

end Aeontra.Library
