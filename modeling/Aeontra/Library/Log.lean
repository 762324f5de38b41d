import Mathlib.Data.List.Infix

/-!
Logs: lists that grow at the end, whose entries are settled except for the last one.

`view` is what is compared of a settled entry, `identity` what even the last entry keeps.
-/

namespace Aeontra.Library

open List

variable {α β γ : Type} {view : α → β} {identity : α → γ}

theorem getElem?_of_prefix {short long : List α} (inside : short <+: long) {i : Nat} {a : α}
    (found : short[i]? = some a) : long[i]? = some a := by
  obtain ⟨rest, rfl⟩ := inside
  rw [List.getElem?_append_left (List.getElem?_eq_some_iff.mp found).1, found]

/-- The entries before the last one stay as they are, the last one keeps its identity. -/
structure Grows (view : α → β) (identity : α → γ) (before after : List α) : Prop where
  settled : before.dropLast.map view <+: after.map view
  named : before.map identity <+: after.map identity

namespace Grows

variable {before middle after : List α}

theorem length_le (grows : Grows view identity before after) : before.length ≤ after.length := by
  have short := grows.named.length_le
  simpa using short

theorem refl (view : α → β) (identity : α → γ) (log : List α) : Grows view identity log log :=
  ⟨( dropLast_prefix log).map view, prefix_refl _⟩

theorem trans (first : Grows view identity before middle) (second : Grows view identity middle after) :
    Grows view identity before after := by
  refine ⟨?_, first.named.trans second.named⟩
  have short : (before.dropLast.map view).length ≤ (middle.dropLast.map view).length := by
    have longer := first.length_le
    simp only [length_map, length_dropLast]
    omega
  have inside : before.dropLast.map view <+: middle.dropLast.map view :=
    prefix_of_prefix_length_le first.settled (( dropLast_prefix middle).map view) short
  exact inside.trans second.settled

theorem append (log added : List α) : Grows view identity log (log ++ added) := by
  refine ⟨?_, ?_⟩
  · exact (( dropLast_prefix log).trans (prefix_append log added)).map view
  · exact (prefix_append log added).map identity

theorem revise {earlier : List α} {old new : α} (same : identity new = identity old) :
    Grows view identity (earlier ++ [old]) (earlier ++ [new]) := by
  refine ⟨?_, ?_⟩
  · rw [dropLast_concat]
    exact (prefix_append earlier [new]).map view
  · rw [map_append, map_append, map_singleton, map_singleton, same]

theorem view_eq (grows : Grows view identity before after) {i : Nat} {a b : α}
    (earlier : i + 1 < before.length) (old : before[i]? = some a) (new : after[i]? = some b) :
    view b = view a := by
  have place : (before.dropLast.map view)[i]? = some (view a) := by
    rw [List.getElem?_map, List.getElem?_dropLast, if_pos (by omega), old]
    rfl
  have later := getElem?_of_prefix grows.settled place
  rw [List.getElem?_map, new] at later
  exact Option.some.inj later

theorem identity_eq (grows : Grows view identity before after) {i : Nat} {a b : α}
    (old : before[i]? = some a) (new : after[i]? = some b) : identity b = identity a := by
  have place : (before.map identity)[i]? = some (identity a) := by
    rw [List.getElem?_map, old]
    rfl
  have later := getElem?_of_prefix grows.named place
  rw [List.getElem?_map, new] at later
  exact Option.some.inj later

end Grows

end Aeontra.Library
