import Mathlib.Data.List.Forall2
import Aeontra.Library.Fallible

/-!
Lists with one element replaced, split at that element, and lists changed element by element.
-/

namespace Aeontra.Library

open List

variable {α β : Type}

theorem split_at {l : List α} {i : Nat} {a : α} (found : l[i]? = some a) :
    ∃ before after, l = before ++ a :: after ∧ before.length = i ∧
      ∀ b, l.set i b = before ++ b :: after := by
  obtain ⟨inside, rfl⟩ := List.getElem?_eq_some_iff.mp found
  refine ⟨l.take i, l.drop (i + 1), ?_, ?_, ?_⟩
  · rw [getElem_cons_drop, take_append_drop]
  · rw [length_take]
    omega
  · intro b
    rw [set_eq_take_append_cons_drop, if_pos inside]

theorem split_last {l : List α} {a : α} (latest : l.getLast? = some a) : ∃ earlier, l = earlier ++ [a] :=
  getLast?_eq_some_iff.mp latest

theorem forall_mem_of_last {l : List α} {P : α → Prop} (earlier : ∀ a ∈ l.dropLast, P a)
    (final : ∀ a, l.getLast? = some a → P a) : ∀ a ∈ l, P a := by
  intro a member
  cases latest : l.getLast? with
  | none => simp [getLast?_eq_none_iff.mp latest] at member
  | some last =>
    obtain ⟨front, rfl⟩ := split_last latest
    rw [dropLast_concat] at earlier
    rcases mem_append.mp member with old | new
    · exact earlier a old
    · exact final a (latest.trans (congrArg some (mem_singleton.mp new).symm))

theorem map_modify_of_eq {f : α → β} {g : α → α} (same : ∀ a, f (g a) = f a) (l : List α) (i : Nat) :
    (l.modify i g).map f = l.map f := by
  apply ext_getElem?
  intro j
  rw [getElem?_map, getElem?_map, getElem?_modify]
  cases l[j]? with
  | none => rfl
  | some a =>
    by_cases here : i = j
    · simp [here, same]
    · simp [here]

section

variable {γ ε : Type} {R : α → β → Prop} {left : List α} {right : List β}

theorem mapM_forall₂ {f : α → Except ε β} (each : ∀ a ∈ left, ∀ b, f a = .ok b → R a b)
    (run : left.mapM f = .ok right) : Forall₂ R left right := by
  induction left generalizing right with
  | nil =>
    rw [mapM_nil, pure_eq_ok] at run
    subst run
    exact .nil
  | cons a left ih =>
    simp only [mapM_cons, ok_iff] at run
    obtain ⟨b, first, rest, later, rfl⟩ := run
    exact .cons (each a mem_cons_self b first)
      (ih (fun a' member => each a' (mem_cons_of_mem _ member)) later)

theorem forall₂_map_eq {f : α → γ} {g : β → γ} (same : ∀ a b, R a b → g b = f a)
    (related : Forall₂ R left right) : right.map g = left.map f := by
  induction related with
  | nil => rfl
  | cons first _ ih => rw [map_cons, map_cons, same _ _ first, ih]

theorem forall₂_right {P : β → Prop} (each : ∀ a b, R a b → P b) (related : Forall₂ R left right) :
    ∀ b ∈ right, P b := by
  induction related with
  | nil => simp
  | cons first _ ih => exact forall_mem_cons.mpr ⟨each _ _ first, ih⟩

theorem mem_of_mapM {f : α → Except ε β} (run : left.mapM f = .ok right) :
    ∀ b ∈ right, ∃ a ∈ left, f a = .ok b :=
  forall₂_right (fun a _ facts => ⟨a, facts⟩)
    (mapM_forall₂ (R := fun a b => a ∈ left ∧ f a = .ok b) (fun _ member _ run => ⟨member, run⟩) run)

end

end Aeontra.Library
