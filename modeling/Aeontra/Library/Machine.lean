import Mathlib.Data.List.Basic

/-!
Machines that answer inputs one at a time: runs, transcripts of runs, and the rules by
which a fact about one step becomes a fact about a whole run.
-/

namespace Aeontra.Library

open List

namespace Machine

variable {σ ι ρ : Type} (exec : σ → ι → ρ × σ)

def run (s : σ) (inputs : List ι) : σ := inputs.foldl (fun s input => (exec s input).2) s

/-- One answered input: the state it met, the input and the answer. -/
structure Entry (σ ι ρ : Type) where
  state : σ
  input : ι
  answer : ρ

def entry (s : σ) (input : ι) : Entry σ ι ρ := ⟨s, input, (exec s input).1⟩

def transcript : σ → List ι → List (Entry σ ι ρ)
  | _, [] => []
  | s, input :: inputs => entry exec s input :: transcript (exec s input).2 inputs

variable {exec}

@[simp] theorem run_nil (s : σ) : run exec s [] = s := rfl

@[simp] theorem run_cons (s : σ) (input : ι) (inputs : List ι) :
    run exec s (input :: inputs) = run exec (exec s input).2 inputs := rfl

theorem run_append (s : σ) (first second : List ι) :
    run exec s (first ++ second) = run exec (run exec s first) second :=
  foldl_append ..

theorem mem_transcript {s : σ} {inputs : List ι} {e : Entry σ ι ρ} (member : e ∈ transcript exec s inputs) :
    ∃ front back, inputs = front ++ e.input :: back ∧ e = entry exec (run exec s front) e.input := by
  induction inputs generalizing s with
  | nil => cases member
  | cons input inputs ih =>
    rcases List.mem_cons.mp member with rfl | later
    · exact ⟨[], inputs, rfl, rfl⟩
    · obtain ⟨front, back, split, same⟩ := ih later
      exact ⟨input :: front, back, by rw [split, cons_append], same⟩

theorem transcript_append (s : σ) (first second : List ι) :
    transcript exec s (first ++ second) = transcript exec s first ++ transcript exec (run exec s first) second := by
  induction first generalizing s with
  | nil => rfl
  | cons input first ih =>
    rw [cons_append, transcript, transcript, ih, cons_append, run_cons]

theorem transcript_forall {good : σ → List ι → Prop} {P : Entry σ ι ρ → Prop}
    (keeps : ∀ s input rest, good s (input :: rest) → good (exec s input).2 rest)
    (holds : ∀ s input rest, good s (input :: rest) → P (entry exec s input))
    {s : σ} {inputs : List ι} (start : good s inputs) : ∀ e ∈ transcript exec s inputs, P e := by
  induction inputs generalizing s with
  | nil => exact fun _ member => absurd member not_mem_nil
  | cons input inputs ih =>
    intro e member
    rcases List.mem_cons.mp member with rfl | later
    · exact holds s input inputs start
    · exact ih (keeps s input inputs start) e later

/-- An event that uses up a budget, which no other step refills, happens as often as the budget allows. -/
theorem happens_at_most {happens : Entry σ ι ρ → Bool} {room : σ → List ι → Nat → Prop}
    (skips : ∀ s input rest n, room s (input :: rest) n → happens (entry exec s input) = false →
      room (exec s input).2 rest n)
    (spends : ∀ s input rest n, room s (input :: rest) n → happens (entry exec s input) = true →
      ∃ m, n = m + 1 ∧ room (exec s input).2 rest m)
    {s : σ} {inputs : List ι} {n : Nat} (start : room s inputs n) :
    ((transcript exec s inputs).filter happens).length ≤ n := by
  induction inputs generalizing s n with
  | nil => exact Nat.zero_le n
  | cons input inputs ih =>
    rw [transcript]
    cases now : happens (entry exec s input) with
    | false =>
      rw [filter_cons_of_neg (by rw [now]; decide)]
      exact ih (skips s input inputs n start now)
    | true =>
      obtain ⟨m, rfl, left⟩ := spends s input inputs n start now
      rw [filter_cons_of_pos now, length_cons]
      exact Nat.succ_le_succ (ih left)

theorem happens_once {happens : Entry σ ι ρ → Bool} {good spent : σ → List ι → Prop}
    (keeps : ∀ s input rest, good s (input :: rest) → good (exec s input).2 rest)
    (spends : ∀ s input rest, good s (input :: rest) → happens (entry exec s input) = true →
      spent (exec s input).2 rest)
    (stays : ∀ s input rest, spent s (input :: rest) → spent (exec s input).2 rest)
    (blocks : ∀ s input rest, spent s (input :: rest) → happens (entry exec s input) = false)
    {s : σ} {inputs : List ι} (start : good s inputs) :
    ((transcript exec s inputs).filter happens).length ≤ 1 := by
  apply @happens_at_most _ _ _ exec happens
    (fun s inputs n => n = 1 ∧ good s inputs ∨ n = 0 ∧ spent s inputs)
  · rintro s input rest n (⟨one, ready⟩ | ⟨zero, gone⟩) -
    · exact .inl ⟨one, keeps s input rest ready⟩
    · exact .inr ⟨zero, stays s input rest gone⟩
  · rintro s input rest n (⟨one, ready⟩ | ⟨-, gone⟩) now
    · exact ⟨0, one, .inr ⟨rfl, spends s input rest ready now⟩⟩
    · rw [blocks s input rest gone] at now
      cases now
  · exact .inl ⟨rfl, start⟩

theorem transcript_pairwise {good : σ → List ι → Prop} {R : Entry σ ι ρ → Entry σ ι ρ → Prop}
    (mark : Entry σ ι ρ → σ → List ι → Prop)
    (keeps : ∀ s input rest, good s (input :: rest) → good (exec s input).2 rest)
    (marks : ∀ s input rest, good s (input :: rest) → mark (entry exec s input) (exec s input).2 rest)
    (stays : ∀ e s input rest, mark e s (input :: rest) → mark e (exec s input).2 rest)
    (relates : ∀ e s input rest, mark e s (input :: rest) → R e (entry exec s input))
    {s : σ} {inputs : List ι} (start : good s inputs) : (transcript exec s inputs).Pairwise R := by
  have later : ∀ (e : Entry σ ι ρ) (inputs : List ι) (s : σ), mark e s inputs →
      ∀ e' ∈ transcript exec s inputs, R e e' := by
    intro e inputs
    induction inputs with
    | nil => exact fun _ _ _ member => absurd member not_mem_nil
    | cons input inputs ih =>
      intro s marked e' member
      rcases List.mem_cons.mp member with rfl | rest
      · exact relates e s input inputs marked
      · exact ih _ (stays e s input inputs marked) e' rest
  induction inputs generalizing s with
  | nil => exact List.Pairwise.nil
  | cons input inputs ih =>
    rw [transcript, pairwise_cons]
    exact ⟨later _ inputs _ (marks s input inputs start), ih (keeps s input inputs start)⟩

end Machine

end Aeontra.Library
