import Mathlib.Data.List.Count
import Mathlib.Tactic.Linarith
import Aeontra.Library.Instant

/-!
Guesses that are checked against a limit, made, and recorded when they fail, in three steps.

When no check passes between a passed check and what is recorded for it, the guesses made in any
span of `width` are bounded by the limit on the recorded failures too.
-/

namespace Aeontra.Library

open List Nat Function

/-- How many of the times are less than `width` back from `t`. -/
def recent (width : Duration) (t : Time) (times : List Time) : Nat := times.countP fun x => t - x < width

section

variable {width : Duration} {t u : Time} {times : List Time}

theorem recent_append (width : Duration) (t : Time) (first rest : List Time) :
    recent width t (first ++ rest) = recent width t first + recent width t rest := countP_append

theorem recent_le (later : t ≤ u) (times : List Time) : recent width u times ≤ recent width t times := by
  refine countP_mono_left fun x _ near => ?_
  rw [decide_eq_true_eq] at near ⊢
  linarith

theorem recent_filter (later : t ≤ u) (times : List Time) :
    recent width u (times.filter fun x => t - x < width) = recent width u times := by
  rw [recent, countP_filter]
  refine countP_congr fun x _ => ?_
  rw [Bool.and_eq_true, decide_eq_true_eq, decide_eq_true_eq]
  constructor
  · exact fun both => both.1
  · exact fun near => ⟨near, by linarith⟩

theorem recent_eq_length (times : List Time) :
    recent width t (times.filter fun x => t - x < width) = (times.filter fun x => t - x < width).length := by
  rw [recent_filter (Int.le_refl t), recent, countP_eq_length_filter]

end

/-- At most `limit` of the times lie in any span of `width`. -/
def Sparse (width : Duration) (limit : Nat) (times : List Time) : Prop :=
  ∀ start, (times.filter fun x => start ≤ x ∧ x < start + width).length ≤ limit

theorem Sparse.snoc {width : Duration} {limit : Nat} {times : List Time} {t : Time}
    (sparse : Sparse width limit times) (few : recent width t times < limit) :
    Sparse width limit (times ++ [t]) := by
  intro start
  rw [filter_append, length_append]
  by_cases inside : start ≤ t ∧ t < start + width
  · have within : (times.filter fun x => start ≤ x ∧ x < start + width).length ≤ recent width t times := by
      rw [recent, ← countP_eq_length_filter]
      refine countP_mono_left fun x _ member => ?_
      rw [decide_eq_true_eq] at member ⊢
      linarith
    have one : ([t].filter fun x => start ≤ x ∧ x < start + width).length ≤ 1 := length_filter_le _ _
    omega
  · rw [filter_cons_of_neg (by simpa using inside), filter_nil, length_nil, add_zero]
    exact sparse start

/-- A client may guess once its check has passed; a wrong guess is still to be recorded. -/
inductive GuessPhase
  | quiet
  | checked
  | failing
  deriving DecidableEq

/-- The phases of the clients, the wrong guesses made so far and the recorded failures. -/
@[ext] structure Throttle (ι : Type) where
  phase : ι → GuessPhase
  guesses : List Time
  failures : List Time
  clock : Time

namespace Throttle

variable {ι : Type} [DecidableEq ι] {width : Duration} {limit : Nat}

/-- The same failures count from `now` on. -/
def SameFrom (width : Duration) (now : Time) (a b : List Time) : Prop :=
  ∀ u, now ≤ u → recent width u a = recent width u b

/-- What can happen next; a check passes only while every client is quiet. -/
inductive Step (width : Duration) (limit : Nat) (s : Throttle ι) : Throttle ι → Prop
  | rest {now : Time} {failures : List Time} :
      s.clock ≤ now → SameFrom width now failures s.failures →
      Step width limit s ⟨s.phase, s.guesses, failures, now⟩
  | pass {i : ι} {now : Time} {failures : List Time} :
      s.clock ≤ now → SameFrom width now failures s.failures → (∀ j, s.phase j = .quiet) →
      recent width now s.failures < limit →
      Step width limit s ⟨Function.update s.phase i .checked, s.guesses, failures, now⟩
  | right {i : ι} {now : Time} :
      s.clock ≤ now → s.phase i = .checked →
      Step width limit s ⟨Function.update s.phase i .quiet, s.guesses, s.failures, now⟩
  | wrong {i : ι} {now : Time} :
      s.clock ≤ now → s.phase i = .checked →
      Step width limit s ⟨Function.update s.phase i .failing, s.guesses ++ [now], s.failures, now⟩
  | record {i : ι} {now : Time} {failures : List Time} :
      s.clock ≤ now → s.phase i = .failing → SameFrom width now failures (s.failures ++ [now]) →
      Step width limit s ⟨Function.update s.phase i .quiet, s.guesses, failures, now⟩

/-- At most one client is past its check, and all guesses but the one that it still has to record are covered
by failures. -/
structure Sound (width : Duration) (limit : Nat) (s : Throttle ι) : Prop where
  alone : ∀ i j, s.phase i ≠ .quiet → s.phase j ≠ .quiet → i = j
  covered : ∃ settled pending, s.guesses = settled ++ pending ∧
    (∀ u, s.clock ≤ u → recent width u settled ≤ recent width u s.failures) ∧
    (pending = [] ∨ ∃ t, pending = [t] ∧ t ≤ s.clock ∧ ∃ i, s.phase i = .failing)
  few : ∀ i, s.phase i = .checked → recent width s.clock s.guesses < limit
  sparse : Sparse width limit s.guesses

omit [DecidableEq ι] in
theorem Sound.settled {s : Throttle ι} (sound : Sound width limit s) (none : ∀ i, s.phase i ≠ .failing)
    {u : Time} (later : s.clock ≤ u) : recent width u s.guesses ≤ recent width u s.failures := by
  obtain ⟨settled, pending, guesses, covered, rfl | ⟨t, rfl, _, i, failing⟩⟩ := sound.covered
  · rw [guesses, append_nil]
    exact covered u later
  · exact absurd failing (none i)

theorem Sound.others {s : Throttle ι} (sound : Sound width limit s) {i : ι} (past : s.phase i ≠ .quiet)
    {next : GuessPhase} {j : ι} (other : Function.update s.phase i next j ≠ .quiet) : j = i := by
  by_contra apart
  rw [update_of_ne apart] at other
  exact apart (sound.alone j i other past)

theorem Sound.alone_update {s : Throttle ι} (sound : Sound width limit s) {i : ι} (past : s.phase i ≠ .quiet)
    (next : GuessPhase) (j k : ι) (first : Function.update s.phase i next j ≠ .quiet)
    (second : Function.update s.phase i next k ≠ .quiet) : j = k :=
  (sound.others past first).trans (sound.others past second).symm

omit [DecidableEq ι] in
theorem Sound.none_failing {s : Throttle ι} (sound : Sound width limit s) {i : ι} (checked : s.phase i = .checked)
    (j : ι) : s.phase j ≠ .failing := by
  intro failing
  have same : j = i := sound.alone j i (by simp [failing]) (by simp [checked])
  rw [same, checked] at failing
  cases failing

theorem Sound.not_checked {s : Throttle ι} (sound : Sound width limit s) {i : ι} (past : s.phase i ≠ .quiet)
    {next : GuessPhase} (moved : next ≠ .checked) (j : ι) : Function.update s.phase i next j ≠ .checked := by
  intro still
  have same : j = i := sound.others past (by rw [still]; decide)
  rw [same, update_self] at still
  exact moved still

theorem Step.keeps {s s' : Throttle ι} (step : Step width limit s s') (sound : Sound width limit s) :
    Sound width limit s' := by
  cases step with
  | @rest now failures later same =>
    obtain ⟨settled, pending, guesses, covered, left⟩ := sound.covered
    refine ⟨sound.alone, ⟨settled, pending, guesses, ?_, ?_⟩, ?_, sound.sparse⟩
    · intro u after
      rw [same u after]
      exact covered u (later.trans after)
    · rcases left with none | ⟨t, one, before, failing⟩
      · exact .inl none
      · exact .inr ⟨t, one, before.trans later, failing⟩
    · intro i checked
      exact lt_of_le_of_lt (recent_le later _) (sound.few i checked)
  | @pass i now failures later same free room =>
    have none : ∀ j, s.phase j ≠ .failing := fun j failing => by
      rw [free j] at failing
      cases failing
    refine ⟨?_, ⟨s.guesses, [], (append_nil _).symm, ?_, .inl rfl⟩, ?_, sound.sparse⟩
    · intro j k first second
      have only : ∀ j, Function.update s.phase i .checked j ≠ .quiet → j = i := by
        intro j past
        by_contra apart
        rw [update_of_ne apart] at past
        exact past (free j)
      exact (only j first).trans (only k second).symm
    · intro u after
      rw [same u after]
      exact sound.settled none (later.trans after)
    · intro j _
      exact lt_of_le_of_lt (sound.settled none later) room
  | @right i now later checked =>
    have past : s.phase i ≠ .quiet := by simp [checked]
    refine ⟨sound.alone_update past .quiet, ⟨s.guesses, [], (append_nil _).symm, ?_, .inl rfl⟩, ?_,
      sound.sparse⟩
    · exact fun u after => sound.settled (sound.none_failing checked) (later.trans after)
    · intro j _
      exact lt_of_le_of_lt (recent_le later _) (sound.few i checked)
  | @wrong i now later checked =>
    have past : s.phase i ≠ .quiet := by simp [checked]
    refine ⟨sound.alone_update past .failing, ⟨s.guesses, [now], rfl, ?_, .inr ⟨now, rfl, Int.le_refl now, i, ?_⟩⟩,
      ?_, sound.sparse.snoc (lt_of_le_of_lt (recent_le later _) (sound.few i checked))⟩
    · exact fun u after => sound.settled (sound.none_failing checked) (later.trans after)
    · exact update_self i GuessPhase.failing s.phase
    · exact fun j still => absurd still (sound.not_checked past (by decide) j)
  | @record i now failures later failing same =>
    have past : s.phase i ≠ .quiet := by simp [failing]
    obtain ⟨settled, pending, guesses, covered, left⟩ := sound.covered
    refine ⟨sound.alone_update past .quiet, ⟨s.guesses, [], (append_nil _).symm, ?_, .inl rfl⟩, ?_,
      sound.sparse⟩
    · intro u after
      have before := covered u (later.trans after)
      -- the pending guess is not newer than the failure recorded for it
      have recorded : recent width u pending ≤ recent width u [now] := by
        rcases left with rfl | ⟨t, rfl, old, _⟩
        · exact zero_le _
        simp only [recent, countP_singleton, decide_eq_true_eq]
        split
        · next near =>
          rw [if_pos (by linarith)]
        · exact zero_le _
      rw [same u after, guesses, recent_append, recent_append]
      exact Nat.add_le_add before recorded
    · exact fun j still => absurd still (sound.not_checked past (by decide) j)

omit [DecidableEq ι] in
theorem sound_start {s : Throttle ι} (quiet : ∀ i, s.phase i = .quiet) (fresh : s.guesses = []) :
    Sound width limit s where
  alone i _ past := absurd (quiet i) past
  covered := ⟨[], [], fresh, fun _ _ => zero_le _, .inl rfl⟩
  few i checked := by
    rw [quiet i] at checked
    cases checked
  sparse start := by
    rw [fresh]
    exact zero_le _

end Throttle

end Aeontra.Library
