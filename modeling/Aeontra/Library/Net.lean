import Mathlib.Data.Finset.Lattice.Fold

/-!
Nets of tasks that need one another.

A net is steady when what runs has all its needs met and what waits has a reason to: a need that
is still open, and none that is lost.  Settling a task excuses those that need it until each of
them has been looked at again.
-/

namespace Aeontra.Library

inductive Phase where
  | waiting | running | met | lost
  deriving DecidableEq

def Phase.open : Phase → Bool
  | .waiting | .running => true
  | .met | .lost => false

structure Net (κ : Type) where
  phase : κ → Option Phase
  needs : κ → κ → Prop

namespace Net

variable {κ : Type} {n n' : Net κ} {excused : κ → Prop} {a : κ} {p : Phase}

structure Closed (n : Net κ) : Prop where
  source : ∀ a b, n.needs a b → n.phase a ≠ none
  target : ∀ a b, n.needs a b → n.phase b ≠ none

/-- Tasks can be numbered so that every need points to a smaller number. -/
def Ranked (n : Net κ) : Prop := ∃ rank : κ → Nat, ∀ a b, n.needs a b → rank b < rank a

theorem Ranked.acyclic (ranked : n.Ranked) (a : κ) : ¬ Relation.TransGen n.needs a a := by
  obtain ⟨rank, below⟩ := ranked
  have falls : ∀ b, Relation.TransGen n.needs a b → rank b < rank a := by
    intro b chain
    induction chain with
    | single edge => exact below _ _ edge
    | tail _ edge ih => exact (below _ _ edge).trans ih
  exact fun chain => lt_irrefl _ (falls a chain)

structure Waits (n : Net κ) (a : κ) : Prop where
  none_lost : ∀ b, n.needs a b → n.phase b ≠ some .lost
  one_open : ∃ b q, n.needs a b ∧ n.phase b = some q ∧ q.open = true

structure Steady (n : Net κ) (excused : κ → Prop) : Prop where
  ready : ∀ a, n.phase a = some .running ∨ n.phase a = some .met →
    ∀ b, n.needs a b → n.phase b = some .met
  waiting : ∀ a, n.phase a = some .waiting → excused a ∨ n.Waits a

/-- The second net is the first with one task in another phase. -/
structure Sets (n n' : Net κ) (a : κ) (p : Phase) : Prop where
  here : n'.phase a = some p
  elsewhere : ∀ b, b ≠ a → n'.phase b = n.phase b
  needs : n'.needs = n.needs

theorem Sets.closed (sets : n.Sets n' a p) (closed : n.Closed) : n'.Closed := by
  have kept : ∀ b, n.phase b ≠ none → n'.phase b ≠ none := fun b present => by
    by_cases same : b = a
    · rw [same, sets.here]
      simp
    · rwa [sets.elsewhere b same]
  refine ⟨fun c b edge => kept c ?_, fun c b edge => kept b ?_⟩
  · exact closed.source c b (sets.needs ▸ edge)
  · exact closed.target c b (sets.needs ▸ edge)

theorem Sets.ranked (sets : n.Sets n' a p) (ranked : n.Ranked) : n'.Ranked := by
  obtain ⟨rank, below⟩ := ranked
  exact ⟨rank, fun c b edge => below c b (sets.needs ▸ edge)⟩

theorem Steady.mono {more : κ → Prop} (steady : n.Steady excused)
    (wider : ∀ a, excused a → more a) : n.Steady more where
  ready := steady.ready
  waiting := fun a state => (steady.waiting a state).imp_left (wider a)

theorem Sets.eq_of_phase (sets : n.Sets n' a p) (phase : n.phase a = some p) : n' = n := by
  have phases : n'.phase = n.phase := funext fun b => by
    by_cases same : b = a
    · rw [same, sets.here, phase]
    · exact sets.elsewhere b same
  have needs := sets.needs
  cases n
  cases n'
  simp only [mk.injEq]
  exact ⟨phases, needs⟩

theorem Steady.not_needed {q : Phase} (steady : n.Steady excused) (phase : n.phase a = some q)
    (isOpen : q.open = true) {c : κ} (state : n.phase c = some .running ∨ n.phase c = some .met) :
    ¬ n.needs c a := by
  intro edge
  rw [steady.ready c state a edge, Option.some.injEq] at phase
  rw [← phase] at isOpen
  cases isOpen

theorem Steady.settle {q : Phase} (steady : n.Steady excused) (sets : n.Sets n' a p)
    (phase : n.phase a = some q) (wasOpen : q.open = true) (settled : p.open = false)
    (earned : p = .met → q = .running) :
    n'.Steady fun c => excused c ∨ n.needs c a where
  ready := by
    intro c state b edge
    rw [sets.needs] at edge
    by_cases own : c = a
    · subst own
      have met : p = .met := by
        rw [sets.here] at state
        rcases state with state | state <;> cases state
        · cases settled
        · rfl
      have running : n.phase c = some .running := earned met ▸ phase
      by_cases loop : b = c
      · rw [loop, sets.here, met]
      · rw [sets.elsewhere b loop]
        exact steady.ready c (.inl running) b edge
    · rw [sets.elsewhere c own] at state
      have other : b ≠ a := fun same =>
        steady.not_needed phase wasOpen state (same ▸ edge)
      rw [sets.elsewhere b other]
      exact steady.ready c state b edge
  waiting := by
    intro c state
    by_cases own : c = a
    · rw [own, sets.here, Option.some.injEq] at state
      rw [state] at settled
      cases settled
    rw [sets.elsewhere c own] at state
    by_cases edge : n.needs c a
    · exact .inl (.inr edge)
    refine (steady.waiting c state).imp .inl fun waits => ?_
    have other : ∀ b, n.needs c b → n'.phase b = n.phase b := fun b need =>
      sets.elsewhere b fun same => edge (same ▸ need)
    obtain ⟨b, r, need, phase, isOpen⟩ := waits.one_open
    refine ⟨fun b need => ?_, b, r, sets.needs ▸ need, (other b need).trans phase, isOpen⟩
    rw [sets.needs] at need
    rw [other b need]
    exact waits.none_lost b need

theorem Steady.wake (steady : n.Steady excused) (sets : n.Sets n' a .running)
    (phase : n.phase a = some .waiting) (met : ∀ b, n.needs a b → n.phase b = some .met) :
    n'.Steady excused where
  ready := by
    intro c state b edge
    rw [sets.needs] at edge
    have metBefore : n.phase b = some .met := by
      by_cases own : c = a
      · exact met b (own ▸ edge)
      · rw [sets.elsewhere c own] at state
        exact steady.ready c state b edge
    have other : b ≠ a := fun same => by
      rw [same, phase] at metBefore
      cases metBefore
    rw [sets.elsewhere b other, metBefore]
  waiting := by
    intro c state
    by_cases own : c = a
    · rw [own, sets.here] at state
      cases state
    rw [sets.elsewhere c own] at state
    refine (steady.waiting c state).imp_right fun waits => ⟨fun b need => ?_, ?_⟩
    · rw [sets.needs] at need
      by_cases same : b = a
      · rw [same, sets.here]
        simp
      · rw [sets.elsewhere b same]
        exact waits.none_lost b need
    · obtain ⟨b, r, need, before, isOpen⟩ := waits.one_open
      by_cases same : b = a
      · exact ⟨b, .running, sets.needs ▸ need, same ▸ sets.here, rfl⟩
      · exact ⟨b, r, sets.needs ▸ need, (sets.elsewhere b same).trans before, isOpen⟩

theorem Steady.unexcuse {more : κ → Prop} (steady : n.Steady more) (a : κ)
    (either : ∀ c, more c → excused c ∨ c = a)
    (settled : n.phase a = some .waiting → n.Waits a) : n.Steady excused where
  ready := steady.ready
  waiting := by
    intro c state
    rcases steady.waiting c state with excuse | waits
    · rcases either c excuse with excuse | same
      · exact .inl excuse
      · exact .inr (same ▸ settled (same ▸ state))
    · exact .inr waits

structure Adds (n n' : Net κ) (a : κ) (p : Phase) (wanted : κ → Prop) : Prop where
  fresh : n.phase a = none
  here : n'.phase a = some p
  elsewhere : ∀ b, b ≠ a → n'.phase b = n.phase b
  needs : ∀ c b, n'.needs c b ↔ n.needs c b ∨ c = a ∧ wanted b

section

variable {wanted : κ → Prop}

theorem Adds.closed (adds : n.Adds n' a p wanted) (closed : n.Closed)
    (present : ∀ b, wanted b → n'.phase b ≠ none) : n'.Closed := by
  have kept : ∀ b, n.phase b ≠ none → n'.phase b ≠ none := fun b exists_ => by
    by_cases same : b = a
    · rw [same, adds.here]
      simp
    · rwa [adds.elsewhere b same]
  refine ⟨fun c b edge => ?_, fun c b edge => ?_⟩
  · rcases (adds.needs c b).mp edge with old | ⟨rfl, -⟩
    · exact kept c (closed.source c b old)
    · rw [adds.here]
      simp
  · rcases (adds.needs c b).mp edge with old | ⟨-, want⟩
    · exact kept b (closed.target c b old)
    · exact present b want

theorem Adds.ranked [DecidableEq κ] (adds : n.Adds n' a p wanted) (closed : n.Closed)
    (ranked : n.Ranked) {wants : Finset κ} (listed : ∀ b, wanted b → b ∈ wants)
    (noLoop : ¬ wanted a) : n'.Ranked := by
  obtain ⟨rank, below⟩ := ranked
  refine ⟨Function.update rank a (wants.sup rank + 1), fun c b edge => ?_⟩
  rcases (adds.needs c b).mp edge with old | ⟨rfl, want⟩
  · have source : c ≠ a := fun same => closed.source c b old (same ▸ adds.fresh)
    have target : b ≠ a := fun same => closed.target c b old (same ▸ adds.fresh)
    rw [Function.update_of_ne source, Function.update_of_ne target]
    exact below c b old
  · have other : b ≠ c := fun same => noLoop (same ▸ want)
    rw [Function.update_of_ne other, Function.update_self]
    exact Nat.lt_succ_of_le (Finset.le_sup (listed b want))

theorem Adds.steady (adds : n.Adds n' a p wanted) (closed : n.Closed) (steady : n.Steady excused)
    (ready : p = .running ∨ p = .met → ∀ b, wanted b → n'.phase b = some .met)
    (waits : p = .waiting → n'.Waits a) : n'.Steady excused := by
  have target : ∀ c b, n.needs c b → n'.phase b = n.phase b := fun c b edge =>
    adds.elsewhere b fun same => closed.target c b edge (same ▸ adds.fresh)
  have source : ∀ c b, c ≠ a → n'.needs c b → n.needs c b := fun c b other edge =>
    ((adds.needs c b).mp edge).resolve_right fun own => other own.1
  refine ⟨fun c state b edge => ?_, fun c state => ?_⟩
  · by_cases own : c = a
    · subst own
      rcases (adds.needs c b).mp edge with old | ⟨-, want⟩
      · exact absurd adds.fresh (closed.source c b old)
      · rw [adds.here, Option.some.injEq, Option.some.injEq] at state
        exact ready state b want
    · rw [adds.elsewhere c own] at state
      rw [target c b (source c b own edge)]
      exact steady.ready c state b (source c b own edge)
  · by_cases own : c = a
    · subst own
      rw [adds.here, Option.some.injEq] at state
      exact .inr (waits state)
    · rw [adds.elsewhere c own] at state
      refine (steady.waiting c state).imp_right fun old => ⟨fun b edge => ?_, ?_⟩
      · rw [target c b (source c b own edge)]
        exact old.none_lost b (source c b own edge)
      · obtain ⟨b, q, edge, phase, isOpen⟩ := old.one_open
        exact ⟨b, q, (adds.needs c b).mpr (.inl edge), (target c b edge).trans phase, isOpen⟩

end

/-- The second net is the first with more tasks, which run and need nothing. -/
structure Extends (n n' : Net κ) : Prop where
  kept : ∀ b, n.phase b ≠ none → n'.phase b = n.phase b
  fresh : ∀ b, n.phase b = none → n'.phase b = none ∨ n'.phase b = some .running
  needs : n'.needs = n.needs

theorem Extends.closed (extends_ : n.Extends n') (closed : n.Closed) : n'.Closed := by
  refine ⟨fun c b edge => ?_, fun c b edge => ?_⟩ <;> rw [extends_.needs] at edge
  · rw [extends_.kept c (closed.source c b edge)]
    exact closed.source c b edge
  · rw [extends_.kept b (closed.target c b edge)]
    exact closed.target c b edge

theorem Extends.ranked (extends_ : n.Extends n') (ranked : n.Ranked) : n'.Ranked := by
  obtain ⟨rank, below⟩ := ranked
  exact ⟨rank, fun c b edge => below c b (extends_.needs ▸ edge)⟩

theorem Extends.steady (extends_ : n.Extends n') (closed : n.Closed) (steady : n.Steady excused) :
    n'.Steady excused := by
  have target : ∀ c b, n.needs c b → n'.phase b = n.phase b := fun c b edge =>
    extends_.kept b (closed.target c b edge)
  refine ⟨fun c state b edge => ?_, fun c state => ?_⟩
  · rw [extends_.needs] at edge
    rw [extends_.kept c (closed.source c b edge)] at state
    rw [target c b edge]
    exact steady.ready c state b edge
  have old : n.phase c ≠ none := fun absent => by
    rcases extends_.fresh c absent with phase | phase <;> rw [phase] at state <;> cases state
  rw [extends_.kept c old] at state
  refine (steady.waiting c state).imp_right fun waits => ⟨fun b edge => ?_, ?_⟩
  · rw [extends_.needs] at edge
    rw [target c b edge]
    exact waits.none_lost b edge
  · obtain ⟨b, q, edge, phase, isOpen⟩ := waits.one_open
    exact ⟨b, q, extends_.needs ▸ edge, (target c b edge).trans phase, isOpen⟩

/-- The second net is the first without some tasks that nothing needs. -/
structure Drops (n n' : Net κ) (gone : κ → Prop) : Prop where
  unneeded : ∀ c b, gone b → ¬ n.needs c b
  gone_phase : ∀ b, gone b → n'.phase b = none
  kept_phase : ∀ b, ¬ gone b → n'.phase b = n.phase b
  needs : ∀ c b, n'.needs c b ↔ n.needs c b ∧ ¬ gone c

section

variable {gone : κ → Prop}

variable (drops : n.Drops n' gone)

include drops

theorem Drops.target {c b : κ} (edge : n'.needs c b) : n'.phase b = n.phase b :=
  drops.kept_phase b fun dropped => drops.unneeded c b dropped ((drops.needs c b).mp edge).1

theorem Drops.closed (closed : n.Closed) : n'.Closed := by
  refine ⟨fun c b edge => ?_, fun c b edge => ?_⟩
  · obtain ⟨old, kept⟩ := (drops.needs c b).mp edge
    rw [drops.kept_phase c kept]
    exact closed.source c b old
  · rw [drops.target edge]
    exact closed.target c b ((drops.needs c b).mp edge).1

theorem Drops.ranked (ranked : n.Ranked) : n'.Ranked := by
  obtain ⟨rank, below⟩ := ranked
  exact ⟨rank, fun c b edge => below c b ((drops.needs c b).mp edge).1⟩

theorem Drops.steady (steady : n.Steady excused) : n'.Steady excused := by
  have kept : ∀ c q, n'.phase c = some q → ¬ gone c := fun c q phase dropped => by
    rw [drops.gone_phase c dropped] at phase
    cases phase
  refine ⟨fun c state b edge => ?_, fun c state => ?_⟩
  · have stays : ¬ gone c := state.elim (kept c _) (kept c _)
    rw [drops.kept_phase c stays] at state
    rw [drops.target edge]
    exact steady.ready c state b ((drops.needs c b).mp edge).1
  have stays := kept c _ state
  rw [drops.kept_phase c stays] at state
  refine (steady.waiting c state).imp_right fun old => ⟨fun b edge => ?_, ?_⟩
  · rw [drops.target edge]
    exact old.none_lost b ((drops.needs c b).mp edge).1
  · obtain ⟨b, q, edge, phase, isOpen⟩ := old.one_open
    have edge' := (drops.needs c b).mpr ⟨edge, stays⟩
    exact ⟨b, q, edge', (drops.target edge').trans phase, isOpen⟩

end

end Net

end Aeontra.Library
