import Aeontra.Library.Net
import Aeontra.Workqueue.Paths

/-!
The dependency relation of the stored jobs as a net, and that every run keeps it steady.
-/

namespace Aeontra.Workqueue

open Library Relation List

def State.phase : State → Phase
  | .blocked => .waiting
  | .queued | .leased => .running
  | .succeeded => .met
  | .failed | .cancelled => .lost

def DB.dependsOn (db : DB) (jobID dependencyID : String) : Prop :=
  (⟨jobID, dependencyID⟩ : DependencyRow) ∈ db.dependencies

/-- The stored jobs by their phase, and what they depend on. -/
def DB.net (db : DB) : Net String where
  phase jobID := (db.jobs.find jobID).map fun row => row.state.phase
  needs := db.dependsOn

variable {O : Type} {config : Config} {call : Call O} {db db' : DB} {now : UnixNano}

variable {row row' : JobRow} {id : String} {state : State} {reason : Reason} {ids : List String}
  {draw : Draw}

theorem phase_of_mem (member : row ∈ db.jobs) : db.net.phase row.id = some row.state.phase := by
  simp only [DB.net, Table.find_eq_some.mpr ⟨member, rfl⟩, Option.map_some]

theorem phase_eq_some {p : Phase} (phase : db.net.phase id = some p) :
    ∃ row ∈ db.jobs, row.id = id ∧ row.state.phase = p := by
  simp only [DB.net, Option.map_eq_some_iff] at phase
  obtain ⟨row, found, same⟩ := phase
  obtain ⟨member, named⟩ := Table.find_eq_some.mp found
  exact ⟨row, member, named, same⟩

theorem phase_eq_none : db.net.phase id = none ↔ ∀ row ∈ db.jobs, row.id ≠ id := by
  simp only [DB.net, Option.map_eq_none_iff, Table.find_eq_none]

theorem phase_open : state.phase.open = !terminal state := by
  cases state <;> rfl

theorem phase_waiting : state.phase = .waiting ↔ state = .blocked := by
  cases state <;> simp [State.phase]

theorem phase_met : state.phase = .met ↔ state = .succeeded := by
  cases state <;> simp [State.phase]

theorem phase_running : state.phase = .running ↔ state = .queued ∨ state = .leased := by
  cases state <;> simp [State.phase]

theorem phase_lost : state.phase = .lost ↔ state = .failed ∨ state = .cancelled := by
  cases state <;> simp [State.phase]

theorem JobStep.sets (step : JobStep now row row' db db') : db.net.Sets db'.net row.id row'.state.phase where
  here := by
    rw [← step.moved.sameID]
    exact phase_of_mem step.replaced.new_mem
  elsewhere := fun id other => by
    simp only [DB.net, step.replaced.find_of_ne other]
  needs := by
    rw [step.rest]
    rfl

theorem JobStep.source_phase (step : JobStep now row row' db db') :
    db.net.phase row.id = some row.state.phase :=
  phase_of_mem step.replaced.old_mem

theorem JobMove.succeeded_source (moved : JobMove now row row')
    (target : row'.state = .succeeded) : row.state = .leased := by
  cases moved with
  | complete state => exact state
  | recover state => exact state
  | lease => cases target
  | extend state => exact state
  | requestCancel state => exact state
  | cancel => cases target
  | wake => cases target
  | failDependency => cases target
  | failGoal => cases target

theorem JobMove.quiet_phase (moved : JobMove now row row')
    (source : row.state ≠ .blocked) (target : terminal row'.state = false) :
    row'.state.phase = row.state.phase := by
  have running : row.state.phase = .running := by
    have := moved.source_running
    cases state : row.state <;> simp_all [terminal, State.phase]
  have stays : row'.state ≠ .blocked := by
    cases moved with
    | lease => simp [JobRow.leaseTo]
    | extend => exact source
    | requestCancel => exact source
    | complete state ends => rintro rfl; cases ends
    | recover =>
      unfold recovery JobRow.recover
      split
      · simp
      · split <;> simp
    | cancel => simp [JobRow.cancel]
    | wake state => exact absurd state source
    | failDependency state => exact absurd state source
    | failGoal => simp [JobRow.failGoal]
  rw [running]
  cases state : row'.state <;> simp_all [terminal, State.phase]

theorem scanDependencies_spec {blocked : Bool} {dependencies : List String}
    (scanned : db.scanDependencies blocked dependencies = .ok (state, reason)) :
    (state = .queued → blocked = false ∧
        ∀ dependency ∈ dependencies, db.net.phase dependency = some .met) ∧
      (state = .blocked → (∀ dependency ∈ dependencies, db.net.phase dependency ≠ some .lost) ∧
        (blocked = true ∨ ∃ dependency ∈ dependencies, ∃ p, db.net.phase dependency = some p ∧
          p.open = true)) := by
  induction dependencies generalizing blocked with
  | nil =>
    cases blocked <;> simp only [DB.scanDependencies, Except.ok.injEq, Prod.mk.injEq] at scanned <;>
      obtain ⟨rfl, rfl⟩ := scanned <;> simp
  | cons dependency rest ih =>
    simp only [DB.scanDependencies, ok_iff] at scanned
    obtain ⟨found, read, job, rfl, scanned⟩ := scanned
    obtain ⟨row, member, rfl, rfl⟩ := jobByID_eq_some read
    have phase := phase_of_mem member
    have sameState : row.job.state = row.state := rfl
    rw [sameState] at scanned
    split at scanned
    · rename_i succeeded
      rw [succeeded] at phase
      obtain ⟨queued, waiting⟩ := ih scanned
      refine ⟨fun target => ⟨(queued target).1, ?_⟩, fun target => ⟨?_, ?_⟩⟩
      · exact forall_mem_cons.mpr ⟨phase, (queued target).2⟩
      · exact forall_mem_cons.mpr ⟨by rw [phase]; simp [State.phase], (waiting target).1⟩
      · refine (waiting target).2.imp_right ?_
        rintro ⟨d, later, p, open_⟩
        exact ⟨d, mem_cons_of_mem _ later, p, open_⟩
    · simp only [Except.ok.injEq, Prod.mk.injEq] at scanned
      obtain ⟨rfl, -⟩ := scanned
      simp
    · simp only [Except.ok.injEq, Prod.mk.injEq] at scanned
      obtain ⟨rfl, -⟩ := scanned
      simp
    rename_i unsucceeded unfailed uncancelled
    obtain ⟨queued, waiting⟩ := ih scanned
    refine ⟨fun target => absurd (queued target).1 (by simp), fun target => ⟨?_, .inr ?_⟩⟩
    · refine forall_mem_cons.mpr ⟨?_, (waiting target).1⟩
      rw [phase, Ne, Option.some.injEq, phase_lost]
      rintro (failed | cancelled)
      · exact unfailed failed
      · exact uncancelled cancelled
    · refine ⟨row.id, mem_cons_self, _, phase, ?_⟩
      rw [phase_open]
      cases state : row.state <;> simp_all [terminal]

theorem mem_dependencyIDs {dependency : String} :
    dependency ∈ db.dependencyIDs id ↔ db.dependsOn id dependency := by
  rw [DB.dependencyIDs, mem_sortStrings, mem_map]
  constructor
  · rintro ⟨⟨source, target⟩, inside, rfl⟩
    obtain ⟨member, same⟩ := List.mem_filter.mp inside
    rw [decide_eq_true_eq] at same
    exact same ▸ member
  · intro member
    exact ⟨⟨id, dependency⟩, List.mem_filter.mpr ⟨member, by simp⟩, rfl⟩

theorem mem_dependents {dependency : String} : id ∈ db.dependents dependency ↔ db.dependsOn id dependency := by
  rw [DB.dependents, mem_sortStrings, mem_map]
  constructor
  · rintro ⟨⟨source, target⟩, inside, rfl⟩
    obtain ⟨member, same⟩ := List.mem_filter.mp inside
    rw [decide_eq_true_eq] at same
    exact same ▸ member
  · intro member
    exact ⟨⟨id, dependency⟩, List.mem_filter.mpr ⟨member, by simp⟩, rfl⟩

theorem Settles.dependsOn (settles : Settles now db db') : db'.dependsOn = db.dependsOn := by
  rw [settles.moves.sameTables]
  rfl

theorem dependencyState_waits
    (decided : db.dependencyState (db.dependencyIDs id) = .ok (.blocked, reason)) : db.net.Waits id := by
  obtain ⟨unlost, some_open⟩ := (scanDependencies_spec decided).2 rfl
  obtain ⟨dependency, listed, p, phase, isOpen⟩ := some_open.resolve_left (by simp)
  exact ⟨fun b need => unlost b (mem_dependencyIDs.mpr need),
    dependency, p, mem_dependencyIDs.mp listed, phase, isOpen⟩

theorem Visit.steady {settled : List String} {excused : String → Prop}
    (visit : Visit now id db db' settled) (steady : db.net.Steady fun a => a = id ∨ excused a) :
    db'.net.Steady fun a => excused a ∨ ∃ s ∈ settled, db.dependsOn a s := by
  cases visit with
  | skipped member named state =>
    refine (steady.unexcuse id (fun a => Or.symm) fun waiting => ?_).mono fun a => .inl
    rw [← named, phase_of_mem member, Option.some.injEq, phase_waiting] at waiting
    exact absurd waiting state
  | pending member named state decided =>
    exact (steady.unexcuse id (fun a => Or.symm) fun _ => dependencyState_waits decided).mono
      fun a => .inl
  | @woken row row' reason _ named state decided step target =>
    have sets := step.sets
    rw [target] at sets
    have phase := step.source_phase
    rw [state] at phase
    have awake := steady.wake sets phase fun b need =>
      ((scanDependencies_spec decided).1 rfl).2 b (mem_dependencyIDs.mpr (named ▸ need))
    refine (awake.unexcuse id (fun a => Or.symm) fun waiting => ?_).mono fun a => .inl
    rw [← named, sets.here] at waiting
    cases waiting
  | @failed row row' reason _ named state decided step target =>
    have sets := step.sets
    rw [target] at sets
    have phase := step.source_phase
    rw [state] at phase
    have lost := steady.settle sets phase rfl rfl nofun
    refine lost.unexcuse id (fun a excuse => ?_) fun waiting => ?_
    · rcases excuse with (same | excuse) | need
      · exact .inr same
      · exact .inl (.inl excuse)
      · exact .inl (.inr ⟨id, mem_singleton_self id, named ▸ need⟩)
    · rw [← named, sets.here] at waiting
      cases waiting

theorem propagateAll_steady {settled : List String} {excused : String → Prop}
    (run : propagateAll now db ids = .ok (db', settled)) (steady : db.net.Steady fun a => a ∈ ids ∨ excused a) :
    db'.net.Steady fun a => excused a ∨ ∃ s ∈ settled, db.dependsOn a s := by
  induction ids generalizing db settled excused with
  | nil =>
    simp only [propagateAll, Except.ok.injEq, Prod.mk.injEq] at run
    obtain ⟨rfl, rfl⟩ := run
    exact steady.mono fun a excuse => .inl (excuse.resolve_left (not_mem_nil))
  | cons id ids ih =>
    simp only [propagateAll, ok_iff] at run
    obtain ⟨⟨middle, first⟩, visited, ⟨last, later⟩, rest, rfl, rfl⟩ := run
    have visit := propagateTo_visit visited
    have needs := visit.settles.dependsOn
    have wider : db.net.Steady fun a => a = id ∨ (a ∈ ids ∨ excused a) :=
      steady.mono fun a excuse => by simpa [or_assoc] using excuse
    have after := visit.steady wider
    refine (ih rest (after.mono fun a => or_assoc.mp)).mono fun a excuse => ?_
    rw [needs] at excuse
    rcases excuse with (excuse | ⟨s, inside, need⟩) | ⟨s, inside, need⟩
    · exact .inl excuse
    · exact .inr ⟨s, mem_append_left _ inside, need⟩
    · exact .inr ⟨s, mem_append_right _ inside, need⟩

def DB.waiting (db : DB) : Nat := db.jobs.count fun row => row.state = .blocked

structure Settled (db db' : DB) (settled : List String) : Prop where
  fewer : db'.waiting + settled.length ≤ db.waiting
  before : ∀ s ∈ settled, db.net.phase s = some .waiting
  after : ∀ s ∈ settled, db'.net.phase s ≠ some .waiting
  distinct : settled.Nodup

theorem Settles.not_waiting (settles : Settles now db db')
    (phase : db.net.phase id ≠ some .waiting) : db'.net.phase id ≠ some .waiting := by
  induction settles with
  | refl => exact phase
  | tail _ settle ih =>
    obtain ⟨row, row', step, -, target⟩ := settle
    by_cases same : id = row.id
    · rw [same, step.sets.here, Ne, Option.some.injEq, phase_waiting]
      rcases target with target | target <;> rw [target] <;> simp
    · rwa [step.sets.elsewhere id same]

theorem JobStep.waiting_succ (step : JobStep now row row' db db')
    (state : row.state = .blocked) (target : row'.state ≠ .blocked) : db'.waiting + 1 = db.waiting := by
  have counted := step.replaced.count_add fun row => row.state = .blocked
  simpa [DB.waiting, state, target] using counted

theorem Visit.settled {settled : List String} (visit : Visit now id db db' settled) :
    Settled db db' settled := by
  cases visit with
  | skipped => exact ⟨by simp, by simp, by simp, by simp⟩
  | pending => exact ⟨by simp, by simp, by simp, by simp⟩
  | woken named state decided step target =>
    have fewer := step.waiting_succ state (by rw [target]; simp)
    refine ⟨by simp; omega, by simp, by simp, by simp⟩
  | @failed row row' reason _ named state decided step target =>
    have fewer := step.waiting_succ state (by rw [target]; simp)
    refine ⟨by simp; omega, ?_, ?_, by simp⟩
    · intro s member
      rw [mem_singleton.mp member, ← named, step.source_phase, state]
      rfl
    · intro s member
      rw [mem_singleton.mp member, ← named, step.sets.here, target]
      simp [State.phase]

theorem propagateAll_settled {settled : List String}
    (run : propagateAll now db ids = .ok (db', settled)) : Settled db db' settled := by
  induction ids generalizing db settled with
  | nil =>
    simp only [propagateAll, Except.ok.injEq, Prod.mk.injEq] at run
    obtain ⟨rfl, rfl⟩ := run
    exact ⟨by simp, by simp, by simp, by simp⟩
  | cons id ids ih =>
    simp only [propagateAll, ok_iff] at run
    obtain ⟨⟨middle, first⟩, visited, ⟨last, later⟩, rest, rfl, rfl⟩ := run
    have visit := propagateTo_visit visited
    have front := visit.settled
    have back := ih rest
    have settles := propagateAll_settles rest
    refine ⟨?_, ?_, ?_, ?_⟩
    · have head : middle.waiting + first.length ≤ db.waiting := front.fewer
      have tail : last.waiting + later.length ≤ middle.waiting := back.fewer
      simp only [length_append]
      omega
    · intro s member
      rcases mem_append.mp member with inside | inside
      · exact front.before s inside
      · by_contra started
        exact visit.settles.not_waiting started (back.before s inside)
    · intro s member
      rcases mem_append.mp member with inside | inside
      · exact settles.not_waiting (front.after s inside)
      · exact back.after s inside
    · refine nodup_append.mpr ⟨front.distinct, back.distinct, ?_⟩
      rintro s inFront t inBack rfl
      exact front.after s inFront (back.before s inBack)

/-- Every job enters the queue at most once, so the bound on the loop is never the reason to
stop. -/
theorem propagateLoop_steady {bound : Nat} {queue seen : List String}
    (run : propagateLoop now bound queue seen db = .ok db')
    (enough : queue.length + db.waiting ≤ bound) (distinct : queue.Nodup) (apart : ∀ q ∈ queue, q ∉ seen)
    (ended : ∀ q, q ∈ queue ∨ q ∈ seen → db.net.phase q ≠ some .waiting)
    (steady : db.net.Steady fun a => ∃ q ∈ queue, db.dependsOn a q) : db'.net.Steady fun _ => False := by
  induction bound generalizing queue seen db with
  | zero =>
    simp only [propagateLoop, Except.ok.injEq] at run
    subst run
    have empty : queue = [] := eq_nil_of_length_eq_zero (by omega)
    subst empty
    exact steady.mono (by simp)
  | succ bound ih =>
    cases queue with
    | nil =>
      simp only [propagateLoop, Except.ok.injEq] at run
      subst run
      exact steady.mono (by simp)
    | cons dependency queue =>
      have unseen : dependency ∉ seen := apart dependency mem_cons_self
      obtain ⟨notLater, distinct⟩ := nodup_cons.mp distinct
      simp only [propagateLoop, contains_iff_mem, unseen, if_false, ok_iff] at run
      obtain ⟨⟨middle, settled⟩, first, rest⟩ := run
      have pass := propagateAll_settled first
      have settles := propagateAll_settles first
      have wider : db.net.Steady fun a => a ∈ db.dependents dependency ∨
          ∃ q ∈ queue, db.dependsOn a q := by
        refine steady.mono ?_
        rintro a ⟨q, member, need⟩
        rcases mem_cons.mp member with rfl | later
        · exact .inl (mem_dependents.mpr need)
        · exact .inr ⟨q, later, need⟩
      have after := propagateAll_steady first wider
      have old : ∀ q, q ∈ queue ∨ q ∈ dependency :: seen → db.net.phase q ≠ some .waiting := by
        rintro q (later | member)
        · exact ended q (.inl (mem_cons_of_mem _ later))
        · rcases mem_cons.mp member with rfl | inside
          · exact ended q (.inl mem_cons_self)
          · exact ended q (.inr inside)
      refine ih rest ?_ ?_ ?_ ?_ ?_
      · have fewer : middle.waiting + settled.length ≤ db.waiting := pass.fewer
        simp only [length_append, length_cons] at enough ⊢
        omega
      · refine nodup_append.mpr ⟨distinct, pass.distinct, ?_⟩
        rintro q later s inside rfl
        exact old q (.inl later) (pass.before q inside)
      · intro q member again
        rcases mem_append.mp member with later | inside
        · rcases mem_cons.mp again with rfl | inside
          · exact notLater later
          · exact apart q (mem_cons_of_mem _ later) inside
        · exact old q (.inr again) (pass.before q inside)
      · rintro q (member | member)
        · rcases mem_append.mp member with later | inside
          · exact settles.not_waiting (old q (.inl later))
          · exact pass.after q inside
        · exact settles.not_waiting (old q (.inr member))
      · refine after.mono fun a excuse => ?_
        rw [settles.dependsOn]
        rcases excuse with ⟨q, later, need⟩ | ⟨s, inside, need⟩
        · exact ⟨q, mem_append_left _ later, need⟩
        · exact ⟨s, mem_append_right _ inside, need⟩

theorem propagate_steady (run : propagate db id now = .ok db') (ended : db.net.phase id ≠ some .waiting)
    (steady : db.net.Steady fun a => db.dependsOn a id) : db'.net.Steady fun _ => False := by
  refine propagateLoop_steady run ?_ (nodup_singleton id) (fun _ _ => not_mem_nil) ?_ ?_
  · have bound : db.waiting ≤ db.jobs.rows.length := countP_le_length
    simp only [length_singleton]
    omega
  · rintro q (member | member)
    · rw [mem_singleton.mp member]
      exact ended
    · exact absurd member not_mem_nil
  · exact steady.mono fun a need => ⟨id, mem_singleton_self id, need⟩

/-- Nothing is missing, no chain of dependencies returns to its start, and every job is in the
state its dependencies allow. -/
structure Orderly (db : DB) : Prop where
  closed : db.net.Closed
  ranked : db.net.Ranked
  steady : db.net.Steady fun _ => False

theorem Orderly.empty : Orderly DB.empty where
  closed := ⟨fun _ _ edge => absurd edge not_mem_nil, fun _ _ edge => absurd edge not_mem_nil⟩
  ranked := ⟨fun _ => 0, fun _ _ edge => absurd edge not_mem_nil⟩
  steady := ⟨fun _ _ _ edge => absurd edge not_mem_nil, fun _ phase => nomatch phase⟩

theorem Orderly.congr (orderly : Orderly db) (jobs : db'.jobs = db.jobs)
    (dependencies : db'.dependencies = db.dependencies) : Orderly db' := by
  have needs : db'.dependsOn = db.dependsOn := by
    funext a b
    unfold DB.dependsOn
    rw [dependencies]
  have same : db'.net = db.net := by
    unfold DB.net
    rw [jobs, needs]
  exact ⟨same ▸ orderly.closed, same ▸ orderly.ranked, same ▸ orderly.steady⟩

theorem Orderly.quiet (orderly : Orderly db) (step : JobStep now row row' db db')
    (source : row.state ≠ .blocked) (target : terminal row'.state = false) : Orderly db' := by
  have sets := step.sets
  rw [step.moved.quiet_phase source target] at sets
  have same := sets.eq_of_phase step.source_phase
  exact ⟨same ▸ orderly.closed, same ▸ orderly.ranked, same ▸ orderly.steady⟩

theorem Orderly.settle {middle : DB} (orderly : Orderly db)
    (step : JobStep now row row' db middle) (target : terminal row'.state = true)
    (propagated : propagate middle row.id now = .ok db') : Orderly db' := by
  have sets := step.sets
  have shut : row'.state.phase.open = false := by rw [phase_open, target]; rfl
  have wasOpen : row.state.phase.open = true := by
    rw [phase_open, step.moved.source_running]
    rfl
  have excused := orderly.steady.settle sets step.source_phase wasOpen shut fun met => by
    rw [phase_running]
    exact .inr (step.moved.succeeded_source (phase_met.mp met))
  have steady : middle.net.Steady fun a => middle.dependsOn a row.id :=
    excused.mono fun a excuse => by
      have need := excuse.resolve_left id
      rw [← sets.needs] at need
      exact need
  have ended : middle.net.phase row.id ≠ some .waiting := by
    rw [sets.here, Ne, Option.some.injEq]
    intro waiting
    rw [waiting] at shut
    cases shut
  have kept : db'.net.Closed ∧ db'.net.Ranked := by
    have settles := propagate_settles propagated
    clear propagated
    induction settles with
    | refl => exact ⟨sets.closed orderly.closed, sets.ranked orderly.ranked⟩
    | tail _ settle ih =>
      obtain ⟨other, other', step, -⟩ := settle
      exact ⟨step.sets.closed ih.1, step.sets.ranked ih.2⟩
  exact ⟨kept.1, kept.2, propagate_steady propagated ended steady⟩

theorem Admits.adds {spec : Spec} (admits : Admits config spec draw now db db')
    (inserted : db.jobs.insert (admittedRow spec (randomID "wj_" draw) state reason now) = some db'.jobs) :
    db.net.Adds db'.net (randomID "wj_" draw) state.phase fun b => b ∈ spec.dependencies where
  fresh := phase_eq_none.mpr (Table.insert_eq_some.mp inserted).1
  here := by
    have found := Table.find_insert_self inserted
    have named : (admittedRow spec (randomID "wj_" draw) state reason now).id = randomID "wj_" draw := rfl
    rw [named] at found
    simp only [DB.net, found, Option.map_some]
    rfl
  elsewhere := fun b other => by
    simp only [DB.net, Table.find_insert_of_ne inserted other]
  needs := fun c b => by
    change (⟨c, b⟩ : DependencyRow) ∈ db'.dependencies.rows ↔ (⟨c, b⟩ : DependencyRow) ∈ db.dependencies.rows ∨ _
    rw [admits.dependencies, mem_append, mem_map]
    refine or_congr_right ⟨?_, ?_⟩
    · rintro ⟨dependency, listed, same⟩
      cases same
      exact ⟨rfl, mem_sortStrings.mp listed⟩
    · rintro ⟨rfl, listed⟩
      exact ⟨b, mem_sortStrings.mpr listed, rfl⟩

theorem Orderly.admission {spec : Spec} (orderly : Orderly db)
    (admits : Admits config spec draw now db db') (unguessed : randomID "wj_" draw ∉ spec.dependencies) :
    Orderly db' := by
  obtain ⟨state, reason, decided, inserted⟩ := admits.inserted
  have adds := admits.adds inserted
  obtain ⟨queued, blocked⟩ := scanDependencies_spec decided
  have old : ∀ b p, db.net.phase b = some p → db'.net.phase b = some p := fun b p phase => by
    rw [adds.elsewhere b fun same => ?_, phase]
    rw [same, adds.fresh] at phase
    cases phase
  refine ⟨adds.closed orderly.closed fun b want => ?_,
    adds.ranked orderly.closed orderly.ranked (fun b want => mem_toFinset.mpr want) unguessed,
    adds.steady orderly.closed orderly.steady (fun ready b want => ?_) fun waiting => ?_⟩
  · obtain ⟨row, member, named⟩ := admits.present b want
    rw [← named, phase_of_mem member]
    simp
  · have target : state = .queued := by
      rcases dependencyState_cases decided with ⟨rfl, -⟩ | ⟨rfl, -⟩ | ⟨rfl, -⟩
      · simp [State.phase] at ready
      · rfl
      · simp [State.phase] at ready
    exact old b _ ((queued target).2 b (mem_sortStrings.mpr want))
  obtain ⟨unlost, someOpen⟩ := blocked (phase_waiting.mp waiting)
  obtain ⟨b, listed, p, phase, isOpen⟩ := someOpen.resolve_left (by simp)
  refine ⟨fun c need => ?_, b, p, ?_, old b p phase, isOpen⟩
  · rcases (adds.needs _ c).mp need with before | ⟨-, want⟩
    · exact absurd adds.fresh (orderly.closed.source _ c before)
    · have other : c ≠ randomID "wj_" draw := fun same => unguessed (same ▸ want)
      rw [adds.elsewhere c other]
      exact unlost c (mem_sortStrings.mpr want)
  · exact (adds.needs _ b).mpr (.inr ⟨rfl, mem_sortStrings.mp listed⟩)

theorem Orderly.create {spec : TaskSpec} {draws : Nat → Draw} (orderly : Orderly db)
    (creates : Creates config spec draw draws now db db') : Orderly db' := by
  have grown : db.net.Extends db'.net := by
    refine ⟨fun b present => ?_, fun b absent => ?_, ?_⟩
    · obtain ⟨p, phase⟩ := Option.ne_none_iff_exists'.mp present
      obtain ⟨row, member, named, same⟩ := phase_eq_some phase
      have still : row ∈ db'.jobs := by
        change row ∈ db'.jobs.rows
        rw [creates.jobs]
        exact mem_append_left _ member
      rw [phase, ← named, phase_of_mem still, same]
    · cases phase : db'.net.phase b with
      | none => exact .inl rfl
      | some p =>
        obtain ⟨row, member, named, same⟩ := phase_eq_some phase
        change row ∈ db'.jobs.rows at member
        rw [creates.jobs, mem_append] at member
        rcases member with old | new
        · exact absurd named (phase_eq_none.mp absent row old)
        · obtain ⟨ordinal, -, rfl⟩ := mem_map.mp new
          exact .inr (congrArg some same.symm)
    · rw [creates.rest]
      rfl
  exact ⟨grown.closed orderly.closed, grown.ranked orderly.ranked, grown.steady orderly.closed orderly.steady⟩

theorem Orderly.sweep (orderly : Orderly db) (sweeps : Sweeps ids db db') : Orderly db' := by
  obtain ⟨unneeded, -, rfl⟩ := sweeps
  have drops : db.net.Drops (db.deleteJobs ids).net fun id => id ∈ ids := by
    refine ⟨fun c b gone need => unneeded _ need gone, fun b gone => ?_, fun b kept => ?_, fun c b => ?_⟩
    · refine phase_eq_none.mpr fun row member named => ?_
      have stays := (Table.mem_delete.mp member).2
      simp [named, gone] at stays
    · cases phase : db.net.phase b with
      | none =>
        refine phase_eq_none.mpr fun row member => ?_
        exact phase_eq_none.mp phase row (Table.mem_delete.mp member).1
      | some p =>
        obtain ⟨row, member, named, same⟩ := phase_eq_some phase
        have still : row ∈ (db.deleteJobs ids).jobs := Table.mem_delete.mpr ⟨member, by simp [named, kept]⟩
        rw [← named, phase_of_mem still, same]
    · change _ ∈ db.dependencies.delete _ ↔ _
      rw [Table.mem_delete]
      simp [DB.net, DB.dependsOn]
  exact ⟨drops.closed orderly.closed, drops.ranked orderly.ranked, drops.steady orderly.steady⟩

/-- The identity drawn for a job is not one that the call itself has named. -/
def Call.unguessed : Call O → Prop
  | .enqueue spec draw _ => randomID "wj_" draw ∉ spec.dependencies
  | _ => True

theorem Orderly.change (orderly : Orderly db) (unguessed : call.unguessed)
    (change : Change config call db db') : Orderly db' := by
  cases change with
  | quiet _ step source target => exact orderly.quiet step source target
  | settle _ step target propagated => exact orderly.settle step target propagated
  | admission called admits =>
    subst called
    exact orderly.admission admits unguessed
  | create _ creates => exact orderly.create creates
  | sweep _ sweeps => exact orderly.sweep sweeps
  | task step | development step => exact orderly.congr (by rw [step.rest]) (by rw [step.rest])

structure DependenciesRespected (db : DB) : Prop where
  acyclic : ∀ id, ¬ TransGen db.dependsOn id id
  present : ∀ d ∈ db.dependencies, (∃ row ∈ db.jobs, row.id = d.jobID) ∧
    ∃ row ∈ db.jobs, row.id = d.dependencyID
  ready : ∀ row ∈ db.jobs, row.state = .queued ∨ row.state = .leased ∨ row.state = .succeeded →
    ∀ dependency ∈ db.jobs, db.dependsOn row.id dependency.id → dependency.state = .succeeded
  waiting : ∀ row ∈ db.jobs, row.state = .blocked →
    (∀ dependency ∈ db.jobs, db.dependsOn row.id dependency.id →
      dependency.state ≠ .failed ∧ dependency.state ≠ .cancelled) ∧
    ∃ dependency ∈ db.jobs, db.dependsOn row.id dependency.id ∧ terminal dependency.state = false

theorem Orderly.respected (orderly : Orderly db) : DependenciesRespected db where
  acyclic := orderly.ranked.acyclic
  present := fun d member => by
    have exists_ : ∀ id, db.net.phase id ≠ none → ∃ row ∈ db.jobs, row.id = id := fun id present => by
      obtain ⟨p, phase⟩ := Option.ne_none_iff_exists'.mp present
      obtain ⟨row, inside, named, -⟩ := phase_eq_some phase
      exact ⟨row, inside, named⟩
    exact ⟨exists_ _ (orderly.closed.source d.jobID d.dependencyID member),
      exists_ _ (orderly.closed.target d.jobID d.dependencyID member)⟩
  ready := fun row member state dependency inside need => by
    have phase := orderly.steady.ready row.id (by
      rw [phase_of_mem member, Option.some.injEq, Option.some.injEq, phase_running, phase_met, or_assoc]
      exact state) dependency.id need
    rw [phase_of_mem inside, Option.some.injEq] at phase
    exact phase_met.mp phase
  waiting := fun row member state => by
    have waits := (orderly.steady.waiting row.id (by
      rw [phase_of_mem member, state]
      rfl)).resolve_left id
    refine ⟨fun dependency inside need => ?_, ?_⟩
    · have unlost := waits.none_lost dependency.id need
      rw [phase_of_mem inside, Ne, Option.some.injEq, phase_lost, not_or] at unlost
      exact unlost
    obtain ⟨b, p, need, phase, isOpen⟩ := waits.one_open
    obtain ⟨dependency, inside, named, same⟩ := phase_eq_some phase
    refine ⟨dependency, inside, named ▸ need, ?_⟩
    rw [← same, phase_open] at isOpen
    simpa using isOpen

/-- In every state that a store reaches, the dependency relation is acyclic and closed, no job
runs before its dependencies have succeeded, and every blocked job waits for a job that is not
yet terminal. -/
theorem run_dependencies [ObjectiveRecords O] (config : Config)
    (validated : validateConfig config = .ok config) (calls : List (Call O))
    (unguessed : ∀ call ∈ calls, call.unguessed) :
    DependenciesRespected ((Store.empty config validated).run calls).db :=
  Orderly.respected (run_preserves (fun _ _ _ unguessed change orderly => orderly.change unguessed change)
    unguessed Orderly.empty)

def chainCalls : List (Call Empty) :=
  [.enqueue (sampleSpec "key-aaaa" []) 0 (.ofTime 1),
    .enqueue (sampleSpec "key-bbbb" [randomID "wj_" 0]) 1 (.ofTime 2)]

theorem run_dependencies_chain :
    ((Store.empty smallConfig smallConfig_valid).run chainCalls).db.jobs.rows.map JobRow.state =
        [.queued, .blocked] ∧
      DependenciesRespected ((Store.empty smallConfig smallConfig_valid).run chainCalls).db := by
  refine ⟨by decide +kernel, run_dependencies smallConfig smallConfig_valid chainCalls ?_⟩
  simp only [chainCalls, forall_mem_cons, Call.unguessed]
  exact ⟨by decide, by decide +kernel, by simp⟩

end Aeontra.Workqueue
