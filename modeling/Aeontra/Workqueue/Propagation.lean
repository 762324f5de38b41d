import Aeontra.Workqueue.Operations
import Aeontra.Workqueue.Reading

/-!
Single assignments to the jobs table, and what propagation and recovery amount to in
terms of them.
-/

namespace Aeontra.Workqueue

open Library Relation

structure JobStep (now : UnixNano) (row row' : JobRow) (db db' : DB) : Prop where
  moved : JobMove now row row'
  replaced : Table.Replaces db.jobs db'.jobs row row'
  rest : db' = { db with jobs := db'.jobs }

variable {db db' : DB} {now : UnixNano} {row : JobRow} {dependencies settled : List String}
  {reason : Reason} {state : State} {id : String}

theorem updateJobs_step {picks : JobRow → Bool} {assign : JobRow → JobRow}
    {keepsID : ∀ row, (assign row).id = row.id}
    {keepsKey : ∀ row, (assign row).idempotencyKey = row.idempotencyKey}
    (member : row ∈ db.jobs) (picked : picks row = true)
    (only : ∀ other, picks other = true → other.id = row.id) (moved : JobMove now row (assign row)) :
    JobStep now row (assign row) db (db.updateJobs picks assign keepsID keepsKey) where
  moved := moved
  replaced := Table.update_replaces keepsID keepsKey member picked fun other _ => only other
  rest := rfl

def Move (now : UnixNano) (db db' : DB) : Prop := ∃ row row', JobStep now row row' db db'

abbrev Moves (now : UnixNano) : DB → DB → Prop := ReflTransGen (Move now)

def Settle (now : UnixNano) (db db' : DB) : Prop :=
  ∃ row row', JobStep now row row' db db' ∧ row.state = .blocked ∧
    (row'.state = .queued ∨ row'.state = .failed)

abbrev Settles (now : UnixNano) : DB → DB → Prop := ReflTransGen (Settle now)

theorem Settles.moves (settles : Settles now db db') : Moves now db db' :=
  ReflTransGen.mono (fun _ _ ⟨row, row', step, _⟩ => ⟨row, row', step⟩) _ _ settles

theorem Settles.keeps (settles : Settles now db db')
    (member : row ∈ db.jobs) (state : row.state ≠ .blocked) : row ∈ db'.jobs := by
  induction settles with
  | refl => exact member
  | tail _ settle ih =>
    obtain ⟨other, other', step, blocked, -⟩ := settle
    refine step.replaced.mem_of_ne ih fun same => state ?_
    rw [Table.eq_of_key ih step.replaced.old_mem same]
    exact blocked

theorem Moves.sameTables (moves : Moves now db db') : db' = { db with jobs := db'.jobs } := by
  induction moves with
  | refl => rfl
  | tail _ move ih =>
    obtain ⟨row, row', step⟩ := move
    rw [step.rest, ih]

theorem scanDependencies_cases {blocked : Bool}
    (scanned : db.scanDependencies blocked dependencies = .ok (state, reason)) :
    (state = .blocked ∧ reason = .dependencyPending) ∨ (state = .queued ∧ reason = .none) ∨
      (state = .failed ∧ reason = .dependencyFailed) := by
  induction dependencies generalizing blocked with
  | nil =>
    cases blocked <;> simp only [DB.scanDependencies, Except.ok.injEq, Prod.mk.injEq] at scanned
    · exact .inr (.inl ⟨scanned.1.symm, scanned.2.symm⟩)
    · exact .inl ⟨scanned.1.symm, scanned.2.symm⟩
  | cons dependency rest ih =>
    simp only [DB.scanDependencies, ok_iff] at scanned
    obtain ⟨found, -, job, -, scanned⟩ := scanned
    split at scanned
    · exact ih scanned
    · simp only [Except.ok.injEq, Prod.mk.injEq] at scanned
      exact .inr (.inr ⟨scanned.1.symm, scanned.2.symm⟩)
    · simp only [Except.ok.injEq, Prod.mk.injEq] at scanned
      exact .inr (.inr ⟨scanned.1.symm, scanned.2.symm⟩)
    · exact ih scanned

theorem dependencyState_cases (decided : db.dependencyState dependencies = .ok (state, reason)) :
    (state = .blocked ∧ reason = .dependencyPending) ∨ (state = .queued ∧ reason = .none) ∨
      (state = .failed ∧ reason = .dependencyFailed) :=
  scanDependencies_cases decided

inductive Visit (now : UnixNano) (id : String) (db : DB) : DB → List String → Prop where
  | skipped {row : JobRow} (member : row ∈ db.jobs) (named : row.id = id)
      (state : row.state ≠ .blocked) : Visit now id db db []
  | pending {row : JobRow} {reason : Reason} (member : row ∈ db.jobs) (named : row.id = id)
      (state : row.state = .blocked)
      (decided : db.dependencyState (db.dependencyIDs id) = .ok (.blocked, reason)) :
      Visit now id db db []
  | woken {row row' : JobRow} {reason : Reason} {db' : DB} (named : row.id = id)
      (state : row.state = .blocked)
      (decided : db.dependencyState (db.dependencyIDs id) = .ok (.queued, reason))
      (step : JobStep now row row' db db') (target : row'.state = .queued) : Visit now id db db' []
  | failed {row row' : JobRow} {reason : Reason} {db' : DB} (named : row.id = id)
      (state : row.state = .blocked)
      (decided : db.dependencyState (db.dependencyIDs id) = .ok (.failed, reason))
      (step : JobStep now row row' db db') (target : row'.state = .failed) :
      Visit now id db db' [id]

theorem propagateTo_visit
    (visited : propagateTo now db id = .ok (db', settled)) : Visit now id db db' settled := by
  simp only [propagateTo, ok_iff] at visited
  obtain ⟨_, read, job, rfl, visited⟩ := visited
  obtain ⟨row, member, named, rfl⟩ := jobByID_eq_some read
  have sameState : row.job.state = row.state := rfl
  rw [sameState] at visited
  split at visited
  · rename_i state
    simp only [ok_iff] at visited
    obtain ⟨rfl, rfl⟩ := visited
    exact .skipped member named state
  rename_i state
  rw [not_not] at state
  simp only [ok_iff] at visited
  obtain ⟨⟨target, reason⟩, decided, visited⟩ := visited
  split at visited
  · rename_i pending
    simp only [ok_iff] at visited
    obtain ⟨rfl, rfl⟩ := visited
    have pending : target = .blocked := pending
    exact .pending member named state (pending ▸ decided)
  simp only [ok_iff] at visited
  obtain ⟨-, -, rfl, rfl⟩ := visited
  rename_i unblocked
  have picked : (decide (row.id = id) && decide (row.state = .blocked)) = true := by
    simp [named, state]
  have only : ∀ other : JobRow,
      (decide (other.id = id) && decide (other.state = .blocked)) = true → other.id = row.id := by
    intro other both
    simp only [bool_iff] at both
    exact both.1.trans named.symm
  rcases dependencyState_cases decided with ⟨rfl, -⟩ | ⟨rfl, rfl⟩ | ⟨rfl, rfl⟩
  · exact absurd rfl unblocked
  · exact .woken named state decided (updateJobs_step member picked only (.wake state)) rfl
  · exact .failed named state decided
      (updateJobs_step member picked only (.failDependency state)) rfl

theorem Visit.settles (visit : Visit now id db db' settled) : Settles now db db' := by
  cases visit with
  | skipped => exact .refl
  | pending => exact .refl
  | woken _ state _ step target => exact .single ⟨_, _, step, state, .inl target⟩
  | failed _ state _ step target => exact .single ⟨_, _, step, state, .inr target⟩

theorem propagateAll_settles {ids : List String} (run : propagateAll now db ids = .ok (db', settled)) :
    Settles now db db' := by
  induction ids generalizing db settled with
  | nil =>
    simp only [propagateAll, Except.ok.injEq, Prod.mk.injEq] at run
    exact run.1 ▸ .refl
  | cons id ids ih =>
    simp only [propagateAll, ok_iff] at run
    obtain ⟨⟨middle, first⟩, visited, ⟨last, later⟩, rest, rfl, -⟩ := run
    exact (propagateTo_visit visited).settles.trans (ih rest)

theorem propagateLoop_settles {bound : Nat} {queue seen : List String}
    (run : propagateLoop now bound queue seen db = .ok db') : Settles now db db' := by
  induction bound generalizing queue seen db with
  | zero =>
    simp only [propagateLoop, Except.ok.injEq] at run
    exact run ▸ .refl
  | succ bound ih =>
    cases queue with
    | nil =>
      simp only [propagateLoop, Except.ok.injEq] at run
      exact run ▸ .refl
    | cons dependency queue =>
      simp only [propagateLoop] at run
      split at run
      · exact ih run
      · simp only [ok_iff] at run
        obtain ⟨⟨middle, settled⟩, first, rest⟩ := run
        exact (propagateAll_settles first).trans (ih rest)

theorem propagate_settles (run : propagate db id now = .ok db') : Settles now db db' :=
  propagateLoop_settles run

end Aeontra.Workqueue
