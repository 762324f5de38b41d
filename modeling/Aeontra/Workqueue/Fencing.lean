import Aeontra.Workqueue.Soundness

/-!
Leases and fences over whole runs.

A grant is a lease that a call returns under the identity drawn in that call; a worker that asks
again for the lease it holds is told the same lease, which is no grant.
-/

namespace Aeontra.Workqueue

open Library List

structure Grant where
  jobID : String
  leaseID : String
  fence : Nat
  deriving DecidableEq

section

variable {O : Type}

def Call.leaseID : Call O → Option String
  | .leaseNext _ _ _ _ draw | .leaseTaskWorker _ _ _ _ _ draw => some (randomID "wl_" draw)
  | _ => none

/-- A lease that a call presents, and the reading of the clock it is checked against. -/
structure Presentation where
  jobID : String
  leaseID : String
  fence : Nat
  reading : UnixNano

def Call.presents : Call O → Option Presentation
  | .heartbeat jobID leaseID fence _ now => some ⟨jobID, leaseID, fence, now⟩
  | .complete jobID leaseID fence _ checked _ => some ⟨jobID, leaseID, fence, checked⟩
  | .bindTaskWorkerOperation binding now =>
    some ⟨binding.jobID, binding.leaseID, binding.fence, now⟩
  | .bindTaskWorker binding now => some ⟨binding.jobID, binding.leaseID, binding.fence, now⟩
  | .saveDevelopmentRunnerEffect effect leaseID fence checked _ =>
    some ⟨effect.jobID, leaseID, fence, checked⟩
  | _ => none

def Reply.lease? : Reply O → Option Grant
  | .lease l => some ⟨l.job.id, l.id, l.fence⟩
  | .worker w => some ⟨w.jobID, w.leaseID, w.fence⟩
  | _ => none

variable [ObjectiveRecords O]

def Store.grant (s : Store) (call : Call O) : Option Grant :=
  match (s.exec call).1 with
  | .ok reply => reply.lease?.filter fun g => call.leaseID = some g.leaseID
  | .error _ => none

def Store.grants (s : Store) : List (Call O) → List Grant
  | [] => []
  | call :: calls => (s.grant call).toList ++ (s.exec call).2.grants calls

theorem grant_leaseID {s : Store} {call : Call O} {g : Grant} (granted : s.grant call = some g) :
    call.leaseID = some g.leaseID := by
  unfold Store.grant at granted
  split at granted
  · rw [Option.filter_eq_some_iff, decide_eq_true_eq] at granted
    exact granted.2
  · cases granted

end

def grantsOf (jobID : String) (history : List Grant) : List Grant := history.filter fun g => g.jobID = jobID

theorem grantsOf_append (jobID : String) (first second : List Grant) :
    grantsOf jobID (first ++ second) = grantsOf jobID first ++ grantsOf jobID second :=
  filter_append ..

theorem grantsOf_self (g : Grant) : grantsOf g.jobID [g] = [g] := by
  simp [grantsOf]

variable {g : Grant} {jobID holder leaseID : String} {row row' : JobRow} {expires : UnixNano} {s : Store}
  {draw : Draw} {ttl : Duration} {fence : Nat}

theorem grantsOf_other (other : g.jobID ≠ jobID) : grantsOf jobID [g] = [] := by
  simp [grantsOf, other]

structure Ledger (db : DB) (history : List Grant) : Prop where
  known : ∀ g ∈ history, ∃ row ∈ db.jobs, row.id = g.jobID
  numbered : ∀ jobID, (grantsOf jobID history).map Grant.fence =
    range' 1 (grantsOf jobID history).length
  counted : ∀ row ∈ db.jobs, row.fence = (grantsOf row.id history).length
  latest : ∀ row ∈ db.jobs, row.state = .leased → ∃ leaseID, row.leaseID = some leaseID ∧
    (grantsOf row.id history).getLast? = some ⟨row.id, leaseID, row.fence⟩

variable {O : Type} {config : Config} {call : Call O} {db db' : DB} {now : UnixNano} {history : List Grant}

theorem Ledger.empty : Ledger DB.empty [] where
  known := by simp
  numbered := by simp [grantsOf]
  counted := fun row member => absurd member (Table.not_mem_empty row)
  latest := fun row member => absurd member (Table.not_mem_empty row)

theorem JobMove.leased_target (moved : JobMove now row row') (target : row'.state = .leased) :
    (row.state = .leased ∧ row'.leaseID = row.leaseID ∧ row'.fence = row.fence) ∨
      row.state = .queued ∧ row'.fence = row.fence + 1 := by
  cases moved with
  | lease state => exact .inr ⟨state, rfl⟩
  | extend state => exact .inl ⟨state, rfl, rfl⟩
  | requestCancel state => exact .inl ⟨state, rfl, rfl⟩
  | complete state => exact .inl ⟨state, rfl, rfl⟩
  | recover state =>
    unfold recovery JobRow.recover at target
    split at target
    · cases target
    · split at target <;> cases target
  | cancel => cases target
  | wake => cases target
  | failDependency => cases target
  | failGoal => cases target

variable (ledger : Ledger db history)

include ledger

theorem Ledger.job
    (step : JobStep now row row' db db') (ungranted : row.state = .queued → row'.state ≠ .leased) :
    Ledger db' history := by
  have sameID := step.moved.sameID
  have sameFence : row'.fence = row.fence := by
    rcases step.moved.fence_eq with ⟨same, -⟩ | ⟨queued, raised, -⟩
    · exact same
    have target := ungranted queued
    cases step.moved with
    | lease => exact absurd rfl target
    | _ => rfl
  refine ⟨?_, ledger.numbered, ?_, ?_⟩
  · intro g member
    obtain ⟨old, inside, named⟩ := ledger.known g member
    obtain ⟨new, present, same⟩ := step.replaced.exists_key inside
    exact ⟨new, present, same.trans named⟩
  · intro other member
    rcases step.replaced.mem_or_eq member with old | rfl
    · exact ledger.counted other old
    · rw [sameFence, sameID]
      exact ledger.counted row step.replaced.old_mem
  intro other member leased
  rcases step.replaced.mem_or_eq member with old | rfl
  · exact ledger.latest other old leased
  rcases step.moved.leased_target leased with ⟨before, sameLease, -⟩ | ⟨queued, -⟩
  · obtain ⟨leaseID, lease, last⟩ := ledger.latest row step.replaced.old_mem before
    exact ⟨leaseID, sameLease.trans lease, by rw [sameID, sameFence]; exact last⟩
  · exact absurd leased (ungranted queued)

theorem Ledger.grow (kept : ∀ row ∈ db.jobs, row ∈ db'.jobs)
    (fresh : ∀ row ∈ db'.jobs, row ∈ db.jobs ∨
      (∀ old ∈ db.jobs, old.id ≠ row.id) ∧ row.fence = 0 ∧ row.state ≠ .leased) :
    Ledger db' history := by
  refine ⟨?_, ledger.numbered, ?_, ?_⟩
  · intro g member
    obtain ⟨row, inside, named⟩ := ledger.known g member
    exact ⟨row, kept row inside, named⟩
  · intro row member
    rcases fresh row member with old | ⟨absent, zero, -⟩
    · exact ledger.counted row old
    have none : grantsOf row.id history = [] := by
      refine filter_eq_nil_iff.mpr ?_
      intro g listed same
      rw [decide_eq_true_eq] at same
      obtain ⟨old, inside, named⟩ := ledger.known g listed
      exact absent old inside (named.trans same)
    rw [zero, none]
    rfl
  · intro row member leased
    rcases fresh row member with old | ⟨-, -, unleased⟩
    · exact ledger.latest row old leased
    · exact absurd leased unleased

theorem Ledger.congr (jobs : db'.jobs = db.jobs) : Ledger db' history := by
  refine ledger.grow ?_ ?_
  · intro row member
    rwa [jobs]
  · intro row member
    rw [jobs] at member
    exact .inl member

theorem Ledger.effect (kept : call.sweeps = false)
    (ungranting : call.grants = false) (effect : Effect config call db db') : Ledger db' history := by
  cases effect with
  | job reading step granted =>
    refine ledger.job step ?_
    intro queued leased
    rw [granted queued leased] at ungranting
    cases ungranting
  | admission called admits =>
    obtain ⟨state, reason, decided, inserted⟩ := admits.inserted
    obtain ⟨absent, -, -⟩ := Table.insert_eq_some.mp inserted
    refine ledger.grow ?_ ?_
    · intro row member
      exact (Table.mem_insert inserted).mpr (.inl member)
    intro row member
    rcases (Table.mem_insert inserted).mp member with old | rfl
    · exact .inl old
    · refine .inr ⟨absent, rfl, ?_⟩
      rcases dependencyState_cases decided with ⟨rfl, -⟩ | ⟨rfl, -⟩ | ⟨rfl, -⟩ <;>
        simp [admittedRow]
  | create called creates =>
    have rows := creates.jobs
    refine ledger.grow ?_ ?_
    · intro row member
      change row ∈ db'.jobs.rows
      rw [rows]
      exact mem_append_left _ member
    intro row member
    change row ∈ db'.jobs.rows at member
    rw [rows, mem_append] at member
    rcases member with old | new
    · exact .inl old
    have keyed := db'.jobs.keyed
    rw [rows, map_append, nodup_append] at keyed
    refine .inr ⟨?_, ?_, ?_⟩
    · intro old inside same
      exact keyed.2.2 _ (mem_map_of_mem inside) _ (mem_map_of_mem new) same
    · obtain ⟨ordinal, -, rfl⟩ := mem_map.mp new
      rfl
    · obtain ⟨ordinal, -, rfl⟩ := mem_map.mp new
      simp [workerJobRow, admittedRow]
  | sweep called sweeps =>
    subst called
    cases kept
  | task step | development step => exact ledger.congr (by rw [step.rest])

omit ledger

theorem Ledger.lease (ledger : Ledger db history)
    (step : JobStep now row (row.leaseTo leaseID holder expires now) db db') :
    Ledger db' (history ++ [⟨row.id, leaseID, row.fence + 1⟩]) := by
  have before := ledger.counted row step.replaced.old_mem
  have split : ∀ jobID, jobID = row.id ∨ grantsOf jobID (history ++ [⟨row.id, leaseID, row.fence + 1⟩]) =
      grantsOf jobID history := by
    intro jobID
    by_cases same : jobID = row.id
    · exact .inl same
    · refine .inr ?_
      rw [grantsOf_append, grantsOf_other (Ne.symm same), append_nil]
  have own : grantsOf row.id (history ++ [⟨row.id, leaseID, row.fence + 1⟩]) =
      grantsOf row.id history ++ [⟨row.id, leaseID, row.fence + 1⟩] := by
    rw [grantsOf_append]
    exact congrArg _ (grantsOf_self ⟨row.id, leaseID, row.fence + 1⟩)
  refine ⟨?_, ?_, ?_, ?_⟩
  · intro g member
    rcases mem_append.mp member with old | new
    · obtain ⟨other, inside, named⟩ := ledger.known g old
      obtain ⟨kept, present, same⟩ := step.replaced.exists_key inside
      exact ⟨kept, present, same.trans named⟩
    · rw [mem_singleton.mp new]
      exact ⟨_, step.replaced.new_mem, rfl⟩
  · intro jobID
    rcases split jobID with rfl | same
    · rw [own, map_append, ledger.numbered, length_append, length_singleton,
        range'_1_concat, map_singleton, before, Nat.add_comm 1]
    · rw [same]
      exact ledger.numbered jobID
  · intro other member
    rcases step.replaced.mem_iff.mp member with rfl | ⟨old, different⟩
    · change row.fence + 1 = (grantsOf row.id _).length
      rw [own, length_append, before]
      rfl
    · rw [(split other.id).resolve_left different]
      exact ledger.counted other old
  · intro other member leased
    rcases step.replaced.mem_iff.mp member with rfl | ⟨old, different⟩
    · refine ⟨leaseID, rfl, ?_⟩
      change (grantsOf row.id _).getLast? = _
      rw [own, getLast?_concat]
      rfl
    · rw [(split other.id).resolve_left different]
      exact ledger.latest other old leased

theorem Ledger.recovered (ledger : Ledger db history) (run : recoverExpired db now = .ok db') :
    Ledger db' history := by
  -- Recovery takes nothing from the configuration or the call but its reading of the clock.
  have path : Path smallConfig (.recoverExpired now : Call Empty) db db' :=
    recoverExpired_path mem_cons_self run
  have each : ∀ db db', Effect smallConfig (.recoverExpired now : Call Empty) db db' →
      Ledger db history → Ledger db' history := by
    intro before after effect held
    exact held.effect rfl rfl effect
  exact path_of_effects each path ledger

theorem Ledger.grants (ledger : Ledger db history) (grant : Grants holder leaseID expires now db db' row) :
    Ledger db' (history ++ [⟨row.id, leaseID, row.fence + 1⟩]) := by
  obtain ⟨middle, recovered, step⟩ := grant.recovered
  exact (ledger.recovered recovered).lease step

variable [ObjectiveRecords O]

theorem grant_of_ungranting (ungranting : call.grants = false) : s.grant call = none := by
  have unnamed : call.leaseID = none := by
    cases call <;> first | rfl | cases ungranting
  unfold Store.grant
  split
  · rw [unnamed]
    simp
  · rfl

theorem exec_leaseNext_ledger {pool : String} (ledger : Ledger s.db history) :
    Ledger (s.exec (.leaseNext pool holder ttl now draw : Call O)).2.db
      (history ++ (s.grant (.leaseNext pool holder ttl now draw : Call O)).toList) := by
  simp only [Store.grant, Store.exec, reply]
  rcases leaseNext_cases s pool holder ttl now draw with ⟨e, failed, either⟩ | ⟨row, grant, answer⟩
  · simp only [failed, Except.map, Option.toList_none, append_nil]
    rcases either with same | recovered
    · rw [same]
      exact ledger
    · exact ledger.recovered recovered
  · simp only [answer, Except.map, Reply.lease?, Call.leaseID, decide_true, Option.filter_some, if_true,
      Option.toList_some]
    exact ledger.grants grant

theorem exec_leaseTaskWorker_ledger {taskID : String} {ordinal : Int} (ledger : Ledger s.db history)
    (unused : ∀ g ∈ history, g.leaseID ≠ randomID "wl_" draw) :
    Ledger (s.exec (.leaseTaskWorker taskID ordinal holder ttl now draw : Call O)).2.db
      (history ++ (s.grant (.leaseTaskWorker taskID ordinal holder ttl now draw : Call O)).toList) := by
  simp only [Store.grant, Store.exec, reply, Store.leaseTaskWorker, Store.transact]
  cases run : leaseTaskWorkerTx taskID ordinal holder ttl now draw s.db with
  | error e =>
    simp only [Except.map, Option.toList_none, append_nil]
    exact ledger
  | ok outcome =>
    obtain ⟨answer, db'⟩ := outcome
    obtain ⟨w, worker, rfl, -, sameJob, held | granted⟩ := leaseTaskWorkerTx_cases run
    · obtain ⟨recovered, -, row, member, -, leased, lease⟩ := held
      have after := ledger.recovered recovered
      obtain ⟨leaseID, stored, last⟩ := after.latest row member leased
      have other : leaseID ≠ randomID "wl_" draw := unused _ (List.mem_filter.mp (mem_of_getLast? last)).1
      have mismatch : ¬ (some (randomID "wl_" draw) = some worker.leaseID) := by
        rw [lease, stored, Option.some.injEq]
        exact Ne.symm other
      simp only [Except.map, Reply.lease?, Call.leaseID, Option.filter_some, mismatch, decide_false,
        Bool.false_eq_true, if_false, Option.toList_none, append_nil]
      exact after
    · obtain ⟨row, grant, sameRow, lease, fence⟩ := granted
      have after := ledger.grants grant
      simp only [Except.map, Reply.lease?, Call.leaseID, Option.filter_some, lease, decide_true, if_true,
        Option.toList_some, sameJob, ← sameRow, fence]
      exact after

theorem exec_ledger (kept : call.sweeps = false)
    (unused : ∀ leaseID, call.leaseID = some leaseID → ∀ g ∈ history, g.leaseID ≠ leaseID)
    (ledger : Ledger s.db history) : Ledger (s.exec call).2.db (history ++ (s.grant call).toList) := by
  cases granting : call.grants with
  | false =>
    rw [grant_of_ungranting granting, Option.toList_none, append_nil]
    have each : ∀ db db', Effect s.config call db db' → Ledger db history → Ledger db' history := by
      intro before after effect held
      exact held.effect kept granting effect
    exact path_of_effects each (exec_path s call) ledger
  | true =>
    cases call with
    | leaseNext pool holder ttl now draw => exact exec_leaseNext_ledger ledger
    | leaseTaskWorker taskID ordinal holder ttl now draw =>
      exact exec_leaseTaskWorker_ledger ledger (unused _ rfl)
    | _ => cases granting

theorem run_ledger {calls : List (Call O)} (kept : ∀ call ∈ calls, call.sweeps = false)
    (fresh : (calls.filterMap Call.leaseID).Nodup)
    (unused : ∀ g ∈ history, g.leaseID ∉ calls.filterMap Call.leaseID) (ledger : Ledger s.db history) :
    Ledger (s.run calls).db (history ++ s.grants calls) := by
  induction calls generalizing s history with
  | nil =>
    rw [Store.grants, append_nil]
    exact ledger
  | cons call calls ih =>
    have here : ∀ leaseID, call.leaseID = some leaseID → ∀ g ∈ history, g.leaseID ≠ leaseID := by
      intro leaseID drawn g member same
      refine unused g member ?_
      rw [filterMap_cons_some drawn, same]
      exact mem_cons_self
    rw [Store.grants, ← append_assoc]
    refine ih (fun later member => kept later (mem_cons_of_mem call member)) ?_ ?_
      (exec_ledger (kept call mem_cons_self) here ledger)
    · cases drawn : call.leaseID with
      | none => rwa [filterMap_cons_none drawn] at fresh
      | some leaseID =>
        rw [filterMap_cons_some drawn] at fresh
        exact (nodup_cons.mp fresh).2
    intro g member again
    rcases mem_append.mp member with old | new
    · refine unused g old ?_
      cases drawn : call.leaseID with
      | none => rwa [filterMap_cons_none drawn]
      | some leaseID =>
        rw [filterMap_cons_some drawn]
        exact mem_cons_of_mem _ again
    · have drawn := grant_leaseID (Option.mem_toList.mp new)
      rw [filterMap_cons_some drawn] at fresh
      exact (nodup_cons.mp fresh).1 again

omit [ObjectiveRecords O] in
theorem transact_changed {α : Type} {body : DB → Except String (Except String α × DB)}
    (changed : (s.transact body).2.db ≠ s.db) : ∃ answer db', body s.db = .ok (answer, db') ∧ db' ≠ s.db := by
  unfold Store.transact at changed
  split at changed
  · exact absurd rfl changed
  · rename_i answer db' run
    exact ⟨answer, db', run, changed⟩

theorem Fenced.presents {w : TaskWorkerRow}
    (fenced : Fenced db w leaseID fence now row) (sameJob : w.jobID = jobID)
    (valid : leaseIDPattern.matchString leaseID = true) : Presents db jobID leaseID fence now row where
  member := fenced.member
  named := fenced.named.trans sameJob
  state := fenced.state
  lease := leaseID_of_getD fenced.lease valid
  fence := fenced.fence
  unexpired := unexpired_of_time fenced.unexpired

theorem exec_presents {p : Presentation} (sound : SoundJobs s.db)
    (presents : call.presents = some p) (changed : (s.exec call).2.db ≠ s.db) :
    ∃ row, Presents s.db p.jobID p.leaseID p.fence p.reading row := by
  cases call with
  | heartbeat jobID leaseID fence ttl now =>
    cases presents
    obtain ⟨answer, db', run, -⟩ := transact_changed changed
    obtain ⟨row, presents, -⟩ := heartbeatTx_cases run
    exact ⟨row, presents⟩
  | complete jobID leaseID fence result checked now =>
    cases presents
    obtain ⟨answer, db', run, changed⟩ := transact_changed changed
    rcases completeTx_cases run with same | ⟨row, outcome, middle, presents, -⟩
    · exact absurd same changed
    · exact ⟨row, presents⟩
  | bindTaskWorkerOperation binding now =>
    cases presents
    obtain ⟨answer, db', run, -⟩ := transact_changed changed
    obtain ⟨valid, w, -, sameJob, ⟨row, fenced⟩, -⟩ := bindTaskWorkerOperationTx_cases run
    exact ⟨row, fenced.presents sameJob valid⟩
  | bindTaskWorker binding now =>
    cases presents
    obtain ⟨answer, db', run, -⟩ := transact_changed changed
    obtain ⟨valid, w, -, sameJob, ⟨row, fenced⟩, -⟩ := bindTaskWorkerTx_cases run
    exact ⟨row, fenced.presents sameJob valid⟩
  | saveDevelopmentRunnerEffect effect leaseID fence checked now =>
    cases presents
    obtain ⟨answer, db', run, -⟩ := transact_changed changed
    obtain ⟨⟨row, member, named, state, lease, fenced, unexpired⟩, -⟩ :=
      saveDevelopmentRunnerEffectTx_cases (O := O) run
    obtain ⟨stored, column, -⟩ := (sound row member).lease state
    rw [column] at lease
    exact ⟨row, member, named, state, column.trans (congrArg some lease), fenced, unexpired_of_time unexpired⟩
  | _ => cases presents

/-- The job has gone past a fence: it has a larger one, or is no longer leased under it. -/
def Passed (jobID : String) (fence : Nat) (db : DB) : Prop :=
  ∃ row ∈ db.jobs, row.id = jobID ∧ (fence < row.fence ∨ fence = row.fence ∧ row.state ≠ .leased)

omit [ObjectiveRecords O] in
theorem Passed.effect (passed : Passed jobID fence db)
    (kept : call.sweeps = false) (effect : Effect config call db db') : Passed jobID fence db' := by
  obtain ⟨row, member, named, finished⟩ := passed
  obtain ⟨new, member', sameID, rfl | ⟨now, moved⟩⟩ := effect.job_survives (.inl kept) member
  · exact ⟨new, member', named, finished⟩
  refine ⟨new, member', sameID.trans named, ?_⟩
  have grows : row.fence ≤ new.fence := by
    rcases moved.fence_eq with ⟨fenceEq, -⟩ | ⟨-, raised, -⟩ <;> omega
  rcases finished with larger | ⟨equal, unleased⟩
  · exact .inl (by omega)
  by_cases leased : new.state = .leased
  · rcases moved.leased_target leased with ⟨before, -⟩ | ⟨-, raised⟩
    · exact absurd before unleased
    · exact .inl (by omega)
  · rcases Nat.lt_or_eq_of_le grows with larger | same
    · exact .inl (by omega)
    · exact .inr ⟨by omega, leased⟩

theorem Ledger.passed (ledger : Ledger db history) (granted : g ∈ history)
    (finished : ∀ row ∈ db.jobs, row.id = g.jobID → row.state = .leased →
      row.leaseID = some g.leaseID → row.fence ≠ g.fence) : Passed g.jobID g.fence db := by
  obtain ⟨row, member, named⟩ := ledger.known g granted
  have counted := ledger.counted row member
  have numbered := ledger.numbered g.jobID
  rw [named] at counted
  have inside : g ∈ grantsOf g.jobID history := mem_filter.mpr ⟨granted, by simp⟩
  have bound : g.fence ≤ row.fence := by
    have listed : g.fence ∈ (grantsOf g.jobID history).map Grant.fence := mem_map_of_mem inside
    rw [numbered, mem_range'_1] at listed
    omega
  refine ⟨row, member, named, ?_⟩
  rcases Nat.lt_or_eq_of_le bound with larger | equal
  · exact .inl larger
  refine .inr ⟨equal, ?_⟩
  intro leased
  obtain ⟨leaseID, lease, last⟩ := ledger.latest row member leased
  -- The fences of a job's grants are distinct, so the last grant is `g` itself.
  have distinct : ((grantsOf g.jobID history).map Grant.fence).Nodup := by
    rw [numbered]
    exact nodup_range'
  have same : (⟨row.id, leaseID, row.fence⟩ : Grant) = g := by
    rw [named] at last
    refine inj_on_of_nodup_map distinct ?_ inside equal.symm
    rw [named]
    exact mem_of_getLast? last
  refine finished row member named leased ?_ equal.symm
  rw [lease, ← same]

/-- What fencing promises in a state that a run has reached with this history of grants. -/
structure FencingHolds (O : Type) [ObjectiveRecords O] (s : Store) (history : List Grant) : Prop where
  /-- Every grant carries a larger fence than the grants of its job before it. -/
  increasing : ∀ jobID, ((grantsOf jobID history).map Grant.fence).Pairwise (· < ·)
  counted : ∀ row ∈ s.db.jobs, row.fence = (grantsOf row.id history).length ∧
    row.fence ≤ maxLeaseAttempts
  /-- Only the latest grant, before it expires, lets a call change anything. -/
  current : ∀ (call : Call O) (p : Presentation), call.presents = some p →
    (s.exec call).2.db ≠ s.db →
    (grantsOf p.jobID history).getLast? = some ⟨p.jobID, p.leaseID, p.fence⟩ ∧
      ∃ row ∈ s.db.jobs, row.id = p.jobID ∧ row.state = .leased ∧
        ∃ expires, row.leaseUntil = some expires ∧ p.reading < expires
  /-- A grant that its job no longer holds stays without effect in every later state. -/
  stale : ∀ g ∈ history, (∀ row ∈ s.db.jobs, row.id = g.jobID → row.state = .leased →
      row.leaseID = some g.leaseID → row.fence ≠ g.fence) →
    ∀ later : List (Call O), (∀ call ∈ later, call.sweeps = false) →
    ∀ (call : Call O) (reading : UnixNano),
      call.presents = some ⟨g.jobID, g.leaseID, g.fence, reading⟩ →
      ((s.run later).exec call).2.db = (s.run later).db

def regrantCalls : List (Call Empty) :=
  [.enqueue (sampleSpec "key-aaaa" []) 0 (.ofTime 1),
    .leaseNext "pool" "holder-00" minLeaseTTL (.ofTime 2) 1,
    .leaseNext "pool" "holder-01" minLeaseTTL (.ofTime minute) 2]

end Aeontra.Workqueue
