import Aeontra.Workqueue.TaskChanges

/-!
The paths of the development operations, and of every call.
-/

namespace Aeontra.Workqueue

open Library Relation List

variable {O : Type} {config : Config} {call : Call O} {db db' : DB} {now : UnixNano}

theorem DevelopmentStep.refl (call : Call O) (db : DB) : DevelopmentStep call db db :=
  ⟨le_max_left _ _, le_max_left _ _, fun _ => rfl, fun _ => rfl, fun _ => rfl, rfl⟩

theorem DevelopmentStep.ofEffects (writes : call.writesEffects = true)
    (same : db' = { db with developmentRunnerEffects := db'.developmentRunnerEffects })
    (bounded : db'.developmentRunnerEffects.rows.length ≤
      max db.developmentRunnerEffects.rows.length maxDevelopmentRunnerEffects) :
    DevelopmentStep call db db' := by
  refine ⟨?_, bounded, fun _ => by rw [same], fun other => ?_, fun _ => by rw [same], by rw [same]⟩
  · rw [same]
    exact le_max_left _ _
  · rw [writes] at other
    cases other

theorem DevelopmentStep.ofRequests (writes : call.writesRequests = true)
    (same : db' = { db with developmentRequests := db'.developmentRequests }) :
    DevelopmentStep call db db' := by
  refine ⟨?_, ?_, fun _ => by rw [same], fun _ => by rw [same], fun other => ?_, by rw [same]⟩
  · rw [same]
    exact le_max_left _ _
  · rw [same]
    exact le_max_left _ _
  · rw [writes] at other
    cases other

theorem DevelopmentStep.ofObjectives (writes : call.writesObjectives = true)
    (same : db' = { db with developmentObjectives := db'.developmentObjectives })
    (bounded : db'.developmentObjectives.rows.length ≤
      max db.developmentObjectives.rows.length maxDevelopmentObjectives) :
    DevelopmentStep call db db' := by
  refine ⟨bounded, ?_, fun other => ?_, fun _ => by rw [same], fun _ => by rw [same], by rw [same]⟩
  · rw [same]
    exact le_max_left _ _
  · rw [writes] at other
    cases other

theorem saveDevelopmentRunnerEffectTx_cases {effect : DevelopmentRunnerEffect} {leaseID : String}
    {fence : Nat} {checked : UnixNano} {answer : Except String Bool}
    (run : saveDevelopmentRunnerEffectTx effect leaseID fence checked now db = .ok (answer, db')) :
    (∃ row ∈ db.jobs, row.id = effect.jobID ∧ row.state = .leased ∧ row.leaseID.getD "" = leaseID ∧
        row.fence = fence ∧ checked.time < row.job.leaseExpiresAt) ∧
      DevelopmentStep (.saveDevelopmentRunnerEffect effect leaseID fence checked now : Call O) db db' := by
  simp only [saveDevelopmentRunnerEffectTx, ok_iff, bool_iff, not_not] at run
  obtain ⟨-, -, _, read, job, rfl, -, ⟨⟨⟨⟨state, lease⟩, fenced⟩, -⟩, unexpired⟩, existing, -, run⟩ := run
  obtain ⟨row, member, named, rfl⟩ := jobByID_eq_some read
  refine ⟨⟨row, member, named, state, lease, fenced, unexpired⟩, ?_⟩
  split at run
  · simp only [ok_iff] at run
    obtain ⟨-, -, body, -, -, -, -, rfl⟩ := run
    refine .ofEffects rfl rfl ?_
    rw [Table.length_update]
    exact le_max_left _ _
  simp only [ok_iff, bool_iff, not_le, ge_iff_le] at run
  obtain ⟨-, -, -, room, body, -, -, -, effects, inserted, -, rfl⟩ := run
  refine .ofEffects rfl rfl ?_
  rw [Table.length_insert inserted]
  exact le_max_of_le_right room

theorem pruneDevelopmentRunnerEffectsTx_step {retained : List String} {answer : Except String Unit}
    (run : pruneDevelopmentRunnerEffectsTx retained now db = .ok (answer, db')) :
    DevelopmentStep (.pruneDevelopmentRunnerEffects retained now : Call O) db db' := by
  simp only [pruneDevelopmentRunnerEffectsTx, ok_iff] at run
  obtain ⟨-, -, -, -, removed, -, -, rfl⟩ := run
  exact .ofEffects rfl rfl ((Table.length_delete_le _ _).trans (le_max_left _ _))

variable {α : Type} {request : DevelopmentRequest} {s : Store} {holds : DB → Prop}
  {admissible : Call O → Prop} {calls : List (Call O)}

theorem updateRequest_step {oldRevision : Nat} {oldDigest digest conflict : String} {updatedAt : UnixNano}
    (run : db.updateRequest request oldRevision oldDigest digest updatedAt conflict = .ok db') :
    db' = { db with developmentRequests := db'.developmentRequests } := by
  simp only [DB.updateRequest, ok_iff] at run
  obtain ⟨-, -, rfl⟩ := run
  rfl

theorem saveDevelopmentRequestTx_step {answer : Except String (DevelopmentRequest × Bool)}
    (run : saveDevelopmentRequestTx request now db = .ok (answer, db')) :
    DevelopmentStep (.saveDevelopmentRequest request now : Call O) db db' := by
  simp only [saveDevelopmentRequestTx, ok_iff] at run
  obtain ⟨⟨body, digest⟩, -, existing, -, run⟩ := run
  refine .ofRequests rfl ?_
  split at run
  · simp only [ok_iff] at run
    obtain ⟨byKey, -, run⟩ := run
    split at run
    · simp only [ok_iff] at run
      obtain ⟨-, -, -, rfl⟩ := run
      rfl
    · simp only [ok_iff] at run
      obtain ⟨-, -, -, -, requests, -, -, rfl⟩ := run
      rfl
  · simp only [ok_iff] at run
    obtain ⟨-, -, ⟨body', oldDigest⟩, -, run⟩ := run
    split at run
    · simp only [ok_iff] at run
      obtain ⟨-, rfl⟩ := run
      rfl
    simp only [ok_iff] at run
    obtain ⟨-, -, row, -, updatedAt, -, last, updated, -, rfl⟩ := run
    rw [updateRequest_step updated]
    rfl

theorem touchDevelopmentRequestTx_step {requestID : String} {expectedRevision : Nat}
    {answer : Except String DevelopmentRequest}
    (run : touchDevelopmentRequestTx requestID expectedRevision now db = .ok (answer, db')) :
    DevelopmentStep (.touchDevelopmentRequest requestID expectedRevision now : Call O) db db' := by
  simp only [touchDevelopmentRequestTx, ok_iff] at run
  obtain ⟨-, -, row, -, request, -, -, -, old, -, digest, -, updatedAt, -, last, updated, -, rfl⟩ := run
  exact .ofRequests rfl (updateRequest_step updated)

theorem pruneExpiredDevelopmentObjectives_eq [ObjectiveRecords O]
    (run : pruneExpiredDevelopmentObjectives O db now = .ok db') :
    db'.developmentObjectives.rows.length ≤ db.developmentObjectives.rows.length ∧
      db' = { db with developmentObjectives := db'.developmentObjectives } := by
  simp only [pruneExpiredDevelopmentObjectives, ok_iff] at run
  obtain ⟨-, -, -, -, run⟩ := run
  split at run
  · simp only [ok_iff] at run
    subst run
    exact ⟨le_refl _, rfl⟩
  · simp only [ok_iff] at run
    obtain ⟨objectives, -, requests, -, live, -, rfl⟩ := run
    exact ⟨Table.length_delete_le _ _, rfl⟩

theorem saveDevelopmentObjectiveTx_step [ObjectiveRecords O] {objective : O} {answer : Except String (O × Bool)}
    (run : saveDevelopmentObjectiveTx objective now db = .ok (answer, db')) :
    DevelopmentStep (.saveDevelopmentObjective objective now) db db' := by
  simp only [saveDevelopmentObjectiveTx, ok_iff] at run
  obtain ⟨-, -, ⟨body, digest⟩, -, existing, -, run⟩ := run
  split at run
  · simp only [ok_iff, bool_iff, not_le, ge_iff_le] at run
    obtain ⟨-, -, pruned, prune, -, room, objectives, inserted, -, rfl⟩ := run
    obtain ⟨-, same⟩ := pruneExpiredDevelopmentObjectives_eq prune
    refine .ofObjectives rfl (by rw [same]) ?_
    rw [Table.length_insert inserted]
    exact le_max_of_le_right room
  · simp only [ok_iff] at run
    obtain ⟨⟨body', oldDigest⟩, -, -, -, run⟩ := run
    split at run
    · simp only [ok_iff] at run
      obtain ⟨-, rfl⟩ := run
      exact .refl _ db
    simp only [ok_iff] at run
    obtain ⟨-, -, -, -, -, rfl⟩ := run
    refine .ofObjectives rfl rfl ?_
    rw [Table.length_update]
    exact le_max_left _ _

theorem transact_path {body : DB → Except String (Except String α × DB)}
    (committed : ∀ answer db', body s.db = .ok (answer, db') → Path config call s.db db') :
    Path config call s.db (s.transact body).2.db := by
  unfold Store.transact
  split
  · exact .refl
  · rename_i answer db' run
    exact committed answer db' run

theorem transact_config (body : DB → Except String (Except String α × DB)) (s : Store) :
    (s.transact body).2.config = s.config := by
  unfold Store.transact
  split <;> rfl

variable [ObjectiveRecords O]

theorem exec_path (s : Store) (call : Call O) : Path s.config call s.db (s.exec call).2.db := by
  cases call with
  | enqueue spec draw now =>
    refine transact_path fun answer db' run => ?_
    rcases enqueueTx_cases run with rfl | admits
    · exact .refl
    · exact .single (.admission rfl admits)
  | createTask spec draw draws now =>
    simp only [Store.exec, reply, Store.createTask]
    refine transact_path fun answer db' run => ?_
    rcases createTaskTx_cases run with rfl | creates
    · exact .refl
    · exact .single (.create rfl creates)
  | leaseNext pool holder ttl now draw =>
    rcases leaseNext_cases s pool holder ttl now draw with ⟨e, -, same | recovered⟩ | ⟨row, grant, -⟩
    · simp only [Store.exec, reply, same]
      exact .refl
    · exact recoverExpired_path mem_cons_self recovered
    · exact grant.path mem_cons_self rfl
  | leaseTaskWorker taskID ordinal holder ttl now draw =>
    refine transact_path fun answer db' run => ?_
    obtain ⟨w, worker, -, -, -, ⟨recovered, -⟩ | ⟨row, grant, -⟩⟩ := leaseTaskWorkerTx_cases run
    · exact recoverExpired_path mem_cons_self recovered
    · exact grant.path mem_cons_self rfl
  | heartbeat jobID leaseID fence ttl now =>
    refine transact_path fun answer db' run => ?_
    obtain ⟨row, presents, step⟩ := heartbeatTx_cases run
    have leased := presents.state
    exact .single (.quiet mem_cons_self step (by simp [leased])
      (by simp [JobRow.extendLease, leased, terminal]) (by simp [leased]))
  | recoverExpired now =>
    refine transact_path fun answer db' run => ?_
    simp only [ok_iff] at run
    obtain ⟨last, recovered, -, rfl⟩ := run
    exact recoverExpired_path mem_cons_self recovered
  | complete jobID leaseID fence result checked now =>
    refine transact_path fun answer db' run => ?_
    rcases completeTx_cases run with rfl | ⟨row, outcome, middle, presents, ends, step, propagated⟩
    · exact .refl
    · refine .single (.settle (mem_cons_of_mem _ mem_cons_self) step ends ?_)
      rw [presents.named]
      exact propagated
  | cancel jobID now =>
    refine transact_path fun answer db' run => ?_
    rcases cancelTx_cases run with rfl | ⟨row, -, leased, step⟩ | ⟨row, middle, named, step, propagated⟩
    · exact .refl
    · exact .single (.quiet mem_cons_self step (by simp [leased])
        (by simp [JobRow.requestCancel, leased, terminal]) (by simp [leased]))
    · exact .single (.settle mem_cons_self step rfl (named ▸ propagated))
  | failUnstartedTaskWorker taskID ordinal now =>
    refine transact_path fun answer db' run => ?_
    rcases failUnstartedTaskWorkerTx_cases run with rfl | ⟨row, middle, step, propagated⟩
    · exact .refl
    · exact .single (.settle mem_cons_self step rfl propagated)
  | cleanupTerminal retention limit now =>
    refine transact_path fun answer db' run => ?_
    obtain ⟨ids, sweeps⟩ := cleanupTerminalTx_cases run
    exact .single (.sweep rfl sweeps)
  | bindTaskWorkerOperation binding now =>
    refine transact_path fun answer db' run => ?_
    obtain ⟨-, -, -, -, -, step⟩ := bindTaskWorkerOperationTx_cases run
    exact .single (.task step)
  | bindTaskWorker binding now =>
    refine transact_path fun answer db' run => ?_
    obtain ⟨-, -, -, -, -, step⟩ := bindTaskWorkerTx_cases run
    exact .single (.task step)
  | recordTaskWorkerAcceptance receipt now =>
    exact transact_path fun answer db' run => .single (.task (recordTaskWorkerAcceptanceTx_step run))
  | recordTaskWorkerTestReceipt receipt now =>
    exact transact_path fun answer db' run => .single (.task (recordTaskWorkerTestReceiptTx_step run))
  | recordTaskWorkerObjective receipt now =>
    exact transact_path fun answer db' run => .single (.task (recordTaskWorkerObjectiveTx_step run))
  | recordTaskIntegrationReceipt receipt now =>
    exact transact_path fun answer db' run => .single (.task (recordTaskIntegrationReceiptTx_step run))
  | markTaskWorkerWorktreeCleaned taskID ordinal leaseID fence now =>
    exact transact_path fun answer db' run => .single (.task (markTaskWorkerWorktreeCleanedTx_step run))
  | saveDevelopmentRunnerEffect effect leaseID fence checked now =>
    exact transact_path fun answer db' run =>
      .single (.development (saveDevelopmentRunnerEffectTx_cases run).2)
  | pruneDevelopmentRunnerEffects retained now =>
    exact transact_path fun answer db' run =>
      .single (.development (pruneDevelopmentRunnerEffectsTx_step run))
  | saveDevelopmentRequest request now =>
    exact transact_path fun answer db' run =>
      .single (.development (saveDevelopmentRequestTx_step run))
  | touchDevelopmentRequest requestID expectedRevision now =>
    exact transact_path fun answer db' run =>
      .single (.development (touchDevelopmentRequestTx_step run))
  | saveDevelopmentObjective objective now =>
    exact transact_path fun answer db' run =>
      .single (.development (saveDevelopmentObjectiveTx_step run))
  | reopen =>
    simp only [Store.exec, reply, reopen_db]
    exact .refl

theorem exec_config (s : Store) (call : Call O) : (s.exec call).2.config = s.config := by
  cases call with
  | leaseNext pool holder ttl now draw =>
    simp only [Store.exec, reply]
    exact leaseNext_config s pool holder ttl now draw
  | reopen => exact reopen_config s
  | _ => simp only [Store.exec, reply]; apply transact_config

theorem run_config (s : Store) (calls : List (Call O)) : (s.run calls).config = s.config := by
  induction calls generalizing s with
  | nil => rfl
  | cons call calls ih => rw [run_cons, ih, exec_config]

omit [ObjectiveRecords O] in
theorem path_preserves (each : ∀ db db', Change config call db db' → holds db → holds db')
    (path : Path config call db db') (start : holds db) : holds db' := by
  induction path with
  | refl => exact start
  | tail _ change ih => exact each _ _ change ih

/-- What every change of an admissible call preserves holds after every run of such calls. -/
theorem run_preserves
    (each : ∀ call db db', admissible call → Change s.config call db db' → holds db → holds db')
    (allowed : ∀ call ∈ calls, admissible call) (start : holds s.db) : holds (s.run calls).db := by
  induction calls generalizing s with
  | nil => exact start
  | cons call calls ih =>
    refine ih (fun later db db' admitted change => ?_)
      (fun later member => allowed later (mem_cons_of_mem call member)) ?_
    · rw [exec_config] at change
      exact each later db db' admitted change
    · exact path_preserves (fun db db' => each call db db' (allowed call mem_cons_self))
        (exec_path s call) start

inductive Effect (config : Config) (call : Call O) : DB → DB → Prop where
  | job {db db' : DB} {row row' : JobRow} {now : UnixNano} (reading : now ∈ call.readings)
      (step : JobStep now row row' db db')
      (granted : row.state = .queued → row'.state = .leased → call.grants = true) :
      Effect config call db db'
  | admission {db db' : DB} {spec : Spec} {draw : Draw} {now : UnixNano}
      (called : call = .enqueue spec draw now) (admits : Admits config spec draw now db db') :
      Effect config call db db'
  | create {db db' : DB} {spec : TaskSpec} {draw : Draw} {draws : Nat → Draw} {now : UnixNano}
      (called : call = .createTask spec draw draws now)
      (creates : Creates config (normalizeTaskSpec spec) draw draws now db db') :
      Effect config call db db'
  | sweep {db db' : DB} {retention : Duration} {limit : Int} {now : UnixNano}
      (called : call = .cleanupTerminal retention limit now) {ids : List String}
      (sweeps : Sweeps ids db db') : Effect config call db db'
  | task {db db' : DB} (step : TaskStep db db') : Effect config call db db'
  | development {db db' : DB} (step : DevelopmentStep call db db') : Effect config call db db'

omit [ObjectiveRecords O] in
theorem Settles.effects (reading : now ∈ call.readings) (settles : Settles now db db') :
    ReflTransGen (Effect config call) db db' := by
  induction settles with
  | refl => exact .refl
  | tail _ settle ih =>
    obtain ⟨row, row', step, blocked, -⟩ := settle
    refine ih.tail (.job reading step ?_)
    intro queued
    rw [blocked] at queued
    cases queued

omit [ObjectiveRecords O] in
theorem Change.effects (change : Change config call db db') : ReflTransGen (Effect config call) db db' := by
  cases change with
  | quiet reading step source target granted =>
    exact .single (.job reading step fun queued _ => granted queued)
  | settle reading step target propagated =>
    refine .head (.job reading step ?_) ((propagate_settles propagated).effects reading)
    intro _ leased
    rw [leased] at target
    cases target
  | admission called admits => exact .single (.admission called admits)
  | create called creates => exact .single (.create called creates)
  | sweep called sweeps => exact .single (.sweep called sweeps)
  | task step => exact .single (.task step)
  | development step => exact .single (.development step)

omit [ObjectiveRecords O] in
theorem path_of_effects (each : ∀ db db', Effect config call db db' → holds db → holds db')
    (path : Path config call db db') (start : holds db) : holds db' := by
  refine path_preserves ?_ path start
  intro before after change held
  have effects := change.effects
  clear change
  induction effects with
  | refl => exact held
  | tail _ effect ih => exact each _ _ effect ih

theorem run_effects (each : ∀ call db db', admissible call → Effect s.config call db db' → holds db → holds db')
    (allowed : ∀ call ∈ calls, admissible call) (start : holds s.db) : holds (s.run calls).db := by
  refine run_preserves ?_ allowed start
  intro call before after admitted change held
  exact path_of_effects (fun db db' => each call db db' admitted) (.single change) held

omit [ObjectiveRecords O] in
theorem Effect.job_survives {row : JobRow} (effect : Effect config call db db')
    (kept : call.sweeps = false ∨ ∃ w ∈ db.taskWorkers, w.jobID = row.id) (member : row ∈ db.jobs) :
    ∃ row' ∈ db'.jobs, row'.id = row.id ∧ (row' = row ∨ ∃ now, JobMove now row row') := by
  cases effect with
  | @job old new now reading step granted =>
    by_cases same : row.id = old.id
    · obtain rfl := Table.eq_of_key member step.replaced.old_mem same
      exact ⟨new, step.replaced.new_mem, step.moved.sameID, .inr ⟨now, step.moved⟩⟩
    · exact ⟨row, step.replaced.mem_of_ne member same, rfl, .inl rfl⟩
  | admission called admits =>
    obtain ⟨state, reason, -, inserted⟩ := admits.inserted
    exact ⟨row, (Table.mem_insert inserted).mpr (.inl member), rfl, .inl rfl⟩
  | create called creates =>
    refine ⟨row, ?_, rfl, .inl rfl⟩
    change row ∈ db'.jobs.rows
    rw [creates.jobs]
    exact mem_append_left _ member
  | sweep called sweeps =>
    rcases kept with kept | ⟨w, bound, named⟩
    · subst called
      cases kept
    rw [sweeps.result]
    exact ⟨row, Table.mem_delete.mpr ⟨member, by simpa [named] using sweeps.unbound w bound⟩, rfl, .inl rfl⟩
  | task step | development step => exact ⟨row, by rw [step.rest]; exact member, rfl, .inl rfl⟩

omit [ObjectiveRecords O] in
theorem Effect.keeps {column : DB → α} (effect : Effect config call db db')
    (others : ∀ (db : DB) jobs dependencies groups workers, column { db with
      jobs := jobs, dependencies := dependencies, taskGroups := groups, taskWorkers := workers } = column db)
    (development : DevelopmentStep call db db' → column db' = column db) : column db' = column db := by
  cases effect with
  | job reading step granted =>
    rw [step.rest]
    exact others db db'.jobs db.dependencies db.taskGroups db.taskWorkers
  | admission called admits =>
    rw [admits.rest]
    exact others db db'.jobs db'.dependencies db.taskGroups db.taskWorkers
  | create called creates =>
    rw [creates.rest]
    exact others db db'.jobs db.dependencies db'.taskGroups db'.taskWorkers
  | sweep called sweeps =>
    rename_i ids
    rw [sweeps.result]
    exact others db _ _ db.taskGroups (db.deleteJobs ids).taskWorkers
  | task step =>
    rw [step.rest]
    exact others db db.jobs db.dependencies db'.taskGroups db'.taskWorkers
  | development step => exact development step

theorem exec_keeps {column : DB → α} (s : Store)
    (others : ∀ (db : DB) jobs dependencies groups workers, column { db with
      jobs := jobs, dependencies := dependencies, taskGroups := groups, taskWorkers := workers } = column db)
    (development : ∀ db db', DevelopmentStep call db db' → column db' = column db) :
    column (s.exec call).2.db = column s.db := by
  have kept : ∀ db db', Effect s.config call db db' → column db = column s.db → column db' = column s.db := by
    intro db db' effect same
    exact (effect.keeps others (development db db')).trans same
  exact path_of_effects kept (exec_path s call) rfl

theorem exec_objectives (s : Store) (other : call.writesObjectives = false) :
    (s.exec call).2.db.developmentObjectives = s.db.developmentObjectives :=
  exec_keeps s (fun _ _ _ _ _ => rfl) fun _ _ step => step.keepsObjectives other

theorem exec_runnerEffects (s : Store) (other : call.writesEffects = false) :
    (s.exec call).2.db.developmentRunnerEffects = s.db.developmentRunnerEffects :=
  exec_keeps s (fun _ _ _ _ _ => rfl) fun _ _ step => step.keepsEffects other

theorem exec_requests (s : Store) (other : call.writesRequests = false) :
    (s.exec call).2.db.developmentRequests = s.db.developmentRequests :=
  exec_keeps s (fun _ _ _ _ _ => rfl) fun _ _ step => step.keepsRequests other

end Aeontra.Workqueue
