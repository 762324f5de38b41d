import Aeontra.Workqueue.JobChanges

/-!
The paths of the task operations, and of every call.
-/

namespace Aeontra.Workqueue

open Library Relation

variable {O : Type} {config : Config} {call : Call O} {db db' : DB} {now : UnixNano}

variable {draws : Nat → Draw} {spec : TaskSpec} {taskID leaseID : String} {w : TaskWorkerRow}
  {task : TaskGroup} {ordinal : Int} {fence : Nat} {answer : Except String TaskWorker}

theorem insertTaskWorkers_eq {ordinals : List Nat}
    (run : ordinals.foldlM (insertTaskWorker spec taskID draws now) db = .ok db') :
    db'.jobs.rows = db.jobs.rows ++ (ordinals.map fun ordinal =>
        workerJobRow spec (randomID "wj_" (draws ordinal)) ordinal now) ∧
      db'.taskWorkers.rows = db.taskWorkers.rows ++ (ordinals.map fun ordinal =>
        taskWorkerRow spec taskID (randomID "wj_" (draws ordinal)) ordinal) ∧
      db' = { db with jobs := db'.jobs, taskWorkers := db'.taskWorkers } := by
  induction ordinals generalizing db with
  | nil =>
    rw [List.foldlM_nil, pure_eq_ok] at run
    subst run
    simp
  | cons ordinal ordinals ih =>
    rw [List.foldlM_cons, bind_eq_ok] at run
    obtain ⟨middle, first, run⟩ := run
    simp only [insertTaskWorker, ok_iff] at first
    obtain ⟨-, -, jobs, jobInserted, workers, workerInserted, rfl⟩ := first
    obtain ⟨jobRows, workerRows, same⟩ := ih run
    obtain ⟨-, -, jobAppended⟩ := Table.insert_eq_some.mp jobInserted
    obtain ⟨-, -, workerAppended⟩ := Table.insert_eq_some.mp workerInserted
    refine ⟨?_, ?_, same⟩
    · rw [jobRows]
      simp [jobAppended]
    · rw [workerRows]
      simp [workerAppended]

theorem mem_workersOf {job : JobRow} :
    (w, job) ∈ db.workersOf taskID ↔
      w ∈ db.taskWorkers ∧ w.taskID = taskID ∧ job ∈ db.jobs ∧ job.id = w.jobID := by
  rw [DB.workersOf, (List.perm_insertionSort _ _).mem_iff, List.mem_filterMap]
  constructor
  · rintro ⟨w, inside, found⟩
    obtain ⟨inside, same⟩ := List.mem_filter.mp inside
    rw [Option.map_eq_some_iff] at found
    obtain ⟨job, found, pair⟩ := found
    cases pair
    obtain ⟨member, named⟩ := Table.find_eq_some.mp found
    exact ⟨inside, by simpa using same, member, named⟩
  · rintro ⟨inside, same, member, named⟩
    refine ⟨w, List.mem_filter.mpr ⟨inside, by simpa using same⟩, ?_⟩
    rw [Table.find_eq_some.mpr ⟨member, named⟩]
    rfl

theorem createTaskTx_cases {draw : Draw} {answer : Except String (TaskGroup × Bool)}
    (run : createTaskTx config spec draw draws now db = .ok (answer, db')) :
    db' = db ∨ Creates config (normalizeTaskSpec spec) draw draws now db db' := by
  simp only [createTaskTx, ok_iff] at run
  obtain ⟨-, -, run⟩ := run
  split at run
  · simp only [ok_iff] at run
    obtain ⟨-, -, -, -, -, -, -, rfl⟩ := run
    exact .inl rfl
  · simp only [ok_iff, bool_iff, gt_iff_lt, not_lt] at run
    obtain ⟨-, ⟨room, roomIn⟩, -, -, groups, inserted, last, workers, -, rfl⟩ := run
    obtain ⟨jobRows, workerRows, same⟩ := insertTaskWorkers_eq workers
    have sameGroups : last.taskGroups = groups := by rw [same]
    refine .inr ⟨room, roomIn, sameGroups ▸ inserted, jobRows, workerRows, ?_⟩
    rw [same]

theorem TaskStep.refl (db : DB) : TaskStep db db := ⟨rfl, rfl, rfl⟩

theorem updateWorkers_step {condition : TaskWorkerRow → Bool} {assign : TaskWorkerRow → TaskWorkerRow}
    {keepsKey : ∀ row, (assign row).key = row.key} {keepsJob : ∀ row, (assign row).jobID = row.jobID} :
    TaskStep db (db.updateWorkers taskID ordinal condition assign keepsKey keepsJob) where
  tasks := rfl
  bindings := Table.map_assign fun row =>
    Prod.ext (congrArg (fun key => key.1) (keepsKey row)) (keepsJob row)
  rest := rfl

theorem TaskStep.touch (step : TaskStep db db') : TaskStep db (db'.touchGroup taskID now) where
  tasks := by
    rw [← step.tasks]
    exact Table.map_assign fun _ => rfl
  bindings := step.bindings
  rest := by
    rw [step.rest]
    rfl

theorem fencedWorker_ok {jobID conflict stale : String} {job : Job}
    (run : fencedWorker taskID ordinal jobID leaseID fence conflict stale now db = .ok (w, job)) :
    w ∈ db.taskWorkers ∧ w.jobID = jobID ∧ ∃ row, Fenced db w leaseID fence now row := by
  simp only [fencedWorker, ok_iff, bool_iff, not_not] at run
  obtain ⟨_, found, -, sameJob, _, read, _, rfl, -, ⟨⟨⟨state, lease⟩, fenced⟩, unexpired⟩, rfl, rfl⟩ := run
  obtain ⟨member, -⟩ := Table.find_eq_some.mp found
  obtain ⟨row, inside, named, rfl⟩ := jobByID_eq_some read
  exact ⟨member, sameJob, row, inside, named, state, lease, fenced, unexpired⟩

theorem bindTaskWorkerOperationTx_cases {binding : TaskWorkerOperationBinding}
    (run : bindTaskWorkerOperationTx binding now db = .ok (answer, db')) :
    leaseIDPattern.matchString binding.leaseID = true ∧
      ∃ w, w ∈ db.taskWorkers ∧ w.jobID = binding.jobID ∧
        (∃ row, Fenced db w binding.leaseID binding.fence now row) ∧ TaskStep db db' := by
  simp only [bindTaskWorkerOperationTx, ok_iff, bool_iff] at run
  obtain ⟨-, valid, ⟨w, job⟩, fenced, -, -, -, rfl⟩ := run
  obtain ⟨member, sameJob, fenced⟩ := fencedWorker_ok fenced
  refine ⟨valid.1.1.2, w, member, sameJob, fenced, ?_⟩
  split
  · exact updateWorkers_step
  · exact .refl db

theorem bindTaskWorkerTx_cases {binding : TaskWorkerBinding}
    (run : bindTaskWorkerTx binding now db = .ok (answer, db')) :
    leaseIDPattern.matchString binding.leaseID = true ∧
      ∃ w, w ∈ db.taskWorkers ∧ w.jobID = binding.jobID ∧
        (∃ row, Fenced db w binding.leaseID binding.fence now row) ∧ TaskStep db db' := by
  simp only [bindTaskWorkerTx, validTaskWorkerBinding, ok_iff, bool_iff] at run
  obtain ⟨-, valid, ⟨w, job⟩, fenced, -, -, -, rfl⟩ := run
  obtain ⟨member, sameJob, fenced⟩ := fencedWorker_ok fenced
  refine ⟨valid.1.1.1.1.2, w, member, sameJob, fenced, ?_⟩
  split
  · exact updateWorkers_step
  split
  · exact updateWorkers_step
  · exact .refl db

theorem recordTaskWorkerAcceptanceTx_step {receipt : TaskAcceptanceReceipt}
    {answer : Except String TaskAcceptanceReceipt}
    (run : recordTaskWorkerAcceptanceTx receipt now db = .ok (answer, db')) : TaskStep db db' := by
  simp only [recordTaskWorkerAcceptanceTx, ok_iff] at run
  obtain ⟨-, -, ⟨task, worker⟩, -, run⟩ := run
  split at run
  · simp only [ok_iff] at run
    obtain ⟨-, -, -, rfl⟩ := run
    exact .refl db
  · simp only [ok_iff] at run
    obtain ⟨-, -, -, -, -, rfl⟩ := run
    exact updateWorkers_step.touch

theorem recordTaskWorkerTestReceiptTx_step {receipt : TaskTestAcceptanceReceipt}
    {answer : Except String TaskTestAcceptanceReceipt}
    (run : recordTaskWorkerTestReceiptTx receipt now db = .ok (answer, db')) : TaskStep db db' := by
  simp only [recordTaskWorkerTestReceiptTx, ok_iff] at run
  obtain ⟨-, -, ⟨task, worker⟩, -, run⟩ := run
  split at run
  · simp only [ok_iff] at run
    obtain ⟨-, -, -, rfl⟩ := run
    exact .refl db
  · simp only [ok_iff] at run
    obtain ⟨-, -, -, -, -, -, -, rfl⟩ := run
    exact updateWorkers_step.touch

theorem recordTaskWorkerObjectiveTx_step {receipt : TaskObjectiveReceipt}
    {answer : Except String TaskObjectiveReceipt}
    (run : recordTaskWorkerObjectiveTx receipt now db = .ok (answer, db')) : TaskStep db db' := by
  simp only [recordTaskWorkerObjectiveTx, ok_iff] at run
  obtain ⟨-, -, ⟨task, worker⟩, -, run⟩ := run
  split at run
  · simp only [ok_iff] at run
    obtain ⟨-, -, -, rfl⟩ := run
    exact .refl db
  · simp only [ok_iff] at run
    obtain ⟨-, -, -, -, -, rfl⟩ := run
    exact updateWorkers_step.touch

theorem recordTaskIntegrationReceiptTx_step {receipt : TaskIntegrationReceipt}
    {answer : Except String TaskIntegrationReceipt}
    (run : recordTaskIntegrationReceiptTx receipt now db = .ok (answer, db')) : TaskStep db db' := by
  simp only [recordTaskIntegrationReceiptTx, ok_iff] at run
  obtain ⟨-, -, -, -, task, -, run⟩ := run
  split at run
  · simp only [ok_iff] at run
    obtain ⟨-, -, -, rfl⟩ := run
    exact .refl db
  · simp only [ok_iff] at run
    obtain ⟨-, -, -, rfl⟩ := run
    exact ⟨Table.map_assign fun _ => rfl, rfl, rfl⟩

theorem markTaskWorkerWorktreeCleanedTx_step {answer : Except String Unit}
    (run : markTaskWorkerWorktreeCleanedTx taskID ordinal leaseID fence now db = .ok (answer, db')) :
    TaskStep db db' := by
  simp only [markTaskWorkerWorktreeCleanedTx, ok_iff] at run
  obtain ⟨-, -, ⟨task, worker⟩, -, -, -, run⟩ := run
  split at run
  · simp only [ok_iff] at run
    obtain ⟨-, rfl⟩ := run
    exact .refl db
  · simp only [ok_iff] at run
    obtain ⟨-, -, -, -, -, -, -, -, -, -, -, -, -, rfl⟩ := run
    exact updateWorkers_step.touch

theorem failUnstartedTaskWorkerTx_cases {answer : Except String TaskGroup}
    (run : failUnstartedTaskWorkerTx taskID ordinal now db = .ok (answer, db')) :
    db' = db ∨ ∃ row middle, JobStep now row (row.failGoal now) db middle ∧
      propagate middle row.id now = .ok db' := by
  simp only [failUnstartedTaskWorkerTx, ok_iff] at run
  obtain ⟨-, -, -, -, ⟨task, worker⟩, -, run⟩ := run
  split at run
  · simp only [ok_iff] at run
    exact .inl run.2.symm
  simp only [ok_iff, bool_iff, not_not] at run
  obtain ⟨-, -, -, one, last, propagated, -, rfl⟩ := run
  obtain ⟨row, member, picked⟩ := Table.exists_of_count (by rw [one]; simp)
  simp only [bool_iff] at picked
  obtain ⟨named, state⟩ := picked
  refine .inr ⟨row, _, ?_, (congrArg (fun id => propagate _ id now) named).trans propagated⟩
  refine updateJobs_step member (by simpa [named] using state) ?_ (.failGoal state)
  intro other both
  simp only [bool_iff] at both
  exact both.1.trans named.symm

end Aeontra.Workqueue
