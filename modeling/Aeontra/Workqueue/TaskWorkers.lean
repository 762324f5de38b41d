import Aeontra.Workqueue.TaskStore

/-!
The operations on task workers: leasing, binding, evidence, cleanup and failure.
-/

namespace Aeontra.Workqueue

open Library

/-- `UPDATE task_workers SET ... WHERE task_id=? AND ordinal=? AND ...`. -/
def DB.updateWorkers (db : DB) (taskID : String) (ordinal : Int) (condition : TaskWorkerRow → Bool)
    (assign : TaskWorkerRow → TaskWorkerRow) (keepsKey : ∀ row, (assign row).key = row.key)
    (keepsJob : ∀ row, (assign row).jobID = row.jobID) : DB :=
  { db with
    taskWorkers := db.taskWorkers.update
      (fun row => row.taskID = taskID && row.ordinal = ordinal && condition row) assign keepsKey
      keepsJob }

/-- `UPDATE task_groups SET updated_at=? WHERE task_id=?`. -/
def DB.touchGroup (db : DB) (taskID : String) (now : UnixNano) : DB :=
  { db with
    taskGroups := db.taskGroups.update (fun row => row.id = taskID)
      (fun row => { row with updatedAt := now }) (fun _ => rfl) (fun _ => rfl) }

def taskWorkerFromJob (ordinal : Int) (job : Job) (worktreeID workspaceID runtimeID : String) : TaskWorker where
  ordinal := ordinal
  jobID := job.id
  state := job.state
  reason := job.reason
  cancelRequested := job.cancelRequested
  attempt := job.attempt
  leaseID := job.leaseID
  fence := job.fence
  leaseExpiresAt := job.leaseExpiresAt
  leaseHolder := job.leaseHolder
  operationID := ""
  worktreeID := worktreeID
  workspaceID := workspaceID
  runtimeID := runtimeID
  worktreeCleaned := false
  acceptanceReceipt := none
  testAcceptanceReceipt := none
  objectiveReceipt := none
  summary := job.summary
  goalHash := job.payloadHash
  goalRef := ""
  updatedAt := job.updatedAt

def leaseTaskWorkerTx (taskID : String) (ordinal : Int) (holder : String) (ttl : Duration)
    (now : UnixNano) (draw : Draw) (db : DB) : Except String (Except String TaskWorker × DB) := do
  reject (!taskIDPattern.matchString taskID || ordinal < 0 || ordinal ≥ maxTaskWorkers ||
    !holderPattern.matchString holder || ttl < minLeaseTTL || ttl > maxLeaseTTL)
    "workqueue: task worker lease is invalid"
  let db ← recoverExpired db now
  let w ← required "workqueue: task worker not found" (db.taskWorkers.find (taskID, ordinal))
  let found ← orFail "workqueue: task worker job unavailable" (db.jobByID w.jobID)
  let job ← required "workqueue: task worker job unavailable" found
  if job.state = .leased ∧ job.leaseHolder = holder ∧ now.time < job.leaseExpiresAt then
    pure (.ok (taskWorkerFromJob ordinal job w.worktreeID w.workspaceID w.runtimeID), db)
  else
    reject (job.state ≠ .queued || job.cancelRequested) "workqueue: task worker is not leasable"
    let (job, db) ← grantLease w.jobID (randomID "wl_" draw) holder (.ofTime (now.time + ttl)) now
      "workqueue: task worker lease lost race" "workqueue: leased task worker unavailable" db
    pure (.ok (taskWorkerFromJob ordinal job w.worktreeID w.workspaceID w.runtimeID), db)

def Store.leaseTaskWorker (s : Store) (taskID : String) (ordinal : Int) (holder : String)
    (ttl : Duration) (now : UnixNano) (draw : Draw) : Except String TaskWorker × Store :=
  s.transact (leaseTaskWorkerTx taskID ordinal holder ttl now draw)

/-- `conflict` and `stale` are the messages of the caller, which presents a lease. -/
def fencedWorker (taskID : String) (ordinal : Int) (jobID leaseID : String) (fence : Nat)
    (conflict stale : String) (now : UnixNano) (db : DB) : Except String (TaskWorkerRow × Job) := do
  let w ← required conflict (db.taskWorkers.find (taskID, ordinal))
  reject (w.jobID ≠ jobID) conflict
  let found ← orFail stale (db.jobByID w.jobID)
  let job ← required stale found
  reject (job.state ≠ .leased || job.leaseID ≠ leaseID || job.fence ≠ fence ||
    !(now.time < job.leaseExpiresAt)) stale
  pure (w, job)

def bindTaskWorkerOperationTx (binding : TaskWorkerOperationBinding) (now : UnixNano) (db : DB) :
    Except String (Except String TaskWorker × DB) := do
  reject (!taskIDPattern.matchString binding.taskID || binding.ordinal < 0 ||
    binding.ordinal ≥ maxTaskWorkers || !jobIDPattern.matchString binding.jobID ||
    !leaseIDPattern.matchString binding.leaseID || binding.fence = 0 ||
    !taskOperationPattern.matchString binding.operationID)
    "workqueue: task worker operation binding is invalid"
  let (w, job) ← fencedWorker binding.taskID binding.ordinal binding.jobID binding.leaseID
    binding.fence "workqueue: task worker operation conflicts"
    "workqueue: stale task worker operation rejected" now db
  reject (w.operationID ≠ "" && w.operationID ≠ binding.operationID)
    "workqueue: task worker operation conflicts"
  let db := if w.operationID = "" then
      db.updateWorkers binding.taskID binding.ordinal (fun row => row.operationID = "")
        (fun row => { row with operationID := binding.operationID }) (fun _ => rfl) (fun _ => rfl)
    else db
  pure (.ok { taskWorkerFromJob binding.ordinal job "" "" "" with
    operationID := binding.operationID }, db)

def Store.bindTaskWorkerOperation (s : Store) (binding : TaskWorkerOperationBinding)
    (now : UnixNano) : Except String TaskWorker × Store :=
  s.transact (bindTaskWorkerOperationTx binding now)

def bindTaskWorkerTx (binding : TaskWorkerBinding) (now : UnixNano) (db : DB) :
    Except String (Except String TaskWorker × DB) := do
  reject (!validTaskWorkerBinding binding) "workqueue: task worker binding is invalid"
  let (w, job) ← fencedWorker binding.taskID binding.ordinal binding.jobID binding.leaseID
    binding.fence "workqueue: task worker binding conflicts"
    "workqueue: stale task worker binding rejected" now db
  reject (w.worktreeID ≠ "" && (w.worktreeID ≠ binding.worktreeID ||
    w.workspaceID ≠ binding.workspaceID || (w.runtimeID ≠ "" && w.runtimeID ≠ binding.runtimeID)))
    "workqueue: task worker binding conflicts"
  let db := if w.worktreeID = "" then
      db.updateWorkers binding.taskID binding.ordinal (fun row => row.worktreeID = "")
        (fun row => { row with
          worktreeID := binding.worktreeID
          workspaceID := binding.workspaceID
          runtimeID := binding.runtimeID }) (fun _ => rfl) (fun _ => rfl)
    else if w.runtimeID = "" ∧ binding.runtimeID ≠ "" then
      db.updateWorkers binding.taskID binding.ordinal (fun row => row.runtimeID = "")
        (fun row => { row with runtimeID := binding.runtimeID }) (fun _ => rfl) (fun _ => rfl)
    else db
  pure (.ok (taskWorkerFromJob binding.ordinal job binding.worktreeID binding.workspaceID
    binding.runtimeID), db)

def Store.bindTaskWorker (s : Store) (binding : TaskWorkerBinding) (now : UnixNano) :
    Except String TaskWorker × Store :=
  s.transact (bindTaskWorkerTx binding now)

/-- `invalid` and `unavailable` are the messages of the caller. -/
def namedWorker (taskID : String) (ordinal : Int) (unavailable : String) (db : DB) :
    Except String (TaskGroup × TaskWorker) := do
  let found ← orFail unavailable (db.taskByID taskID)
  let task ← required unavailable found
  let worker ← required unavailable task.workers[ordinal.toNat]?
  pure (task, worker)

def validOrdinal (taskID : String) (ordinal : Int) : Bool :=
  taskIDPattern.matchString taskID && 0 ≤ ordinal && ordinal < maxTaskWorkers

def recordTaskWorkerAcceptanceTx (receipt : TaskAcceptanceReceipt) (now : UnixNano) (db : DB) :
    Except String (Except String TaskAcceptanceReceipt × DB) := do
  reject (!validOrdinal receipt.taskID receipt.ordinal)
    "workqueue: task acceptance receipt is invalid"
  let (task, worker) ← namedWorker receipt.taskID receipt.ordinal
    "workqueue: task acceptance worker unavailable" db
  match worker.acceptanceReceipt with
  | some original =>
    reject (!sameTaskAcceptanceReceipt original receipt)
      "workqueue: task acceptance receipt conflicts"
    pure (.ok original, db)
  | none =>
    reject (receipt.version ≠ 1) "workqueue: task acceptance receipt version is unsupported"
    let receipt := { receipt with recordedAt := now.time }
    reject (!validTaskAcceptanceReceipt task worker receipt || worker.worktreeCleaned)
      "workqueue: task acceptance evidence is stale or invalid"
    let db := db.updateWorkers receipt.taskID receipt.ordinal (fun row => row.acceptanceReceipt = none)
      (fun row => { row with acceptanceReceipt := some receipt }) (fun _ => rfl) (fun _ => rfl)
    pure (.ok receipt, db.touchGroup receipt.taskID now)

def Store.recordTaskWorkerAcceptance (s : Store) (receipt : TaskAcceptanceReceipt)
    (now : UnixNano) : Except String TaskAcceptanceReceipt × Store :=
  s.transact (recordTaskWorkerAcceptanceTx receipt now)

def recordTaskWorkerTestReceiptTx (receipt : TaskTestAcceptanceReceipt) (now : UnixNano) (db : DB) :
    Except String (Except String TaskTestAcceptanceReceipt × DB) := do
  reject (!validOrdinal receipt.taskID receipt.ordinal) "workqueue: task test receipt is invalid"
  let (task, worker) ← namedWorker receipt.taskID receipt.ordinal
    "workqueue: task test receipt worker unavailable" db
  match worker.testAcceptanceReceipt with
  | some original =>
    reject (!sameTaskTestAcceptanceReceipt original receipt)
      "workqueue: task test receipt conflicts"
    pure (.ok original, db)
  | none =>
    reject (receipt.version ≠ 1) "workqueue: task test receipt version is unsupported"
    let receipt := { receipt with recordedAt := now.time }
    reject (!validTaskTestAcceptanceReceipt task worker receipt || worker.worktreeCleaned)
      "workqueue: task test receipt evidence is stale or invalid"
    reject (db.taskWorkers.count (fun row => row.taskID = receipt.taskID &&
      row.ordinal = receipt.ordinal && row.testAcceptanceReceipt = none) ≠ 1)
      "workqueue: task test receipt conflicts"
    let db := db.updateWorkers receipt.taskID receipt.ordinal
      (fun row => row.testAcceptanceReceipt = none)
      (fun row => { row with testAcceptanceReceipt := some receipt }) (fun _ => rfl) (fun _ => rfl)
    pure (.ok receipt, db.touchGroup receipt.taskID now)

def Store.recordTaskWorkerTestReceipt (s : Store) (receipt : TaskTestAcceptanceReceipt)
    (now : UnixNano) : Except String TaskTestAcceptanceReceipt × Store :=
  s.transact (recordTaskWorkerTestReceiptTx receipt now)

def recordTaskWorkerObjectiveTx (receipt : TaskObjectiveReceipt) (now : UnixNano) (db : DB) :
    Except String (Except String TaskObjectiveReceipt × DB) := do
  reject (!validOrdinal receipt.taskID receipt.ordinal) "workqueue: objective receipt is invalid"
  let (task, worker) ← namedWorker receipt.taskID receipt.ordinal
    "workqueue: objective worker unavailable" db
  match worker.objectiveReceipt with
  | some original =>
    reject ({ receipt with recordedAt := original.recordedAt } ≠ original)
      "workqueue: objective receipt conflicts"
    pure (.ok original, db)
  | none =>
    let receipt := { receipt with recordedAt := now.time }
    reject (worker.worktreeCleaned || !validTaskObjectiveReceipt task worker receipt)
      "workqueue: objective evidence is stale or invalid"
    reject (db.taskWorkers.count (fun row => row.taskID = receipt.taskID &&
      row.ordinal = receipt.ordinal && row.objectiveReceipt = none) ≠ 1)
      "workqueue: objective receipt conflicts"
    let db := db.updateWorkers receipt.taskID receipt.ordinal (fun row => row.objectiveReceipt = none)
      (fun row => { row with objectiveReceipt := some receipt }) (fun _ => rfl) (fun _ => rfl)
    pure (.ok receipt, db.touchGroup receipt.taskID now)

def Store.recordTaskWorkerObjective (s : Store) (receipt : TaskObjectiveReceipt) (now : UnixNano) :
    Except String TaskObjectiveReceipt × Store :=
  s.transact (recordTaskWorkerObjectiveTx receipt now)

def recordTaskIntegrationReceiptTx (receipt : TaskIntegrationReceipt) (now : UnixNano) (db : DB) :
    Except String (Except String TaskIntegrationReceipt × DB) := do
  reject (!taskIDPattern.matchString receipt.taskID) "workqueue: integration receipt is invalid"
  let found ← orFail "workqueue: integration task unavailable" (db.taskByID receipt.taskID)
  let task ← required "workqueue: integration task unavailable" found
  match task.integrationReceipt with
  | some original =>
    reject ({ receipt with recordedAt := original.recordedAt } ≠ original)
      "workqueue: integration receipt conflicts"
    pure (.ok original, db)
  | none =>
    let receipt := { receipt with recordedAt := now.time }
    reject (!validTaskIntegrationReceipt task receipt ||
      !accepted (validateTaskIntegrationSourcesTx db task.need))
      "workqueue: integration evidence is stale or invalid"
    let groups := db.taskGroups.update (fun row => row.id = task.id && row.integrationReceipt = none)
      (fun row => { row with integrationReceipt := some receipt, updatedAt := now })
      (fun _ => rfl) (fun _ => rfl)
    pure (.ok receipt, { db with taskGroups := groups })

def Store.recordTaskIntegrationReceipt (s : Store) (receipt : TaskIntegrationReceipt)
    (now : UnixNano) : Except String TaskIntegrationReceipt × Store :=
  s.transact (recordTaskIntegrationReceiptTx receipt now)

/-- A group that still needs the worktrees of a source task. -/
def DB.pinnedBy (db : DB) (sourceTaskID : String) (row : TaskGroupRow) : Bool :=
  row.integrationSourceTask = sourceTaskID && row.integrationSourceTask ≠ "" &&
    (db.workersOf row.id).any fun (w, job) =>
      job.state ≠ .failed && job.state ≠ .cancelled && !w.worktreeCleaned

/-- Whether some integration pins a task; the statement takes any one of them. -/
def DB.taskRequiredByIntegration (db : DB) (sourceTaskID : String) : Except String Bool :=
  match db.taskGroups.rows.find? (db.pinnedBy sourceTaskID) with
  | none => .ok false
  | some row => do
    let found ← orFail "workqueue: integration task unavailable" (db.taskByID row.id)
    let task ← required "workqueue: integration task unavailable" found
    reject (!(task.integrationContract.any fun c => c.sourceTaskID = sourceTaskID))
      "workqueue: integration task unavailable"
    pure true

def markTaskWorkerWorktreeCleanedTx (taskID : String) (ordinal : Int) (leaseID : String)
    (fence : Nat) (now : UnixNano) (db : DB) : Except String (Except String Unit × DB) := do
  reject (!validOrdinal taskID ordinal || !leaseIDPattern.matchString leaseID || fence = 0)
    "workqueue: task worktree cleanup marker is invalid"
  let (task, worker) ← namedWorker taskID ordinal "workqueue: task cleanup worker unavailable" db
  reject (worker.worktreeID = "" || worker.leaseID ≠ leaseID || worker.fence ≠ fence ||
    !terminal worker.state) "workqueue: task cleanup evidence is incomplete"
  if worker.worktreeCleaned then
    pure (.ok (), db)
  else
    let succeeded : Bool := worker.state = .succeeded
    reject (task.acceptanceContract.isSome && succeeded && worker.acceptanceReceipt.isNone)
      "workqueue: task cleanup evidence is incomplete"
    reject (task.testAcceptanceContract.isSome && succeeded && worker.testAcceptanceReceipt.isNone)
      "workqueue: task cleanup evidence is incomplete"
    reject (task.objectiveContract.isSome && succeeded && worker.objectiveReceipt.isNone)
      "workqueue: task objective receipt is required before cleanup"
    reject (task.integrationContract.isSome && succeeded && task.integrationReceipt.isNone)
      "workqueue: integration receipt is required before cleanup"
    let pinned ← orFail "workqueue: task is pinned by a pending integration"
      (db.taskRequiredByIntegration taskID)
    reject pinned "workqueue: task is pinned by a pending integration"
    let db := db.updateWorkers taskID ordinal (fun row => !row.worktreeCleaned)
      (fun row => { row with worktreeCleaned := true }) (fun _ => rfl) (fun _ => rfl)
    pure (.ok (), db.touchGroup taskID now)

def Store.markTaskWorkerWorktreeCleaned (s : Store) (taskID : String) (ordinal : Int)
    (leaseID : String) (fence : Nat) (now : UnixNano) : Except String Unit × Store :=
  s.transact (markTaskWorkerWorktreeCleanedTx taskID ordinal leaseID fence now)

def JobRow.failGoal (now : UnixNano) (row : JobRow) : JobRow :=
  { row with
    state := .failed, reason := .taskGoalUnavailable, cancelRequested := false
    outcome := some .failed, summary := some taskGoalUnavailableSummary, resultRef := none
    updatedAt := now }

def failUnstartedTaskWorkerTx (taskID : String) (ordinal : Int) (now : UnixNano) (db : DB) :
    Except String (Except String TaskGroup × DB) := do
  reject (!validOrdinal taskID ordinal) "workqueue: task worker failure is invalid"
  reject (!accepted (validateResult ⟨some .failed, taskGoalUnavailableSummary, ""⟩))
    "workqueue: task worker failure summary is invalid"
  let (task, worker) ← namedWorker taskID ordinal "workqueue: task worker not found" db
  if worker.state = .failed ∧ worker.reason = .taskGoalUnavailable ∧
      worker.summary = taskGoalUnavailableSummary then
    pure (.ok task, db)
  else
    reject (worker.state ≠ .queued && worker.state ≠ .blocked)
      "workqueue: task worker is already leased or terminal"
    let picks (row : JobRow) : Bool := row.id = worker.jobID && (row.state = .queued || row.state = .blocked)
    reject (db.jobs.count picks ≠ 1) "workqueue: task worker changed during failure update"
    let db := db.updateJobs picks (JobRow.failGoal now) (fun _ => rfl) (fun _ => rfl)
    let db ← propagate db worker.jobID now
    let reply := do
      let found ← orFail "workqueue: failed task worker unavailable" (db.taskByID taskID)
      required "workqueue: failed task worker unavailable" found
    pure (reply, db)

def Store.failUnstartedTaskWorker (s : Store) (taskID : String) (ordinal : Int) (now : UnixNano) :
    Except String TaskGroup × Store :=
  s.transact (failUnstartedTaskWorkerTx taskID ordinal now)

end Aeontra.Workqueue
