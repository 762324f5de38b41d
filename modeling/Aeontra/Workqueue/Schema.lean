import Aeontra.Library.Table
import Aeontra.Workqueue.DevelopmentTypes

/-!
The queue database and the reading of its job rows.

A nullable column is an `Option`.  A JSON column holds the value that its text encodes,
and `none` where the text is empty; reading it back checks the length that
`decodeTaskObjectiveRecord` checks.
-/

namespace Aeontra.Workqueue

open Library

structure JobRow where
  id : String
  idempotencyKey : String
  workspace : String
  pool : String
  profile : String
  payloadHash : String
  state : State
  reason : Reason
  createdAt : UnixNano
  updatedAt : UnixNano
  cancelRequested : Bool
  attempt : Nat
  fence : Nat
  leaseID : Option String
  leaseHolder : Option String
  leaseUntil : Option UnixNano
  outcome : Option State
  summary : Option String
  resultRef : Option String
  deriving DecidableEq

structure DependencyRow where
  jobID : String
  dependencyID : String
  deriving DecidableEq

structure TaskGroupRow where
  id : String
  idempotencyKey : String
  project : String
  target : String
  baseCommit : String
  goalHash : String
  pool : String
  profile : String
  workerCount : Int
  executionTimeoutSeconds : Int
  acceptanceContractVersion : Int
  acceptanceMinCommitsAhead : Int
  acceptanceMinChangedPaths : Int
  testProfileID : String
  testProfileDigest : String
  objectiveContract : Option TaskObjectiveContract
  integrationContract : Option TaskIntegrationContract
  integrationSourceTask : String
  integrationPins : Option (Slice TaskIntegrationSourcePin)
  integrationReceipt : Option TaskIntegrationReceipt
  createdAt : UnixNano
  updatedAt : UnixNano
  deriving DecidableEq

structure TaskWorkerRow where
  taskID : String
  ordinal : Int
  jobID : String
  goalRef : String
  operationID : String
  worktreeID : String
  workspaceID : String
  runtimeID : String
  acceptanceReceipt : Option TaskAcceptanceReceipt
  worktreeCleaned : Bool
  testAcceptanceReceipt : Option TaskTestAcceptanceReceipt
  objectiveReceipt : Option TaskObjectiveReceipt
  deriving DecidableEq

def TaskWorkerRow.key (row : TaskWorkerRow) : String × Int := (row.taskID, row.ordinal)

structure DevelopmentObjectiveRow where
  objectiveID : String
  revision : Nat
  state : ObjectiveState
  recordDigest : String
  recordJSON : String
  createdAt : UnixNano
  updatedAt : UnixNano
  deriving DecidableEq

structure DevelopmentRunnerEffectRow where
  effectID : String
  revision : Nat
  record : DevelopmentRunnerEffect
  deriving DecidableEq

structure DevelopmentRequestRow where
  requestID : String
  keyDigest : String
  revision : Nat
  state : DevelopmentRequestState
  recordDigest : String
  record : DevelopmentRequest
  createdAt : UnixNano
  updatedAt : UnixNano
  deriving DecidableEq

structure DB where
  jobs : Table JobRow JobRow.id JobRow.idempotencyKey
  dependencies : Table DependencyRow (fun row => row) (fun row => row)
  taskGroups : Table TaskGroupRow TaskGroupRow.id TaskGroupRow.idempotencyKey
  taskWorkers : Table TaskWorkerRow TaskWorkerRow.key TaskWorkerRow.jobID
  developmentObjectives : Table DevelopmentObjectiveRow DevelopmentObjectiveRow.objectiveID
    DevelopmentObjectiveRow.objectiveID
  developmentRunnerEffects : Table DevelopmentRunnerEffectRow DevelopmentRunnerEffectRow.effectID
    DevelopmentRunnerEffectRow.effectID
  developmentRequests : Table DevelopmentRequestRow DevelopmentRequestRow.requestID
    DevelopmentRequestRow.keyDigest

def DB.empty : DB := ⟨.empty, .empty, .empty, .empty, .empty, .empty, .empty⟩

/-- `UPDATE jobs SET ... WHERE ...`. -/
def DB.updateJobs (db : DB) (condition : JobRow → Bool) (assign : JobRow → JobRow)
    (keepsID : ∀ row, (assign row).id = row.id)
    (keepsKey : ∀ row, (assign row).idempotencyKey = row.idempotencyKey) : DB :=
  { db with jobs := db.jobs.update condition assign keepsID keepsKey }

def JobRow.job (row : JobRow) : Job where
  id := row.id
  idempotencyKey := row.idempotencyKey
  workspace := row.workspace
  pool := row.pool
  profile := row.profile
  payloadHash := row.payloadHash
  state := row.state
  reason := row.reason
  createdAt := row.createdAt.time
  updatedAt := row.updatedAt.time
  cancelRequested := row.cancelRequested
  attempt := row.attempt
  fence := row.fence
  leaseID := row.leaseID.getD ""
  leaseHolder := row.leaseHolder.getD ""
  leaseExpiresAt := (row.leaseUntil.map UnixNano.time).getD zeroTime
  outcome := row.outcome
  summary := row.summary.getD ""
  resultRef := row.resultRef.getD ""

def Job.unleased (job : Job) : Bool :=
  job.leaseID = "" && job.leaseHolder = "" && job.leaseExpiresAt = zeroTime && job.outcome = none

/-- The clauses of `validateStoredJob` for the job's state. -/
def validateStoredState (job : Job) : Except String Unit :=
  match job.state with
  | .blocked =>
    reject (job.reason ≠ .dependencyPending || job.cancelRequested || !job.unleased)
      "workqueue: stored blocked job is invalid"
  | .queued =>
    reject ((job.reason ≠ .none && job.reason ≠ .leaseExpired) || job.cancelRequested ||
      !job.unleased) "workqueue: stored queued job is invalid"
  | .leased => do
    reject (!leaseIDPattern.matchString job.leaseID || !holderPattern.matchString job.leaseHolder ||
      job.leaseExpiresAt = zeroTime || job.fence = 0 || job.outcome ≠ none)
      "workqueue: stored lease is invalid"
    reject ((job.cancelRequested != (job.reason = .cancelRequested : Bool)) ||
      (job.reason ≠ .none && job.reason ≠ .cancelRequested))
      "workqueue: stored lease cancellation is invalid"
  | .succeeded | .failed | .cancelled => do
    reject (job.outcome ≠ some job.state ||
      !accepted (validateResult ⟨job.outcome, job.summary, job.resultRef⟩))
      "workqueue: stored terminal job is invalid"
    reject ((job.leaseID ≠ "" || job.leaseHolder ≠ "" || job.leaseExpiresAt ≠ zeroTime) &&
      (!leaseIDPattern.matchString job.leaseID || !holderPattern.matchString job.leaseHolder ||
        job.leaseExpiresAt = zeroTime || job.fence = 0))
      "workqueue: stored terminal lease is invalid"
    reject (job.state ≠ .cancelled && job.cancelRequested)
      "workqueue: stored terminal cancellation flag is invalid"
    match job.state with
    | .succeeded =>
      reject (job.reason ≠ .none) "workqueue: stored success reason is invalid"
    | .failed =>
      reject (job.reason ≠ .none && job.reason ≠ .dependencyFailed &&
        job.reason ≠ .recoveryExhausted && job.reason ≠ .taskGoalUnavailable)
        "workqueue: stored failure reason is invalid"
    | _ =>
      reject (job.reason ≠ .none && job.reason ≠ .cancelled)
        "workqueue: stored cancellation reason is invalid"

def validateStoredJob (job : Job) : Except String Unit := do
  reject (!jobIDPattern.matchString job.id ||
    !accepted (validateSpec ⟨job.idempotencyKey, job.workspace, job.pool, job.profile, job.payloadHash, []⟩) ||
    job.createdAt = zeroTime || job.updatedAt = zeroTime || job.updatedAt < job.createdAt)
    "workqueue: stored job is invalid"
  validateStoredState job

def scanJob (row : JobRow) : Except String Job := do
  validateStoredJob row.job
  pure row.job

/-- `jobByID` and `jobByIdempotency`: a row that fails its checks is a failed read. -/
def readJob : Option JobRow → Except String (Option Job)
  | none => .ok none
  | some row => orFail "workqueue: job read failed" ((scanJob row).map some)

def DB.jobByID (db : DB) (jobID : String) : Except String (Option Job) := readJob (db.jobs.find jobID)

def DB.jobByIdempotency (db : DB) (key : String) : Except String (Option Job) :=
  readJob (db.jobs.findUnique key)

/-- `SELECT dependency_id ... WHERE job_id=? ORDER BY dependency_id`. -/
def DB.dependencyIDs (db : DB) (jobID : String) : List String :=
  sortStrings ((db.dependencies.rows.filter fun row => row.jobID = jobID).map DependencyRow.dependencyID)

/-- `SELECT job_id ... WHERE dependency_id=? ORDER BY job_id`. -/
def DB.dependents (db : DB) (dependencyID : String) : List String :=
  sortStrings ((db.dependencies.rows.filter fun row => row.dependencyID = dependencyID).map DependencyRow.jobID)

def sameStrings (left right : List String) : Bool :=
  left.length = right.length && sortStrings left = sortStrings right

/-- The sixteen random bytes of `randomID`. -/
abbrev Draw := Fin (2 ^ 128)

def randomID (lead : String) (draw : Draw) : String := lead ++ String.ofList (hexDigits 32 draw)

def nullableString (value : String) : Option String := if value = "" then none else some value

end Aeontra.Workqueue
