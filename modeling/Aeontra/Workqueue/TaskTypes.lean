import Aeontra.Library.Calendar
import Aeontra.Library.Sha256
import Aeontra.Workqueue.Types

/-!
Task groups: contracts, pins and receipts, their encodings and digests.

A pointer is an `Option`.  A slice whose encoding is observed is an optional list, whose
`none` is the nil slice: `json.Marshal` writes `null` for it and `[]` for an empty one.
-/

namespace Aeontra.Workqueue

open Library

def maxTaskWorkers : Nat := 4

inductive TaskState where
  | queued | running | cancelling | completed | failed | cancelled
  deriving DecidableEq

def taskIDPattern : Pattern := hexPattern "tg_" 32 32
def taskCommitPattern : Pattern := hexPattern "" 40 40
def taskWorktreePattern : Pattern := hexPattern "wt_" 32 32
def taskWorkspacePattern : Pattern := hexPattern "ws_" 32 32
def taskRuntimePattern : Pattern := hexPattern "mr_" 32 32
def taskGoalRefPattern : Pattern := hexPattern "mb_" 32 32
def taskOperationPattern : Pattern := hexPattern "eo_" 32 32

def aliasTail (c : Char) : Bool := isLowerAlnum c || c == '-'

/-- A letter or digit, or two of them around at most `inner` letters, digits and hyphens. -/
def aliasPattern (inner : Nat) : Pattern :=
  [[⟨isLowerAlnum, 1, 1⟩, ⟨aliasTail, 0, inner⟩, ⟨isLowerAlnum, 1, 1⟩], [⟨isLowerAlnum, 1, 1⟩]]

def taskProjectPattern : Pattern := aliasPattern 61
def taskTargetPattern : Pattern := aliasPattern 30

abbrev Slice (α : Type) := Option (List α)

def Slice.items {α : Type} (slice : Slice α) : List α := slice.getD []

structure TaskAcceptanceContract where
  version : Int
  minimumCommitsAheadPerWorker : Int
  minimumChangedPathsPerWorker : Int
  deriving DecidableEq

structure TaskTestAcceptanceContract where
  version : Int
  profileID : String
  profileDigest : String
  deriving DecidableEq

structure TaskObjectiveContract where
  version : Int
  minimumCommitsAheadPerWorker : Int
  minimumChangedPathsPerWorker : Int
  requireClean : Bool
  deriving DecidableEq

structure TaskIntegrationWorker where
  ordinal : Int
  headCommit : String
  deriving DecidableEq

structure TaskIntegrationContract where
  version : Int
  expectedBaseCommit : String
  sourceTaskID : String
  workers : List TaskIntegrationWorker
  deriving DecidableEq

structure TaskIntegrationSourcePin where
  taskID : String
  ordinal : Int
  jobID : String
  runtimeID : String
  worktreeID : String
  workspaceID : String
  baseCommit : String
  headCommit : String
  branch : String
  leaseID : String
  fence : Nat
  gitReceiptDigest : String
  testReceiptDigest : String
  objectiveReceiptDigest : String
  deriving DecidableEq

structure TaskAcceptanceReceipt where
  version : Int
  taskID : String
  ordinal : Int
  jobID : String
  worktreeID : String
  workspaceID : String
  worktreeRole : String
  baseCommit : String
  headCommit : String
  branch : String
  leaseID : String
  fence : Nat
  contractDigest : String
  clean : Bool
  commitsAheadBase : Int
  changedPathCount : Int
  recordedAt : Time
  deriving DecidableEq

structure TaskTestAcceptanceReceipt where
  version : Int
  taskID : String
  ordinal : Int
  jobID : String
  worktreeID : String
  workspaceID : String
  baseCommit : String
  headCommit : String
  branch : String
  leaseID : String
  fence : Nat
  contentDigest : String
  profileID : String
  profileDigest : String
  contractDigest : String
  edgeOperationID : String
  edgeResult : String
  recordedAt : Time
  deriving DecidableEq

def taskTestEdgeResultPassed : String := "passed"

structure TaskObjectiveReceipt where
  version : Int
  taskID : String
  ordinal : Int
  contractDigest : String
  testReceiptDigest : String
  headCommit : String
  clean : Bool
  commitsAheadBase : Int
  changedPathCount : Int
  recordedAt : Time
  deriving DecidableEq

structure TaskIntegrationReceipt where
  version : Int
  taskID : String
  contractDigest : String
  sourcesDigest : String
  objectiveReceiptDigest : String
  headCommit : String
  recordedAt : Time
  deriving DecidableEq

structure TaskSpec where
  idempotencyKey : String
  project : String
  target : String
  baseCommit : String
  goalHash : String
  acceptanceContract : Option TaskAcceptanceContract
  testAcceptanceContract : Option TaskTestAcceptanceContract
  objectiveContract : Option TaskObjectiveContract
  integrationContract : Option TaskIntegrationContract
  integrationPins : Slice TaskIntegrationSourcePin
  workerGoalHashes : List String
  workerGoalRefs : List String
  pool : String
  profile : String
  workerCount : Int
  executionTimeoutSeconds : Int
  deriving DecidableEq

structure TaskWorker where
  ordinal : Int
  jobID : String
  state : State
  reason : Reason
  cancelRequested : Bool
  attempt : Nat
  leaseID : String
  fence : Nat
  leaseExpiresAt : Time
  leaseHolder : String
  operationID : String
  worktreeID : String
  workspaceID : String
  runtimeID : String
  worktreeCleaned : Bool
  acceptanceReceipt : Option TaskAcceptanceReceipt
  testAcceptanceReceipt : Option TaskTestAcceptanceReceipt
  objectiveReceipt : Option TaskObjectiveReceipt
  summary : String
  goalHash : String
  goalRef : String
  updatedAt : Time
  deriving DecidableEq

structure TaskGroup where
  id : String
  idempotencyKey : String
  project : String
  target : String
  baseCommit : String
  goalHash : String
  pool : String
  profile : String
  workerCount : Int
  executionTimeoutSeconds : Int
  acceptanceContract : Option TaskAcceptanceContract
  testAcceptanceContract : Option TaskTestAcceptanceContract
  objectiveContract : Option TaskObjectiveContract
  integrationContract : Option TaskIntegrationContract
  integrationPins : Slice TaskIntegrationSourcePin
  integrationReceipt : Option TaskIntegrationReceipt
  state : TaskState
  workers : List TaskWorker
  createdAt : Time
  updatedAt : Time
  deriving DecidableEq

structure TaskWorkerBinding where
  taskID : String
  ordinal : Int
  jobID : String
  leaseID : String
  fence : Nat
  worktreeID : String
  workspaceID : String
  runtimeID : String
  deriving DecidableEq

structure TaskWorkerOperationBinding where
  taskID : String
  ordinal : Int
  jobID : String
  leaseID : String
  fence : Nat
  operationID : String
  deriving DecidableEq

namespace Encode

open JsonText

def texts (name value : String) : String := field name (quote value)

def unlessEmpty (name value : String) : List String := if value = "" then [] else [texts name value]

def time (t : Time) : String := quote (String.ofList (Calendar.rfc3339Nano t))

def objectiveContract (c : TaskObjectiveContract) : String :=
  object [field "version" (int c.version),
    field "minimum_commits_ahead_per_worker" (int c.minimumCommitsAheadPerWorker),
    field "minimum_changed_paths_per_worker" (int c.minimumChangedPathsPerWorker),
    field "require_clean" (bool c.requireClean)]

def integrationWorker (w : TaskIntegrationWorker) : String :=
  object [field "ordinal" (int w.ordinal), texts "head_commit" w.headCommit]

def integrationContract (c : TaskIntegrationContract) : String :=
  object [field "version" (int c.version), texts "expected_base_commit" c.expectedBaseCommit,
    texts "source_task_id" c.sourceTaskID, field "workers" (array (c.workers.map integrationWorker))]

def pin (p : TaskIntegrationSourcePin) : String :=
  object ([texts "task_id" p.taskID, field "ordinal" (int p.ordinal), texts "job_id" p.jobID,
    texts "runtime_id" p.runtimeID, texts "worktree_id" p.worktreeID,
    texts "workspace_id" p.workspaceID, texts "base_commit" p.baseCommit,
    texts "head_commit" p.headCommit, texts "branch" p.branch, texts "lease_id" p.leaseID,
    field "fence" (nat p.fence)] ++ unlessEmpty "git_receipt_digest" p.gitReceiptDigest ++
    unlessEmpty "test_receipt_digest" p.testReceiptDigest ++
    unlessEmpty "objective_receipt_digest" p.objectiveReceiptDigest)

def pins : Slice TaskIntegrationSourcePin → String
  | none => "null"
  | some items => array (items.map pin)

def acceptanceReceipt (r : TaskAcceptanceReceipt) : String :=
  object [field "version" (int r.version), texts "task_id" r.taskID, field "ordinal" (int r.ordinal),
    texts "job_id" r.jobID, texts "worktree_id" r.worktreeID, texts "workspace_id" r.workspaceID,
    texts "worktree_role" r.worktreeRole, texts "base_commit" r.baseCommit,
    texts "head_commit" r.headCommit, texts "branch" r.branch, texts "lease_id" r.leaseID,
    field "fence" (nat r.fence), texts "contract_digest" r.contractDigest,
    field "clean" (bool r.clean), field "commits_ahead_base" (int r.commitsAheadBase),
    field "changed_path_count" (int r.changedPathCount), field "recorded_at" (time r.recordedAt)]

def testAcceptanceReceipt (r : TaskTestAcceptanceReceipt) : String :=
  object [field "version" (int r.version), texts "task_id" r.taskID, field "ordinal" (int r.ordinal),
    texts "job_id" r.jobID, texts "worktree_id" r.worktreeID, texts "workspace_id" r.workspaceID,
    texts "base_commit" r.baseCommit, texts "head_commit" r.headCommit, texts "branch" r.branch,
    texts "lease_id" r.leaseID, field "fence" (nat r.fence), texts "content_digest" r.contentDigest,
    texts "profile_id" r.profileID, texts "profile_digest" r.profileDigest,
    texts "contract_digest" r.contractDigest, texts "edge_operation_id" r.edgeOperationID,
    texts "edge_result" r.edgeResult, field "recorded_at" (time r.recordedAt)]

def objectiveReceipt (r : TaskObjectiveReceipt) : String :=
  object [field "version" (int r.version), texts "task_id" r.taskID, field "ordinal" (int r.ordinal),
    texts "contract_digest" r.contractDigest, texts "test_receipt_digest" r.testReceiptDigest,
    texts "head_commit" r.headCommit, field "clean" (bool r.clean),
    field "commits_ahead_base" (int r.commitsAheadBase),
    field "changed_path_count" (int r.changedPathCount), field "recorded_at" (time r.recordedAt)]

def integrationReceipt (r : TaskIntegrationReceipt) : String :=
  object [field "version" (int r.version), texts "task_id" r.taskID,
    texts "contract_digest" r.contractDigest, texts "sources_digest" r.sourcesDigest,
    texts "objective_receipt_digest" r.objectiveReceiptDigest, texts "head_commit" r.headCommit,
    field "recorded_at" (time r.recordedAt)]

end Encode

end Aeontra.Workqueue
