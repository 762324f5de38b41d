import Aeontra.Edge.Identity
import Aeontra.Library.Text

/-!
Operations that the control plane queues for a paired device and the device leases.

What a request and a result are is a parameter.  A call may read the clock several times, and a
read recovers expired leases before it looks at a row.  Times are unbounded here; the columns hold
`UnixNano`, which is the same for every time between 1678 and 2262.
-/

namespace Aeontra.Edge

open Library Text

inductive OperationKind where
  | labPrepare
  | labRetarget
  | autopilotStart
  | autopilotPause
  | autopilotResume
  | autopilotCancel
  | bundleStatus
  | bundleUpdate
  | bundleRollback
  | edgeRepair
  | onboardingStatus
  | projectPrepare
  | projectStatus
  | projectRegistryList
  | projectReconcile
  | projectRelease
  | projectSnapshot
  | projectExec
  | projectNetworkRoute
  | projectNetworkProbe
  | projectProcessStart
  | projectProcessStatus
  | projectProcessStdin
  | projectProcessStop
  | projectProcessSignal
  | projectProcessList
  | projectProcessCleanup
  | projectGitStatus
  | projectGitFetch
  | projectGitFastForwardPreview
  | projectGitFastForward
  | projectGitPublishPreview
  | projectGitPublish
  | projectGitHubStatus
  | projectToolboxCreate
  | projectToolboxStatus
  | projectToolboxExec
  | projectToolboxInstall
  | projectToolboxCleanup
  | projectToolboxRepair
  | projectToolboxServiceStart
  | projectToolboxServiceStatus
  | projectToolboxServiceStop
  | projectBrowserCreate
  | projectBrowserStatus
  | projectBrowserList
  | projectBrowserRun
  | projectBrowserArtifactRead
  | projectBrowserClose
  | projectBrowserCleanup
  | projectBrowserHarnessStart
  | projectBrowserHarnessStatus
  | projectBrowserHarnessList
  | projectBrowserHarnessStop
  | projectBrowserHarnessCleanup
  | projectBrowserHarnessArtifactList
  | projectBrowserHarnessArtifactRead
  | projectWorktreeCreate
  | projectWorktreeClaim
  | projectWorktreeStatus
  | projectWorktreeList
  | projectWorktreeCleanup
  | projectWorktreeTestProfile
  | projectWorktreeTestStart
  | projectWorktreeTestStatus
  | projectWorktreeTestStop
  | projectDevelopmentBootstrapResolve
  | projectDevelopmentBootstrapStart
  | projectDevelopmentCommandStart
  | projectDevelopmentInspect
  deriving DecidableEq

namespace OperationKind

/-- The kinds an incompatible device may lease and a started lease of which is replayed. -/
def isRecovery : OperationKind → Bool
  | bundleStatus | onboardingStatus | bundleUpdate | bundleRollback | edgeRepair => true
  | _ => false

def isPrivileged : OperationKind → Bool
  | bundleUpdate | bundleRollback | edgeRepair => true
  | _ => false

/-- `operationKindInterruptible`. -/
def interruptible : OperationKind → Bool
  | bundleUpdate | bundleRollback | edgeRepair | projectProcessStdin => false
  | _ => true

/-- `projectOperationUsesIdempotency`. -/
def usesIdempotency : OperationKind → Bool
  | projectDevelopmentBootstrapResolve | projectDevelopmentBootstrapStart | projectDevelopmentCommandStart
  | projectDevelopmentInspect | projectSnapshot | projectExec | projectProcessStart
  | projectWorktreeTestProfile | projectWorktreeTestStart | projectWorktreeTestStop | projectProcessStdin
  | projectBrowserCreate | projectBrowserRun | projectBrowserClose | projectBrowserCleanup
  | projectBrowserHarnessStart | projectBrowserHarnessStop | projectBrowserHarnessCleanup
  | projectGitFetch | projectGitFastForwardPreview | projectGitFastForward | projectGitPublishPreview
  | projectGitPublish | projectToolboxCreate | projectToolboxExec | projectToolboxInstall
  | projectToolboxCleanup | projectToolboxRepair | projectToolboxServiceStart | projectToolboxServiceStop
  | projectWorktreeCreate | projectWorktreeCleanup => true
  | _ => false

end OperationKind

inductive OperationState where
  | queued
  | leased
  | succeeded
  | failed
  | cancelled
  deriving DecidableEq

def OperationState.final : OperationState → Bool
  | .succeeded | .failed | .cancelled => true
  | .queued | .leased => false

def minLeaseTTL : Duration := 15 * second
def maxLeaseTTL : Duration := 10 * minute
def maxOperationProgressUnits : Nat := 1000000000
def maxOperationResultBytes : Nat := 65536
def maxOperationProgressBytes : Nat := 1024
def operationHeartbeatTTL : Duration := minute
def projectExecQueueTTL : Duration := 3 * minute
def maxOperationLeaseAttempts : Nat := 4
def maxPrivilegedOperationRecoveryWindow : Duration := 20 * minute
def maxOperationStorageReservePages : Int := 512
def operationStoragePruneBatch : Nat := 256
def operationStoragePruneAttempts : Nat := 64

def operationIDPattern : Pattern := [Pattern.literal "eo_" ++ [Pattern.exactly isLowerHex 32]]

def leaseIDPattern : Pattern := [Pattern.literal "el_" ++ [Pattern.exactly isLowerHex 32]]

def operationCatalogPattern : Pattern := [Pattern.literal "sha256:" ++ [Pattern.exactly isLowerHex 64]]

def projectOperationIdempotencyPattern : Pattern :=
  [[Pattern.exactly isAlnum 1, ⟨fun c => isAlnum c || oneOf "._:-" c, 0, 127⟩]]

def operationProgressPhasePattern : Pattern :=
  [[Pattern.exactly (fun c => 'a' ≤ c && c ≤ 'z') 1, ⟨fun c => isLowerAlnum c || c == '_', 2, 63⟩]]

structure OperationProgress where
  revision : Nat
  phase : String
  completedUnits : Nat
  totalUnits : Nat
  deriving DecidableEq

def OperationProgress.zero : OperationProgress := ⟨0, "", 0, 0⟩

/-- The encoded progress; a phase that is accepted needs no escapes. -/
def OperationProgress.body (p : OperationProgress) : String :=
  let units (name : String) (value : Nat) := if value = 0 then "" else ",\"" ++ name ++ "\":" ++ toString value
  "\x7b\"revision\":" ++ toString p.revision ++ ",\"phase\":\"" ++ p.phase ++ "\"" ++
    units "completed_units" p.completedUnits ++ units "total_units" p.totalUnits ++ "\x7d"

def validOperationProgress (p : OperationProgress) : Bool :=
  p.revision ≠ 0 && operationProgressPhasePattern.matchString p.phase && p.totalUnits ≤ maxOperationProgressUnits &&
    if p.totalUnits = 0 then p.completedUnits = 0 else p.completedUnits ≤ p.totalUnits

/-- What the rest of the package says about requests and results. -/
structure Contract (ρ υ : Type) where
  validate : OperationKind → ρ → Option ρ
  requestBody : ρ → List Nat
  idempotencyKey : ρ → String
  requestsEqual : ρ → ρ → Bool
  zeroResult : υ
  resultBytes : υ → Nat
  emptyResult : υ → Bool
  validCompletion : OperationKind → υ → String → Bool

structure OperationRow (ρ υ : Type) where
  operationID : String
  deviceID : String
  kind : OperationKind
  request : ρ
  requestDigest : String
  state : OperationState
  leaseID : Option String
  leaseUntil : Option Time
  leaseAttempts : Nat
  firstLeasedAt : Option Time
  leasedAt : Option Time
  runningAt : Option Time
  finalizingAt : Option Time
  result : Option υ
  safeCode : String
  cancelRequested : Bool
  progress : Option OperationProgress
  createdAt : Time
  updatedAt : Time

/-- An operation as it is returned; a time that is not set is the zero time. -/
structure Operation (ρ υ : Type) where
  id : String
  deviceID : String
  kind : OperationKind
  request : ρ
  state : OperationState
  result : υ
  safeCode : String
  progress : OperationProgress
  cancelRequested : Bool
  createdAt : Time
  leasedAt : Time
  runningAt : Time
  finalizingAt : Time
  updatedAt : Time

structure OperationLease (ρ υ : Type) where
  operation : Operation ρ υ
  leaseID : String
  expiresAt : Time

structure OperationControl where
  cancelRequested : Bool
  deriving DecidableEq

inductive OperationError where
  | message (text : String)
  | noTaskAvailable
  | compatibility (expectedProtocol expectedCatalog observedProtocol observedCatalog : String)
  deriving DecidableEq

section

variable {ρ υ : Type} (contract : Contract ρ υ) (now : Time) (row : OperationRow ρ υ)

def nullableOperationTime : Option Time → Time
  | some value => if value ≤ 0 then zeroTime else value
  | none => zeroTime

def scanOperation : Operation ρ υ where
  id := row.operationID
  deviceID := row.deviceID
  kind := row.kind
  request := row.request
  state := row.state
  result := row.result.getD contract.zeroResult
  safeCode := row.safeCode
  progress := .zero
  cancelRequested := false
  createdAt := row.createdAt
  leasedAt := nullableOperationTime row.leasedAt
  runningAt := nullableOperationTime row.runningAt
  finalizingAt := nullableOperationTime row.finalizingAt
  updatedAt := row.updatedAt

def validOperationTiming (op : Operation ρ υ) : Bool :=
  if op.createdAt = zeroTime || op.updatedAt = zeroTime || op.updatedAt < op.createdAt then false
  else if op.leasedAt = zeroTime then op.runningAt = zeroTime && op.finalizingAt = zeroTime
  else if op.leasedAt < op.createdAt || op.updatedAt < op.leasedAt then false
  else if op.runningAt = zeroTime then op.finalizingAt = zeroTime
  else if op.runningAt < op.leasedAt || op.updatedAt < op.runningAt then false
  else if op.finalizingAt = zeroTime then true
  else !(op.finalizingAt < op.runningAt) && !(op.updatedAt < op.finalizingAt)

def validStoredOperationLifecycle (op : Operation ρ υ) : Bool :=
  match op.state with
  | .queued => !op.cancelRequested && op.safeCode = "" && contract.emptyResult op.result
  | .leased => op.safeCode = "" && contract.emptyResult op.result
  | .succeeded => !op.cancelRequested && op.safeCode = "" && contract.validCompletion op.kind op.result ""
  | .failed => !op.cancelRequested && op.safeCode ≠ "" && contract.validCompletion op.kind op.result op.safeCode
  | .cancelled => op.cancelRequested && op.safeCode = "operation_cancelled" && contract.emptyResult op.result

def scanOperationLifecycle : Except String (Operation ρ υ) := do
  let op := { scanOperation contract row with
    progress := row.progress.getD .zero
    cancelRequested := row.cancelRequested }
  let readable := row.result.all (fun result => contract.resultBytes result ≤ maxOperationResultBytes) &&
    row.progress.all fun p => (bytes p.body).length ≤ maxOperationProgressBytes && validOperationProgress p
  let normal := (contract.validate op.kind op.request).any fun normalized =>
    contract.requestsEqual normalized op.request
  reject (!readable || !normal || !validStoredOperationLifecycle contract op) "stored operation is invalid"
  reject (!validOperationTiming op) "stored operation timing is invalid"
  return op

/-- `state='leased' AND lease_until<=?`. -/
def leaseExpired : Bool := row.state = .leased && row.leaseUntil.any (· ≤ now)

/-- A lease that ran out while a command outside the recovery kinds was under way. -/
def interrupted : Bool := row.progress.isSome && !row.kind.isRecovery

def recoveryExhausted : Bool :=
  maxOperationLeaseAttempts ≤ row.leaseAttempts || (row.kind.isPrivileged &&
    row.firstLeasedAt.any (· ≤ now - maxPrivilegedOperationRecoveryWindow))

/-- The row that `recoverExpiredOperationLeases` writes over an expired lease. -/
def recovered : OperationRow ρ υ :=
  let released := { row with leaseID := none, leaseUntil := none, updatedAt := now }
  let cleared := { released with progress := none, leasedAt := none, runningAt := none, finalizingAt := none }
  if row.cancelRequested then { released with state := .cancelled, safeCode := "operation_cancelled" }
  else if interrupted row then
    { released with state := .failed, safeCode := "operation_execution_interrupted" }
  else if recoveryExhausted now row then
    { cleared with state := .failed, safeCode := "operation_recovery_exhausted" }
  else { cleared with state := .queued, safeCode := "" }

/-- `kind='project_exec' AND state='queued' AND created_at<=?`. -/
def queueExpired : Bool :=
  row.kind = .projectExec && row.state = .queued && row.createdAt ≤ now - projectExecQueueTTL

def expired : OperationRow ρ υ :=
  { row with state := .failed, safeCode := "operation_queue_expired", updatedAt := now }

def granted (leaseID : String) (expires : Time) : OperationRow ρ υ :=
  { row with
    state := .leased
    leaseID := some leaseID
    leaseUntil := some expires
    leaseAttempts := row.leaseAttempts + 1
    firstLeasedAt := some (row.firstLeasedAt.getD now)
    leasedAt := some now
    runningAt := none
    finalizingAt := none
    updatedAt := now }

/-- `operation_id=? AND device_id=? AND lease_id=? AND state='leased'`. -/
def leasedUnder (deviceID operationID leaseID : String) : Bool :=
  row.operationID = operationID && row.deviceID = deviceID && row.leaseID = some leaseID && row.state = .leased

/-- The same with `lease_until>?`. -/
def heldUnder (deviceID operationID leaseID : String) : Bool :=
  leasedUnder row deviceID operationID leaseID && row.leaseUntil.any (now < ·)

def progressed (progress : OperationProgress) : OperationRow ρ υ :=
  { row with
    progress := some progress
    leaseUntil := some (now + operationHeartbeatTTL)
    runningAt :=
      if progress.phase = "running" && row.finalizingAt.isNone then some (row.runningAt.getD now) else row.runningAt
    finalizingAt :=
      if progress.phase = "finalizing" && row.runningAt.isSome then some (row.finalizingAt.getD now)
      else row.finalizingAt
    updatedAt := now }

def cancelRequest : OperationRow ρ υ :=
  if row.state = .queued then
    { row with cancelRequested := true, state := .cancelled, safeCode := "operation_cancelled", updatedAt := now }
  else { row with cancelRequested := true, updatedAt := now }

def acknowledged : OperationRow ρ υ :=
  { row with
    state := .cancelled
    cancelRequested := true
    safeCode := "operation_cancelled"
    leaseID := none
    leaseUntil := none
    updatedAt := now }

def completed (result : υ) (safeCode : String) : OperationRow ρ υ :=
  { row with
    state := if safeCode ≠ "" then .failed else .succeeded
    result := some result
    safeCode := safeCode
    leaseID := none
    leaseUntil := none
    updatedAt := now }

end

inductive Scope where
  | device (deviceID : String)
  | operation (operationID : String)

def Scope.covers {ρ υ : Type} (row : OperationRow ρ υ) : Scope → Bool
  | .device deviceID => row.deviceID = deviceID
  | .operation operationID => row.operationID = operationID

abbrev OperationTable (ρ υ : Type) := Table (OperationRow ρ υ) OperationRow.operationID OperationRow.operationID

namespace OperationTable

variable {ρ υ : Type} (t : OperationTable ρ υ)

/-- An `UPDATE` that leaves the primary key alone. -/
def set (p : OperationRow ρ υ → Bool) (f : OperationRow ρ υ → OperationRow ρ υ)
    (keeps : ∀ row, (f row).operationID = row.operationID) : OperationTable ρ υ :=
  t.update p f keeps keeps

theorem recovered_id (now : Time) (row : OperationRow ρ υ) : (recovered now row).operationID = row.operationID := by
  unfold recovered
  split
  · rfl
  · split
    · rfl
    · split <;> rfl

theorem cancelRequest_id (now : Time) (row : OperationRow ρ υ) :
    (cancelRequest now row).operationID = row.operationID := by
  unfold cancelRequest
  split <;> rfl

def recoverExpiredOperationLeases (now : Time) (scope : Scope) : OperationTable ρ υ :=
  t.set (fun row => scope.covers row && leaseExpired now row) (recovered now) (recovered_id now)

def expireQueuedProjectExecs (now : Time) (scope : Scope) : OperationTable ρ υ :=
  t.set (fun row => scope.covers row && queueExpired now row) (expired now) (fun _ => rfl)

/-- `ORDER BY updated_at,operation_id`. -/
def queuedBefore (a b : OperationRow ρ υ) : Prop :=
  a.updatedAt < b.updatedAt ∨ a.updatedAt = b.updatedAt ∧ a.operationID ≤ b.operationID

/-- `ORDER BY updated_at,created_at,operation_id`. -/
def prunedBefore (a b : OperationRow ρ υ) : Prop :=
  a.updatedAt < b.updatedAt ∨ a.updatedAt = b.updatedAt ∧
    (a.createdAt < b.createdAt ∨ a.createdAt = b.createdAt ∧ a.operationID ≤ b.operationID)

instance (a b : OperationRow ρ υ) : Decidable (queuedBefore a b) := by
  unfold queuedBefore
  infer_instance

instance (a b : OperationRow ρ υ) : Decidable (prunedBefore a b) := by
  unfold prunedBefore
  infer_instance

def queuedFor (deviceID : String) (row : OperationRow ρ υ) : Bool := row.deviceID = deviceID && row.state = .queued

def next (deviceID : String) (compatible : Bool) : Option (OperationRow ρ υ) :=
  ((t.rows.filter fun row => queuedFor deviceID row && (compatible || row.kind.isRecovery)).insertionSort
    queuedBefore).head?

/-- `ORDER BY created_at DESC,rowid DESC LIMIT 1`. -/
def latest (deviceID : String) (kind : OperationKind) (digest : String) : Option (OperationRow ρ υ) :=
  (t.rows.filter fun row => row.deviceID = deviceID && row.kind = kind && row.requestDigest = digest).foldl
    (fun best row => if best.any (fun other : OperationRow ρ υ => row.createdAt < other.createdAt) then best
      else some row) none

def prunable : List (OperationRow ρ υ) :=
  ((t.rows.filter fun row => row.state.final).insertionSort prunedBefore).take operationStoragePruneBatch

def prune : OperationTable ρ υ := t.delete fun row => (t.prunable.map OperationRow.operationID).contains row.operationID

end OperationTable

structure Pages where
  pageCount : Int
  freePages : Int
  maxPages : Int

def operationStorageCapacity (pages : Option Pages) : Option (Int × Int) :=
  pages.bind fun p =>
    if p.maxPages < 1 || p.pageCount < 0 || p.freePages < 0 || p.maxPages < p.pageCount then none
    else some (p.maxPages - p.pageCount + p.freePages,
      min (max (p.maxPages / 16) 1) maxOperationStorageReservePages)

/-- Whether there is room for a further operation, and what pruning left. -/
def ensureOperationStorageCapacity {ρ υ : Type} (pages : Nat → Option Pages) :
    Nat → OperationTable ρ υ → Bool × OperationTable ρ υ
  | 0, t => (false, t)
  | attempts + 1, t =>
    match operationStorageCapacity (pages attempts) with
    | none => (false, t)
    | some (available, reserve) =>
      if reserve ≤ available then (true, t)
      else if t.prunable.isEmpty then (false, t)
      else ensureOperationStorageCapacity pages attempts t.prune

structure OperationStore (ρ υ : Type) where
  identity : Store
  operations : OperationTable ρ υ
  expectedOperationProtocol : String
  expectedOperationCatalog : String

structure Readings where
  first : Time
  second : Time
  third : Time
  first_le : first ≤ second
  second_le : second ≤ third

namespace OperationStore

variable {ρ υ : Type}

def new : OperationStore ρ υ := ⟨.new, .empty, "", ""⟩

variable (contract : Contract ρ υ) (crypto : Crypto) (s : OperationStore ρ υ) (clock : Readings)

def sweep (scope : Scope) : OperationStore ρ υ :=
  { s with operations :=
      (s.operations.recoverExpiredOperationLeases clock.first scope).expireQueuedProjectExecs clock.second scope }

def operationLifecycleByID (operationID : String) : Except String (Operation ρ υ) :=
  match s.operations.find operationID with
  | none => .error "sql: no rows in result set"
  | some row => scanOperationLifecycle contract row

def deviceActive (deviceID : String) : Bool :=
  (s.identity.devices.find deviceID).any fun device => device.state = .active

def requestDigest (kind : OperationKind) (request : ρ) : String :=
  encodeHex (crypto.sum256
    (if kind.usesIdempotency then bytes (contract.idempotencyKey request) else contract.requestBody request))

/-- What `CreateOperation` does with an operation of the same digest: it is an error, the
answer, or no obstacle. -/
def reuse (kind : OperationKind) (request : ρ) (row : OperationRow ρ υ) :
    Except String (Option (Operation ρ υ)) := do
  let existing ← orFail "edge operation persistence failed: lookup" (scanOperationLifecycle contract row)
  reject (kind.usesIdempotency && !contract.requestsEqual existing.request request)
    "edge operation idempotency conflict"
  if kind = .labPrepare || kind = .labRetarget || kind.usesIdempotency || existing.state = .queued ||
      existing.state = .leased then
    return some existing
  else return none

def queuedRow (deviceID : String) (kind : OperationKind) (request : ρ) (digest id : String) (now : Time) :
    OperationRow ρ υ where
  operationID := id
  deviceID := deviceID
  kind := kind
  request := request
  requestDigest := digest
  state := .queued
  leaseID := none
  leaseUntil := none
  leaseAttempts := 0
  firstLeasedAt := none
  leasedAt := none
  runningAt := none
  finalizingAt := none
  result := none
  safeCode := ""
  cancelRequested := false
  progress := none
  createdAt := now
  updatedAt := now

/-- The end of `CreateOperation`: room for the row, its name and the insertion. -/
def addOperation (deviceID : String) (kind : OperationKind) (request : ρ) (pages : Nat → Option Pages)
    (draw : Option (List Nat)) : Except String (Operation ρ υ × Bool) × OperationStore ρ υ :=
  let room := ensureOperationStorageCapacity pages operationStoragePruneAttempts s.operations
  let pruned := { s with operations := room.2 }
  if !room.1 then (.error "edge operation persistence failed: insert", pruned)
  else match draw with
    | none => (.error "edge operation generation failed", pruned)
    | some value =>
      let row := queuedRow deviceID kind request (requestDigest contract crypto kind request)
        (randomOpaque "eo_" value) clock.third
      match room.2.insert row with
      | none => (.error "edge operation persistence failed: insert", pruned)
      | some inserted => (.ok (scanOperation contract row, true), { s with operations := inserted })

def createOperation (deviceID : String) (kind : OperationKind) (request : ρ) (pages : Nat → Option Pages)
    (draw : Option (List Nat)) : Except String (Operation ρ υ × Bool) × OperationStore ρ υ :=
  match contract.validate kind request with
  | none => (.error "edge operation is invalid", s)
  | some request =>
    if !idPattern.matchString deviceID then (.error "edge operation is invalid", s)
    else
      let swept := s.sweep clock (.device deviceID)
      if !swept.deviceActive deviceID then (.error "active edge device not found", swept)
      else match swept.operations.latest deviceID kind (requestDigest contract crypto kind request) with
        | none => swept.addOperation contract crypto clock deviceID kind request pages draw
        | some row =>
          match reuse contract kind request row with
          | .error e => (.error e, swept)
          | .ok (some existing) => (.ok (existing, false), swept)
          | .ok none => swept.addOperation contract crypto clock deviceID kind request pages draw

def setExpectedOperationCompatibility (protocol catalog : String) : Except String (OperationStore ρ υ) := do
  reject (trimSpace protocol = "" || !operationCatalogPattern.matchString (trimSpace catalog))
    "edge operation compatibility is invalid"
  return { s with
    expectedOperationProtocol := trimSpace protocol
    expectedOperationCatalog := trimSpace catalog }

def compatible (observedProtocol observedCatalog : String) : Bool :=
  s.expectedOperationProtocol = "" || (trimSpace observedProtocol = s.expectedOperationProtocol &&
    operationCatalogPattern.matchString (trimSpace observedCatalog))

/-- One transaction with one reading of the clock; what is rolled back leaves the store as it was. -/
def leaseOperationCompatible (now : Time) (deviceID : String) (ttl : Duration)
    (observedProtocol observedCatalog : String) (draw : Option (List Nat)) :
    Except OperationError (OperationLease ρ υ) × OperationStore ρ υ :=
  if !idPattern.matchString deviceID || ttl < minLeaseTTL || maxLeaseTTL < ttl then
    (.error (.message "operation lease is invalid"), s)
  else
    let tx := (s.operations.recoverExpiredOperationLeases now (.device deviceID)).expireQueuedProjectExecs now
      (.device deviceID)
    let compatible := s.compatible observedProtocol observedCatalog
    match tx.next deviceID compatible with
    | none =>
      if !compatible && 0 < tx.count (OperationTable.queuedFor deviceID) then
        (.error (.compatibility s.expectedOperationProtocol s.expectedOperationCatalog
          (trimSpace observedProtocol) (trimSpace observedCatalog)), s)
      else (.error .noTaskAvailable, { s with operations := tx })
    | some row =>
      match draw with
      | none => (.error (.message "operation lease unavailable"), s)
      | some value =>
        let leaseID := randomOpaque "el_" value
        let leased := tx.set (fun other => other.operationID = row.operationID && other.state = .queued)
          (granted now · leaseID (now + ttl)) (fun _ => rfl)
        match leased.find row.operationID with
        | none => (.error (.message "operation lease unavailable"), s)
        | some row =>
          (.ok ⟨scanOperation contract row, leaseID, now + ttl⟩, { s with operations := leased })

def reportOperationProgress (now : Time) (deviceID operationID leaseID : String) (progress : OperationProgress) :
    Except String (OperationControl × OperationStore ρ υ) := do
  reject (!idPattern.matchString deviceID || !operationIDPattern.matchString operationID ||
    !leaseIDPattern.matchString leaseID || !validOperationProgress progress ||
    maxOperationProgressBytes < (bytes progress.body).length) "operation progress is invalid"
  let row ← required "active operation lease not found"
    (s.operations.rows.find? (heldUnder now · deviceID operationID leaseID))
  reject (row.progress.any fun current => maxOperationProgressBytes < (bytes current.body).length ||
    !validOperationProgress current || progress.revision ≤ current.revision)
    "operation progress revision is invalid"
  let operations := s.operations.set (heldUnder now · deviceID operationID leaseID) (progressed now · progress)
    (fun _ => rfl)
  return (⟨row.cancelRequested⟩, { s with operations })

def readBack (operationID : String) (operations : OperationTable ρ υ) :
    Except String (Operation ρ υ) × OperationStore ρ υ :=
  let written := { s with operations }
  (written.operationLifecycleByID contract operationID, written)

def requestOperationCancel (operationID : String) : Except String (Operation ρ υ) × OperationStore ρ υ :=
  if !operationIDPattern.matchString operationID then (.error "operation id is invalid", s)
  else
    let operations := s.operations.recoverExpiredOperationLeases clock.first (.operation operationID)
    let swept := { s with operations }
    match operations.find operationID with
    | none => (.error "edge operation not found", swept)
    | some row =>
      if row.state = .cancelled then s.readBack contract operationID operations
      else if row.state ≠ .queued && row.state ≠ .leased then
        (.error "cancellable edge operation not found", swept)
      else if row.state = .leased && !row.kind.interruptible then
        (.error "running edge operation is not cancellable", swept)
      else
        let requested := operations.set
          (fun other => other.operationID = operationID && (other.state = .queued || other.state = .leased))
          (cancelRequest clock.third) (OperationTable.cancelRequest_id clock.third)
        s.readBack contract operationID requested

def cancelLeasedOperation (now : Time) (deviceID operationID leaseID : String) :
    Except String (Operation ρ υ) × OperationStore ρ υ :=
  if !idPattern.matchString deviceID || !operationIDPattern.matchString operationID ||
      !leaseIDPattern.matchString leaseID then
    (.error "operation cancellation acknowledgement is invalid", s)
  else if s.operations.count (heldUnder now · deviceID operationID leaseID) ≠ 1 then
    (.error "active operation lease not found", s)
  else s.readBack contract operationID
    (s.operations.set (heldUnder now · deviceID operationID leaseID) (acknowledged now) (fun _ => rfl))

def completable (now : Time) (deviceID operationID leaseID : String) (row : OperationRow ρ υ) : Bool :=
  heldUnder now row deviceID operationID leaseID && !row.cancelRequested

def completeOperation (now : Time) (deviceID operationID leaseID : String) (result : υ) (safeCode : String) :
    Except String (Operation ρ υ) × OperationStore ρ υ :=
  if !idPattern.matchString deviceID || !operationIDPattern.matchString operationID ||
      !leaseIDPattern.matchString leaseID then (.error "operation completion is invalid", s)
  else match s.operations.rows.find? (leasedUnder · deviceID operationID leaseID) with
    | none => (.error "active operation lease not found", s)
    | some row =>
      let valid := contract.validCompletion row.kind result safeCode
      let result := if valid then result else contract.zeroResult
      let safeCode := if valid then safeCode else "operation_result_invalid"
      if s.operations.count (completable now deviceID operationID leaseID) ≠ 1 then
        (.error "active operation lease not found", s)
      else s.readBack contract operationID
        (s.operations.set (completable now deviceID operationID leaseID) (completed now · result safeCode)
          (fun _ => rfl))

/-- `OperationStatus` and `OperationLifecycleStatus`. -/
def operationStatus (operationID : String) : Except String (Operation ρ υ) × OperationStore ρ υ :=
  if !operationIDPattern.matchString operationID then (.error "operation id is invalid", s)
  else
    let swept := s.sweep clock (.operation operationID)
    (orFail "edge operation not found" (swept.operationLifecycleByID contract operationID), swept)

def operationByIdempotency (deviceID : String) (kind : OperationKind) (key : String) :
    Except String (Option (Operation ρ υ)) × OperationStore ρ υ :=
  if !idPattern.matchString deviceID || !kind.usesIdempotency ||
      !projectOperationIdempotencyPattern.matchString (trimSpace key) then
    (.error "edge operation idempotency lookup is invalid", s)
  else
    let operations := s.operations.recoverExpiredOperationLeases clock.first (.device deviceID)
    let answer := match operations.latest deviceID kind (encodeHex (crypto.sum256 (bytes (trimSpace key)))) with
      | none => .ok none
      | some row => (orFail "edge operation persistence failed" (scanOperationLifecycle contract row)).map some
    (answer, { s with operations })

/-- `ORDER BY created_at,operation_id`. -/
def listedBefore (a b : OperationRow ρ υ) : Prop :=
  a.createdAt < b.createdAt ∨ a.createdAt = b.createdAt ∧ a.operationID ≤ b.operationID

instance (a b : OperationRow ρ υ) : Decidable (listedBefore a b) := by
  unfold listedBefore
  infer_instance

def activeOperations (deviceID : String) (limit : Int) :
    Except String (List (Operation ρ υ)) × OperationStore ρ υ :=
  if !idPattern.matchString deviceID || limit < 1 || 100 < limit then
    (.error "active operation list request is invalid", s)
  else
    let swept := s.sweep clock (.device deviceID)
    let rows := ((swept.operations.rows.filter fun row =>
      row.deviceID = deviceID && (row.state = .queued || row.state = .leased)).insertionSort listedBefore).take
        limit.toNat
    (orFail "active operation list unavailable" (rows.mapM (scanOperationLifecycle contract)), swept)

end OperationStore

inductive OperationCall (ρ υ : Type) where
  | identity (call : Call)
  | setExpectedOperationCompatibility (protocol catalog : String)
  | createOperation (deviceID : String) (kind : OperationKind) (request : ρ) (pages : Nat → Option Pages)
      (draw : Option (List Nat))
  | leaseOperationCompatible (deviceID : String) (ttl : Duration) (observedProtocol observedCatalog : String)
      (draw : Option (List Nat))
  | reportOperationProgress (deviceID operationID leaseID : String) (progress : OperationProgress)
  | requestOperationCancel (operationID : String)
  | cancelLeasedOperation (deviceID operationID leaseID : String)
  | completeOperation (deviceID operationID leaseID : String) (result : υ) (safeCode : String)
  | operationStatus (operationID : String)
  | operationByIdempotency (deviceID : String) (kind : OperationKind) (key : String)
  | activeOperations (deviceID : String) (limit : Int)

/-- A call with the readings of the clock it sees; one that reads the clock once sees the third. -/
structure OperationInput (ρ υ : Type) where
  clock : Readings
  call : OperationCall ρ υ

inductive OperationReply (ρ υ : Type) where
  | identity (reply : Reply)
  | done
  | operation (operation : Operation ρ υ) (created : Bool)
  | lease (lease : OperationLease ρ υ)
  | control (control : OperationControl)
  | lookup (operation : Option (Operation ρ υ))
  | operations (operations : List (Operation ρ υ))

abbrev OperationAnswer (ρ υ : Type) := Except OperationError (OperationReply ρ υ)

section

variable {ρ υ : Type}

def answered {α : Type} (reply : α → OperationReply ρ υ) (call : Except String α × OperationStore ρ υ) :
    OperationAnswer ρ υ × OperationStore ρ υ :=
  (match call.1 with
    | .ok a => .ok (reply a)
    | .error e => .error (.message e), call.2)

/-- The answer of one statement; a refused one writes nothing. -/
def stated {α : Type} (s : OperationStore ρ υ) (reply : α → OperationReply ρ υ) :
    Except String (α × OperationStore ρ υ) → OperationAnswer ρ υ × OperationStore ρ υ
  | .ok (a, s') => (.ok (reply a), s')
  | .error e => (.error (.message e), s)

def OperationStore.exec (contract : Contract ρ υ) (crypto : Crypto) (s : OperationStore ρ υ)
    (input : OperationInput ρ υ) : OperationAnswer ρ υ × OperationStore ρ υ :=
  let clock := input.clock
  match input.call with
  | .identity call =>
    let made := s.identity.exec crypto ⟨clock.third, call⟩
    answered .identity (made.1, { s with identity := made.2 })
  | .setExpectedOperationCompatibility protocol catalog =>
    stated s (fun _ : Unit => .done) ((s.setExpectedOperationCompatibility protocol catalog).map ((), ·))
  | .createOperation deviceID kind request pages draw =>
    answered (fun made => .operation made.1 made.2)
      (s.createOperation contract crypto clock deviceID kind request pages draw)
  | .leaseOperationCompatible deviceID ttl observedProtocol observedCatalog draw =>
    let leased := s.leaseOperationCompatible contract clock.third deviceID ttl observedProtocol observedCatalog draw
    (leased.1.map .lease, leased.2)
  | .reportOperationProgress deviceID operationID leaseID progress =>
    stated s .control (s.reportOperationProgress clock.third deviceID operationID leaseID progress)
  | .requestOperationCancel operationID =>
    answered (.operation · false) (s.requestOperationCancel contract clock operationID)
  | .cancelLeasedOperation deviceID operationID leaseID =>
    answered (.operation · false) (s.cancelLeasedOperation contract clock.third deviceID operationID leaseID)
  | .completeOperation deviceID operationID leaseID result safeCode =>
    answered (.operation · false)
      (s.completeOperation contract clock.third deviceID operationID leaseID result safeCode)
  | .operationStatus operationID => answered (.operation · false) (s.operationStatus contract clock operationID)
  | .operationByIdempotency deviceID kind key =>
    answered .lookup (s.operationByIdempotency contract crypto clock deviceID kind key)
  | .activeOperations deviceID limit =>
    answered .operations (s.activeOperations contract clock deviceID limit)

end

end Aeontra.Edge
