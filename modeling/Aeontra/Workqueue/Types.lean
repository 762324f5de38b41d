import Mathlib.Data.List.Sort
import Aeontra.Library.Fallible
import Aeontra.Library.Instant
import Aeontra.Library.JsonText
import Aeontra.Policy.Scan

/-!
States, specifications and results of the work queue, and the checks made on them
before any row is touched.

Machine integers are `Int`; attempts and fences, which start at zero and only grow, are
`Nat`.  A text that names no state is `none`.
-/

namespace Aeontra.Workqueue

open Library

inductive State where
  | blocked | queued | leased | succeeded | failed | cancelled
  deriving DecidableEq

inductive Reason where
  | none | dependencyPending | dependencyFailed | leaseExpired | recoveryExhausted
  | taskGoalUnavailable | cancelled | cancelRequested
  deriving DecidableEq

def Reason.text : Reason → String
  | .none => ""
  | .dependencyPending => "dependency_pending"
  | .dependencyFailed => "dependency_failed"
  | .leaseExpired => "lease_expired"
  | .recoveryExhausted => "recovery_exhausted"
  | .taskGoalUnavailable => "task_goal_unavailable"
  | .cancelled => "cancelled"
  | .cancelRequested => "cancel_requested"

def taskGoalUnavailableSummary : String :=
  "task goal reference unavailable after restart; worker was not started"

def errNoJobAvailable : String := "workqueue: no job available"

def defaultMaxJobs : Int := 1024
def defaultMaxJobsPerWorkspace : Int := 64
def maxDependencies : Nat := 16
def maxListResults : Int := 100
def maxLeaseAttempts : Nat := 4
def minLeaseTTL : Duration := 15 * second
def maxLeaseTTL : Duration := 10 * minute

structure Config where
  controllerID : String
  writers : Int
  maxJobs : Int
  maxJobsPerWorkspace : Int
  deriving DecidableEq

structure Spec where
  idempotencyKey : String
  workspace : String
  pool : String
  profile : String
  payloadHash : String
  dependencies : List String
  deriving DecidableEq

structure Job where
  id : String
  idempotencyKey : String
  workspace : String
  pool : String
  profile : String
  payloadHash : String
  state : State
  reason : Reason
  createdAt : Time
  updatedAt : Time
  cancelRequested : Bool
  attempt : Nat
  fence : Nat
  leaseID : String
  leaseHolder : String
  leaseExpiresAt : Time
  outcome : Option State
  summary : String
  resultRef : String
  deriving DecidableEq

structure Lease where
  job : Job
  id : String
  fence : Nat
  attempt : Nat
  expiresAt : Time
  deriving DecidableEq

structure HeartbeatStatus where
  expiresAt : Time
  cancelRequested : Bool
  deriving DecidableEq

structure Result where
  outcome : Option State
  summary : String
  resultRef : String
  deriving DecidableEq

def nameTail (c : Char) : Bool := isLowerAlnum c || c == '.' || c == '_' || c == '-'

def keyTail (c : Char) : Bool := isAlnum c || c == '.' || c == '_' || c == ':' || c == '-'

def namePattern : Pattern := [[⟨isLowerAlnum, 1, 1⟩, ⟨nameTail, 0, 63⟩]]

def controllerPattern : Pattern := namePattern
def workspacePattern : Pattern := namePattern
def poolPattern : Pattern := namePattern
def profilePattern : Pattern := namePattern
def idempotencyPattern : Pattern := [[⟨isAlnum, 1, 1⟩, ⟨keyTail, 7, 127⟩]]
def holderPattern : Pattern := [[⟨isAlnum, 1, 1⟩, ⟨keyTail, 7, 95⟩]]

def hexPattern (lead : String) (least most : Nat) : Pattern :=
  [Pattern.literal lead ++ [⟨isLowerHex, least, most⟩]]

def jobIDPattern : Pattern := hexPattern "wj_" 32 32
def leaseIDPattern : Pattern := hexPattern "wl_" 32 32
def resultRefPattern : Pattern := hexPattern "rs_" 32 64
def payloadHashPattern : Pattern := hexPattern "sha256:" 64 64

def terminal : State → Bool
  | .succeeded | .failed | .cancelled => true
  | _ => false

def active (state : State) : Bool := !terminal state

def legalTransition : State → State → Bool
  | .blocked, target => target = .queued || target = .failed || target = .cancelled
  | .queued, target => target = .leased || target = .cancelled
  | .leased, target =>
    target = .queued || target = .succeeded || target = .failed || target = .cancelled
  | _, _ => false

def validateConfig (config : Config) : Except String Config := do
  let config := if config.writers = 0 then { config with writers := 1 } else config
  let config := if config.maxJobs = 0 then { config with maxJobs := defaultMaxJobs } else config
  let config := if config.maxJobsPerWorkspace = 0 then
    { config with maxJobsPerWorkspace := defaultMaxJobsPerWorkspace } else config
  reject (!controllerPattern.matchString config.controllerID || config.writers ≠ 1 ||
    config.maxJobs < 1 || config.maxJobs > 4096 || config.maxJobsPerWorkspace < 1 ||
    config.maxJobsPerWorkspace > config.maxJobs) "workqueue: configuration is invalid"
  pure config

/-- The loop of `validateSpec` over the dependencies, with those already seen. -/
def checkDependencies : (seen dependencies : List String) → Except String Unit
  | _, [] => .ok ()
  | seen, dependency :: rest => do
    reject (!jobIDPattern.matchString dependency) "workqueue: dependency is invalid"
    reject (seen.contains dependency) "workqueue: duplicate dependency"
    checkDependencies (dependency :: seen) rest

def validateSpec (spec : Spec) : Except String Unit := do
  reject (!idempotencyPattern.matchString spec.idempotencyKey ||
    !workspacePattern.matchString spec.workspace || !poolPattern.matchString spec.pool ||
    !profilePattern.matchString spec.profile || !payloadHashPattern.matchString spec.payloadHash ||
    spec.dependencies.length > maxDependencies) "workqueue: job specification is invalid"
  checkDependencies [] spec.dependencies

/-- `sort.Strings`. -/
def sortStrings (texts : List String) : List String := texts.insertionSort (· ≤ ·)

def canonicalSpec (spec : Spec) : Spec :=
  { spec with dependencies := sortStrings spec.dependencies }

def validateResult (result : Result) : Except String Unit := do
  reject (result.outcome ≠ some .succeeded && result.outcome ≠ some .failed &&
    result.outcome ≠ some .cancelled) "workqueue: result outcome is invalid"
  reject (byteLength result.summary < 1 || byteLength result.summary > 2048 ||
    (result.resultRef ≠ "" && !resultRefPattern.matchString result.resultRef))
    "workqueue: result is invalid"
  let (redacted, changed) := Policy.redact result.summary
  reject (changed || redacted ≠ result.summary) "workqueue: result contains secret material"

end Aeontra.Workqueue
