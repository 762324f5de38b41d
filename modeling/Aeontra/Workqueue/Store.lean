import Aeontra.Workqueue.Fairness
import Aeontra.Workqueue.Schema

/-!
The job operations of the store.

Every operation runs under the store's mutex inside one transaction, so it is a function from
store to store.  Readings of the clock and random draws are arguments, in the order in which they
are taken.  A failed statement of the database engine itself is not modelled.
-/

namespace Aeontra.Workqueue

open Library

structure Store where
  config : Config
  validated : validateConfig config = .ok config
  db : DB
  fair : FairScheduler

def initialFair : FairScheduler := ⟨⟨1, minute⟩, fun _ => 0, ""⟩

def Store.empty (config : Config) (validated : validateConfig config = .ok config) : Store :=
  ⟨config, validated, .empty, initialFair⟩

/-- An outer error rolls back; otherwise the new database is committed, and the inner result is reported. -/
def Store.transact {α : Type} (s : Store) (body : DB → Except String (Except String α × DB)) :
    Except String α × Store :=
  match body s.db with
  | .error e => (.error e, s)
  | .ok (reply, db) => (reply, { s with db := db })

def JobRow.leaseTo (leaseID holder : String) (expires now : UnixNano) (row : JobRow) : JobRow :=
  { row with
    state := .leased, reason := .none, attempt := row.attempt + 1, fence := row.fence + 1
    leaseID := some leaseID, leaseHolder := some holder, leaseUntil := some expires
    updatedAt := now }

def JobRow.extendLease (expires now : UnixNano) (row : JobRow) : JobRow :=
  { row with leaseUntil := some expires, updatedAt := now }

def JobRow.complete (outcome : State) (result : Result) (now : UnixNano) (row : JobRow) : JobRow :=
  { row with
    state := outcome, reason := .none, outcome := some outcome, summary := some result.summary
    resultRef := nullableString result.resultRef, updatedAt := now }

def JobRow.requestCancel (now : UnixNano) (row : JobRow) : JobRow :=
  { row with cancelRequested := true, reason := .cancelRequested, updatedAt := now }

def JobRow.cancel (now : UnixNano) (row : JobRow) : JobRow :=
  { row with
    state := .cancelled, reason := .cancelled, cancelRequested := true, outcome := some .cancelled
    summary := some "cancelled", updatedAt := now }

/-- What `recoverExpired` writes: state, reason, outcome and summary. -/
structure Recovery where
  state : State
  reason : Reason
  outcome : Option State
  summary : Option String

def recovery (cancelRequested : Bool) (attempt : Nat) : Recovery :=
  if cancelRequested then ⟨.cancelled, .cancelled, some .cancelled, some "cancelled"⟩
  else if attempt ≥ maxLeaseAttempts then
    ⟨.failed, .recoveryExhausted, some .failed, some Reason.recoveryExhausted.text⟩
  else ⟨.queued, .leaseExpired, none, none⟩

def JobRow.recover (r : Recovery) (now : UnixNano) (row : JobRow) : JobRow :=
  { row with
    state := r.state, reason := r.reason, leaseID := none, leaseHolder := none, leaseUntil := none
    outcome := r.outcome, summary := r.summary, updatedAt := now }

/-- What `propagate` writes to a job that is no longer blocked. -/
def JobRow.settleDependencies (state : State) (reason : Reason) (now : UnixNano) (row : JobRow) : JobRow :=
  { row with
    state := state, reason := reason
    outcome := if terminal state then some state else none
    summary := if terminal state then some "dependency failed" else none
    updatedAt := now }

/-- The state of a job with these dependencies; the first failed one decides. -/
def DB.scanDependencies (db : DB) : (blocked : Bool) → List String → Except String (State × Reason)
  | true, [] => .ok (.blocked, .dependencyPending)
  | false, [] => .ok (.queued, .none)
  | blocked, dependency :: rest => do
    let found ← db.jobByID dependency
    let job ← required "workqueue: dependency not found" found
    match job.state with
    | .succeeded => db.scanDependencies blocked rest
    | .failed | .cancelled => .ok (.failed, .dependencyFailed)
    | _ => db.scanDependencies true rest

def DB.dependencyState (db : DB) (dependencies : List String) : Except String (State × Reason) :=
  db.scanDependencies false dependencies

/-- One dependent of a settled job: the database and the jobs settled by failing here. -/
def propagateTo (now : UnixNano) (db : DB) (dependentID : String) : Except String (DB × List String) := do
  let found ← orFail "workqueue: dependent job unavailable" (db.jobByID dependentID)
  let dependent ← required "workqueue: dependent job unavailable" found
  if dependent.state ≠ .blocked then
    pure (db, [])
  else
    let (state, reason) ← db.dependencyState (db.dependencyIDs dependentID)
    if state = .blocked then
      pure (db, [])
    else
      reject (!legalTransition .blocked state) "workqueue: dependency transition is illegal"
      let db := db.updateJobs (fun row => row.id = dependentID && row.state = .blocked)
        (JobRow.settleDependencies state reason now) (fun _ => rfl) (fun _ => rfl)
      pure (db, if terminal state then [dependentID] else [])

def propagateAll (now : UnixNano) : DB → List String → Except String (DB × List String)
  | db, [] => .ok (db, [])
  | db, dependentID :: rest => do
    let (db, first) ← propagateTo now db dependentID
    let (db, later) ← propagateAll now db rest
    pure (db, first ++ later)

/-- The breadth-first loop of `propagate`; the bound counts its iterations. -/
def propagateLoop (now : UnixNano) : Nat → (queue seen : List String) → DB → Except String DB
  | 0, _, _, db => .ok db
  | _ + 1, [], _, db => .ok db
  | bound + 1, dependency :: queue, seen, db =>
    if seen.contains dependency then propagateLoop now bound queue seen db
    else do
      let (db, settled) ← propagateAll now db (db.dependents dependency)
      propagateLoop now bound (queue ++ settled) (dependency :: seen) db

/-- Every job enters the queue at most once, when it is settled. -/
def propagate (db : DB) (terminalJobID : String) (now : UnixNano) : Except String DB :=
  propagateLoop now (db.jobs.rows.length + 1) [terminalJobID] [] db

structure ExpiredLease where
  id : String
  cancelled : Bool
  attempt : Nat

/-- `SELECT ... WHERE state='leased' AND lease_until<=?`; the statement gives no order. -/
def DB.expiredLeases (db : DB) (now : UnixNano) : List ExpiredLease :=
  (db.jobs.rows.filter fun row => row.state = .leased && row.leaseUntil.any fun t => t ≤ now).map
    fun row => ⟨row.id, row.cancelRequested, row.attempt⟩

def recoverLease (now : UnixNano) (db : DB) (item : ExpiredLease) : Except String DB :=
  let r := recovery item.cancelled item.attempt
  let db := db.updateJobs (fun row => row.id = item.id && row.state = .leased)
    (JobRow.recover r now) (fun _ => rfl) (fun _ => rfl)
  if terminal r.state then propagate db item.id now else .ok db

def recoverExpired (db : DB) (now : UnixNano) : Except String DB :=
  (db.expiredLeases now).foldlM (recoverLease now) db

end Aeontra.Workqueue
