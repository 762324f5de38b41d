import Aeontra.Workqueue.Store

/-!
The exported job operations: admission, leasing, completion, cancellation, reading and
retention.
-/

namespace Aeontra.Workqueue

open Library

/-- `ORDER BY updated_at,job_id`. -/
def JobRow.updatedFirst (left right : JobRow) : Bool :=
  left.updatedAt < right.updatedAt || (left.updatedAt = right.updatedAt && left.id ≤ right.id)

def DB.activeJobs (db : DB) : Nat := db.jobs.count fun row => active row.state

def DB.activeJobsIn (db : DB) (workspace : String) : Nat :=
  db.jobs.count fun row => row.workspace = workspace && active row.state

/-- Read a job whose row the same transaction has just written. -/
def DB.reread (db : DB) (jobID : String) : Except String Job := do
  let found ← db.jobByID jobID
  required "workqueue: job not found" found

def admittedRow (spec : Spec) (jobID : String) (state : State) (reason : Reason) (now : UnixNano) : JobRow where
  id := jobID
  idempotencyKey := spec.idempotencyKey
  workspace := spec.workspace
  pool := spec.pool
  profile := spec.profile
  payloadHash := spec.payloadHash
  state := state
  reason := reason
  createdAt := now
  updatedAt := now
  cancelRequested := false
  attempt := 0
  fence := 0
  leaseID := none
  leaseHolder := none
  leaseUntil := none
  outcome := if state = .failed then some .failed else none
  summary := if state = .failed then some "dependency failed" else none
  resultRef := none

/-- Insert the dependency rows of a job; both ends must name existing jobs. -/
def insertDependencies (jobID : String) : DB → List String → Except String DB
  | db, [] => .ok db
  | db, dependency :: rest => do
    reject (db.jobs.find dependency).isNone "workqueue: dependency persistence failed"
    let dependencies ← required "workqueue: dependency persistence failed"
      (db.dependencies.insert ⟨jobID, dependency⟩)
    insertDependencies jobID { db with dependencies := dependencies } rest

def enqueueTx (config : Config) (spec : Spec) (draw : Draw) (now : UnixNano) (db : DB) :
    Except String (Except String (Job × Bool) × DB) := do
  validateSpec spec
  let spec := canonicalSpec spec
  let existing ← db.jobByIdempotency spec.idempotencyKey
  match existing with
  | some job =>
    reject (job.workspace ≠ spec.workspace || job.pool ≠ spec.pool || job.profile ≠ spec.profile ||
      job.payloadHash ≠ spec.payloadHash ||
      !sameStrings (db.dependencyIDs job.id) spec.dependencies)
      "workqueue: idempotency key conflicts"
    pure (.ok (job, false), db)
  | none =>
    reject ((db.activeJobs : Int) ≥ config.maxJobs) "workqueue: global job bound reached"
    reject ((db.activeJobsIn spec.workspace : Int) ≥ config.maxJobsPerWorkspace)
      "workqueue: workspace job bound reached"
    let (state, reason) ← db.dependencyState spec.dependencies
    let jobID := randomID "wj_" draw
    let jobs ← required "workqueue: job persistence failed"
      (db.jobs.insert (admittedRow spec jobID state reason now))
    let db ← insertDependencies jobID { db with jobs := jobs } spec.dependencies
    pure ((db.reread jobID).map fun job => (job, true), db)

def Store.enqueue (s : Store) (spec : Spec) (draw : Draw) (now : UnixNano) :
    Except String (Job × Bool) × Store :=
  s.transact (enqueueTx s.config spec draw now)

/-- The update shared by both leasing operations, with the messages of the caller. -/
def grantLease (jobID leaseID holder : String) (expires now : UnixNano)
    (lostRace unavailable : String) (db : DB) : Except String (Job × DB) := do
  let picks (row : JobRow) : Bool := row.id = jobID && row.state = .queued
  reject (db.jobs.count picks ≠ 1) lostRace
  let db := db.updateJobs picks (JobRow.leaseTo leaseID holder expires now) (fun _ => rfl)
    (fun _ => rfl)
  let found ← orFail unavailable (db.jobByID jobID)
  let job ← required unavailable found
  pure (job, db)

/-- `SELECT ... ORDER BY updated_at,job_id LIMIT ?`. -/
def DB.leaseCandidates (db : DB) (pool : String) (limit : Int) : List FairCandidate :=
  (((db.jobs.rows.filter fun row =>
    row.pool = pool && row.state = .queued && !row.cancelRequested).insertionSort
      fun left right => left.updatedFirst right = true).take limit.toNat).map fun row =>
        ⟨row.id, row.workspace, 1, row.updatedAt.time⟩

def Store.leaseNext (s : Store) (pool holder : String) (ttl : Duration) (now : UnixNano)
    (draw : Draw) : Except String Lease × Store :=
  if !poolPattern.matchString pool || !holderPattern.matchString holder || ttl < minLeaseTTL ||
      ttl > maxLeaseTTL then
    (.error "workqueue: lease request is invalid", s)
  else
    match recoverExpired s.db now with
    | .error e => (.error e, s)
    | .ok db =>
      let candidates := db.leaseCandidates pool s.config.maxJobs
      if candidates.isEmpty then (.error errNoJobAvailable, { s with db := db })
      else
        match s.fair.select now.time candidates with
        | (.error _, fair) => (.error "workqueue: lease selection failed", { s with fair := fair })
        | (.ok selected, fair) =>
          let leaseID := randomID "wl_" draw
          let expires := now.time + ttl
          match grantLease selected.jobID leaseID holder (.ofTime expires) now
              "workqueue: lease lost race" "workqueue: leased job unavailable" db with
          | .error e => (.error e, { s with fair := fair })
          | .ok (job, db) =>
            (.ok ⟨job, leaseID, job.fence, job.attempt, expires⟩, { s with db := db, fair := fair })

def Store.recoverExpired (s : Store) (now : UnixNano) : Except String Unit × Store :=
  s.transact fun db => do
    let db ← Workqueue.recoverExpired db now
    pure (.ok (), db)

def heartbeatTx (jobID leaseID : String) (fence : Nat) (ttl : Duration) (now : UnixNano) (db : DB) :
    Except String (Except String HeartbeatStatus × DB) := do
  reject (!jobIDPattern.matchString jobID || !leaseIDPattern.matchString leaseID || fence = 0 ||
    ttl < minLeaseTTL || ttl > maxLeaseTTL) "workqueue: heartbeat is invalid"
  let expires := now.time + ttl
  let picks (row : JobRow) : Bool := row.id = jobID && row.state = .leased &&
    row.leaseID = some leaseID && row.fence = fence && row.leaseUntil.any fun t => now < t
  reject (db.jobs.count picks ≠ 1) "workqueue: active fenced lease not found"
  let db := db.updateJobs picks (JobRow.extendLease (.ofTime expires) now) (fun _ => rfl)
    (fun _ => rfl)
  let row ← required "workqueue: heartbeat state unavailable" (db.jobs.find jobID)
  pure (.ok ⟨expires, row.cancelRequested⟩, db)

def Store.heartbeat (s : Store) (jobID leaseID : String) (fence : Nat) (ttl : Duration)
    (now : UnixNano) : Except String HeartbeatStatus × Store :=
  s.transact (heartbeatTx jobID leaseID fence ttl now)

/-- The clock is read once for the expiry check and once for the update. -/
def completeTx (jobID leaseID : String) (fence : Nat) (result : Result) (checked now : UnixNano)
    (db : DB) : Except String (Except String Job × DB) := do
  reject (!jobIDPattern.matchString jobID || !leaseIDPattern.matchString leaseID || fence = 0 ||
    !accepted (validateResult result)) "workqueue: completion is invalid"
  let found ← orFail "workqueue: job not found" (db.jobByID jobID)
  let job ← required "workqueue: job not found" found
  if terminal job.state then
    reject (!(job.leaseID = leaseID && job.fence = fence && job.outcome = result.outcome &&
      job.summary = result.summary && job.resultRef = result.resultRef))
      "workqueue: terminal completion conflicts"
    pure (.ok job, db)
  else
    reject (job.state ≠ .leased || job.leaseID ≠ leaseID || job.fence ≠ fence ||
      !(checked.time < job.leaseExpiresAt)) "workqueue: stale fenced completion rejected"
    reject (job.cancelRequested && result.outcome ≠ some .cancelled)
      "workqueue: cancelled job requires cancelled result"
    let outcome ← required "workqueue: illegal completion transition" result.outcome
    reject (!legalTransition job.state outcome) "workqueue: illegal completion transition"
    let db := db.updateJobs (fun row => row.id = jobID && row.state = .leased &&
        row.leaseID = some leaseID && row.fence = fence)
      (JobRow.complete outcome result now) (fun _ => rfl) (fun _ => rfl)
    let db ← propagate db jobID now
    pure (db.reread jobID, db)

def Store.complete (s : Store) (jobID leaseID : String) (fence : Nat) (result : Result)
    (checked now : UnixNano) : Except String Job × Store :=
  s.transact (completeTx jobID leaseID fence result checked now)

def cancelTx (jobID : String) (now : UnixNano) (db : DB) : Except String (Except String Job × DB) := do
  reject (!jobIDPattern.matchString jobID) "workqueue: job id is invalid"
  let found ← orFail "workqueue: job not found" (db.jobByID jobID)
  let job ← required "workqueue: job not found" found
  if terminal job.state then
    pure (.ok job, db)
  else if job.state = .leased then
    let db := db.updateJobs (fun row => row.id = jobID && row.state = .leased)
      (JobRow.requestCancel now) (fun _ => rfl) (fun _ => rfl)
    pure (db.reread jobID, db)
  else
    reject (!legalTransition job.state .cancelled) "workqueue: cancellation transition is illegal"
    let db := db.updateJobs (fun row => row.id = jobID && row.state = job.state)
      (JobRow.cancel now) (fun _ => rfl) (fun _ => rfl)
    let db ← propagate db jobID now
    pure (db.reread jobID, db)

def Store.cancel (s : Store) (jobID : String) (now : UnixNano) : Except String Job × Store :=
  s.transact (cancelTx jobID now)

/-- The terminal jobs that nothing refers to any more, oldest first. -/
def DB.removableJobs (db : DB) (cutoff : UnixNano) (limit : Int) : List String :=
  (((db.jobs.rows.filter fun row => terminal row.state && row.updatedAt < cutoff &&
    (db.dependencies.rows.all fun d => d.dependencyID ≠ row.id) &&
    (db.taskWorkers.rows.all fun w => w.jobID ≠ row.id)).insertionSort
      fun left right => left.updatedFirst right = true).take limit.toNat).map JobRow.id

/-- `DELETE FROM jobs`, which takes the dependency rows of the deleted jobs with it. -/
def DB.deleteJobs (db : DB) (ids : List String) : DB :=
  { db with
    jobs := db.jobs.delete fun row => ids.contains row.id
    dependencies := db.dependencies.delete fun row => ids.contains row.jobID
    taskWorkers := db.taskWorkers.delete fun row => ids.contains row.jobID }

def cleanupTerminalTx (retention : Duration) (limit : Int) (now : UnixNano) (db : DB) :
    Except String (Except String Nat × DB) := do
  reject (retention < minute || retention > 365 * 24 * hour || limit < 1 || limit > maxListResults)
    "workqueue: cleanup request is invalid"
  let ids := db.removableJobs (.ofTime (now.time - retention)) limit
  pure (.ok ids.length, db.deleteJobs ids)

def Store.cleanupTerminal (s : Store) (retention : Duration) (limit : Int) (now : UnixNano) :
    Except String Nat × Store :=
  s.transact (cleanupTerminalTx retention limit now)

end Aeontra.Workqueue
