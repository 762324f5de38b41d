import Aeontra.Workqueue.TaskWorkers

/-!
The development tables: the runner journal, requests and objectives.
-/

namespace Aeontra.Workqueue

open Library

/-- The instants whose year `json.Marshal` can write. -/
def timeMarshals (t : Time) : Bool := -62167219200 * second ≤ t && t < 253402300800 * second

def marshalRunnerEffect (r : DevelopmentRunnerEffect) : Option String :=
  if timeMarshals r.startedAt && timeMarshals r.completedAt then some (Encode.runnerEffect r) else none

def readRunnerEffect (row : DevelopmentRunnerEffectRow) : Except String DevelopmentRunnerEffect := do
  reject (byteLength (Encode.runnerEffect row.record) > 4096 || !row.record.valid ||
    row.revision ≠ row.record.revision) "workqueue: corrupt runner effect"
  pure row.record

def DB.runnerEffect (db : DB) (effectID : String) : Except String (Option DevelopmentRunnerEffect) :=
  match db.developmentRunnerEffects.find effectID with
  | none => .ok none
  | some row => (readRunnerEffect row).map some

def checkRunnerRevision (old r : DevelopmentRunnerEffect) : Except String Unit := do
  reject (old.bindingDigest ≠ r.bindingDigest || old.templateDigest ≠ r.templateDigest ||
    old.workflowID ≠ r.workflowID || old.commandProfile ≠ r.commandProfile || old.jobID ≠ r.jobID ||
    old.startedAt ≠ r.startedAt || old.fence > r.fence || (old.runID ≠ 0 && old.runID ≠ r.runID))
    "workqueue: runner identity conflict"
  reject (old.revision = r.revision) "workqueue: runner revision conflict"
  reject (old.revision + 1 ≠ r.revision || old.state.settled ||
    (old.state = .cancelIntent && r.state ≠ .cancelIntent && r.state ≠ .cancelled &&
      r.state ≠ .failed)) "workqueue: runner transition conflict"

/-- A settled effect without a completion time takes the clock's. -/
def completeRunnerEffect (r : DevelopmentRunnerEffect) (now : UnixNano) : DevelopmentRunnerEffect :=
  if r.state.settled && r.completedAt = zeroTime then
    { r with completedAt := max now.time r.startedAt }
  else r

/-- The clock is read once for the lease and once for the completion time. -/
def saveDevelopmentRunnerEffectTx (r : DevelopmentRunnerEffect) (leaseID : String) (fence : Nat)
    (checked now : UnixNano) (db : DB) : Except String (Except String Bool × DB) := do
  reject (!r.valid) "workqueue: invalid runner effect"
  let found ← orFail "workqueue: runner lease is stale" (db.jobByID r.jobID)
  let job ← required "workqueue: runner lease is stale" found
  reject (job.state ≠ .leased || job.leaseID ≠ leaseID || job.fence ≠ fence || r.fence ≠ fence ||
    !(checked.time < job.leaseExpiresAt)) "workqueue: runner lease is stale"
  let existing ← db.runnerEffect r.effectID
  match existing with
  | some old =>
    checkRunnerRevision old r
    let r := completeRunnerEffect r now
    let body ← required "workqueue: runner record invalid" (marshalRunnerEffect r)
    reject (byteLength body > 4096) "workqueue: runner record invalid"
    let effects := db.developmentRunnerEffects.update
      (fun row => row.effectID = r.effectID && row.revision = old.revision)
      (fun row => { row with revision := r.revision, record := r }) (fun _ => rfl) (fun _ => rfl)
    pure (.ok false, { db with developmentRunnerEffects := effects })
  | none =>
    reject (r.revision ≠ 1 || r.state ≠ .dispatchIntent || r.runID ≠ 0)
      "workqueue: runner must start with intent"
    reject (db.developmentRunnerEffects.rows.length ≥ maxDevelopmentRunnerEffects)
      "workqueue: runner journal capacity reached"
    let r := completeRunnerEffect r now
    let body ← required "workqueue: runner record invalid" (marshalRunnerEffect r)
    reject (byteLength body > 4096) "workqueue: runner record invalid"
    let effects ← required "workqueue: runner persistence failed"
      (db.developmentRunnerEffects.insert ⟨r.effectID, r.revision, r⟩)
    pure (.ok true, { db with developmentRunnerEffects := effects })

def Store.saveDevelopmentRunnerEffect (s : Store) (r : DevelopmentRunnerEffect) (leaseID : String)
    (fence : Nat) (checked now : UnixNano) : Except String Bool × Store :=
  s.transact (saveDevelopmentRunnerEffectTx r leaseID fence checked now)

/-- A settled effect that was completed, or else started, no later than the cutoff. -/
def expiredEffect (retained : List String) (cutoff : Time) (row : DevelopmentRunnerEffectRow) : Bool :=
  let settledAt := if row.record.completedAt = zeroTime then row.record.startedAt else row.record.completedAt
  !retained.contains row.effectID && !(cutoff < settledAt) && row.record.state.settled

def pruneDevelopmentRunnerEffectsTx (retained : List String) (now : UnixNano) (db : DB) :
    Except String (Except String Unit × DB) := do
  reject (retained.length > 2 || retained.any fun id => !runnerEffectPattern.matchString id)
    "workqueue: runner retention invalid"
  reject (db.developmentRunnerEffects.rows.length > maxDevelopmentRunnerEffects ||
    db.developmentRunnerEffects.rows.any fun row =>
      !accepted (readRunnerEffect row) || row.record.effectID ≠ row.effectID)
    "workqueue: runner retention corrupt"
  let expired := db.developmentRunnerEffects.rows.filter
    (expiredEffect retained (now.time - runnerEffectRetention))
  let removed ← expired.mapM fun row => do
    let found ← orFail "workqueue: runner retention job unavailable" (db.jobByID row.record.jobID)
    let job ← required "workqueue: runner retention job unavailable" found
    pure (row.effectID, terminal job.state)
  pure (.ok (), { db with
    developmentRunnerEffects := db.developmentRunnerEffects.delete fun row =>
      removed.contains (row.effectID, true) })

def Store.pruneDevelopmentRunnerEffects (s : Store) (retained : List String) (now : UnixNano) :
    Except String Unit × Store :=
  s.transact (pruneDevelopmentRunnerEffectsTx retained now)

def scanDevelopmentRequest (row : DevelopmentRequestRow) : Except String DevelopmentRequest := do
  reject (row.revision < 1 || row.revision > maxDevelopmentRequestRevision || !row.record.valid ||
    row.record.id ≠ row.requestID || row.record.revision ≠ row.revision ||
    row.record.state ≠ row.state || row.record.keyDigest ≠ row.keyDigest)
    "workqueue: development request record is corrupt"
  let (_, digest) ← orFail "workqueue: development request record is corrupt"
    (marshalDevelopmentRequest row.record)
  reject (digest ≠ row.recordDigest) "workqueue: development request record is corrupt"
  pure row.record

def readDevelopmentRequest : Option DevelopmentRequestRow → Except String (Option DevelopmentRequest)
  | none => .ok none
  | some row => (scanDevelopmentRequest row).map some

def pruneExpiredDevelopmentRequests (db : DB) (now : UnixNano) : DB :=
  let cutoff := UnixNano.ofTime (now.time - developmentRequestIdempotencyTTL)
  { db with
    developmentRequests := db.developmentRequests.delete fun row =>
      developmentRequestTerminal row.state && row.updatedAt ≤ cutoff }

def nextDevelopmentRequestUpdatedAt (previous observed : UnixNano) : Except String UnixNano :=
  if observed ≤ previous then do
    reject (previous.nanos = 2 ^ 63 - 1) "workqueue: development request update timestamp exhausted"
    pure (.ofTime (previous.time + 1))
  else .ok observed

/-- Replace the record of a request that still has the revision and digest it was read with. -/
def DB.updateRequest (db : DB) (request : DevelopmentRequest) (oldRevision : Nat)
    (oldDigest digest : String) (updatedAt : UnixNano) (conflict : String) : Except String DB := do
  let picks (row : DevelopmentRequestRow) : Bool :=
    row.requestID = request.id && row.revision = oldRevision && row.recordDigest = oldDigest
  reject (db.developmentRequests.count picks ≠ 1) conflict
  pure { db with
    developmentRequests := db.developmentRequests.update picks
      (fun row => { row with
        revision := request.revision, state := request.state, recordDigest := digest
        record := request, updatedAt := updatedAt }) (fun _ => rfl) (fun _ => rfl) }

def saveDevelopmentRequestTx (request : DevelopmentRequest) (now : UnixNano) (db : DB) :
    Except String (Except String (DevelopmentRequest × Bool) × DB) := do
  let (_, digest) ← orFail "workqueue: development request is invalid"
    (marshalDevelopmentRequest request)
  -- A replay returns before the commit, so its pruning is rolled back.
  let pruned := pruneExpiredDevelopmentRequests db now
  let existing ← readDevelopmentRequest (pruned.developmentRequests.find request.id)
  match existing with
  | none =>
    let byKey ← readDevelopmentRequest (pruned.developmentRequests.findUnique request.keyDigest)
    match byKey with
    | some original =>
      reject (!sameDevelopmentRequestBinding request original)
        "workqueue: development request idempotency key conflicts"
      pure (.ok (original, false), db)
    | none =>
      reject (!validInitialDevelopmentRequest request)
        "workqueue: development request must begin at revision one"
      reject ((pruned.developmentRequests.count fun row => !developmentRequestTerminal row.state) ≥
        maxDevelopmentRequests) "workqueue: active development request bound exceeded"
      let requests ← required "workqueue: development request persistence failed"
        (pruned.developmentRequests.insert ⟨request.id, request.keyDigest, request.revision,
          request.state, digest, request, now, now⟩)
      pure (.ok (request, true), { pruned with developmentRequests := requests })
  | some old =>
    reject (!sameDevelopmentRequestBinding request old)
      "workqueue: development request identity conflicts"
    let (_, oldDigest) ← orFail "workqueue: development request record is corrupt"
      (marshalDevelopmentRequest old)
    if request.revision = old.revision ∧ digest = oldDigest then
      pure (.ok (old, false), db)
    else
      reject (request.revision ≠ old.revision + 1 || !validDevelopmentRequestTransition old request)
        "workqueue: development request revision conflict"
      let row ← required "workqueue: development request update timestamp unavailable"
        (pruned.developmentRequests.find request.id)
      let updatedAt ← nextDevelopmentRequestUpdatedAt row.updatedAt now
      let db ← pruned.updateRequest request old.revision oldDigest digest updatedAt
        "workqueue: development request revision conflict"
      pure (.ok (request, false), db)

def Store.saveDevelopmentRequest (s : Store) (request : DevelopmentRequest) (now : UnixNano) :
    Except String (DevelopmentRequest × Bool) × Store :=
  s.transact (saveDevelopmentRequestTx request now)

def touchDevelopmentRequestTx (requestID : String) (expectedRevision : Nat) (now : UnixNano)
    (db : DB) : Except String (Except String DevelopmentRequest × DB) := do
  reject (!developmentRequestIDPattern.matchString requestID || expectedRevision = 0 ||
    expectedRevision ≥ maxDevelopmentRequestRevision)
    "workqueue: development request touch is invalid"
  let row ← required "workqueue: development request touch conflict"
    (db.developmentRequests.find requestID)
  let request ← orFail "workqueue: development request touch conflict" (scanDevelopmentRequest row)
  reject (request.revision ≠ expectedRevision || request.state = .awaitingReasoning ||
    developmentRequestTerminal request.state) "workqueue: development request touch conflict"
  let (_, oldDigest) ← orFail "workqueue: development request touch record is corrupt"
    (marshalDevelopmentRequest request)
  let request := { request with revision := request.revision + 1 }
  let (_, digest) ← orFail "workqueue: development request touch record is invalid"
    (marshalDevelopmentRequest request)
  let updatedAt ← nextDevelopmentRequestUpdatedAt row.updatedAt now
  let db ← db.updateRequest request expectedRevision oldDigest digest updatedAt
    "workqueue: development request touch conflict"
  pure (.ok request, db)

def Store.touchDevelopmentRequest (s : Store) (requestID : String) (expectedRevision : Nat)
    (now : UnixNano) : Except String DevelopmentRequest × Store :=
  s.transact (touchDevelopmentRequestTx requestID expectedRevision now)

section

open ObjectiveRecords

variable (O : Type) [ObjectiveRecords O]

def scanDevelopmentObjective (row : DevelopmentObjectiveRow) : Except String O := do
  let corrupt := "workqueue: development objective record is corrupt"
  reject (row.revision < 1 || !validObjectiveID row.objectiveID || row.recordDigest = "" ||
    recordDigest O row.recordJSON ≠ row.recordDigest) corrupt
  let objective ← required corrupt (parseRecord row.recordJSON : Option O)
  reject (objectiveID objective ≠ row.objectiveID || revision objective ≠ row.revision ||
    state objective ≠ row.state) corrupt
  let canonical ← required corrupt (marshalRecord objective)
  reject (canonical ≠ (row.recordJSON, row.recordDigest)) corrupt
  pure objective

def DB.developmentObjectiveByID (db : DB) (objectiveID : String) : Except String (Option O) :=
  match db.developmentObjectives.find objectiveID with
  | none => .ok none
  | some row => (scanDevelopmentObjective O row).map some

/-- Whether a job that an objective's provisioning names still runs. -/
def provisionLive (db : DB) (provision : String × String) : Except String Bool := do
  let corrupt := "workqueue: development objective retention job is corrupt"
  let byKey ← orFail corrupt (db.jobByIdempotency ("development:" ++ provision.1))
  let keyed := byKey.any fun job => !terminal job.state
  if provision.2 = "" then pure keyed
  else
    let found ← orFail corrupt (db.jobByID provision.2)
    let job ← required corrupt found
    pure (keyed || !terminal job.state)

/-- Remove the settled objectives past their retention that nothing pins. -/
def pruneExpiredDevelopmentObjectives (db : DB) (now : UnixNano) : Except String DB := do
  let cutoff := UnixNano.ofTime (now.time - developmentObjectiveRetentionTTL)
  let rows := db.developmentObjectives.rows.filter fun row =>
    row.state.settled && row.updatedAt < cutoff
  reject (rows.any fun row => !validObjectiveID row.objectiveID || row.updatedAt < row.createdAt)
    "workqueue: development objective retention record is corrupt"
  reject (rows.length > maxDevelopmentObjectives)
    "workqueue: development objective retention scan failed"
  if rows.isEmpty then pure db
  else
    let objectives ← rows.mapM fun row =>
      orFail "workqueue: development objective retention record is corrupt"
        (scanDevelopmentObjective O row)
    let requests ← db.developmentRequests.rows.mapM fun row =>
      orFail "workqueue: development objective retention request is corrupt"
        (scanDevelopmentRequest row)
    let live ← objectives.mapM fun objective => do
      let jobs ← (provisions objective).mapM (provisionLive db)
      pure (objectiveID objective, jobs.any id)
    let pinned (id : String) : Bool :=
      (requests.any fun request => request.objectiveID = id) || live.contains (id, true)
    let ids := (objectives.map objectiveID).filter fun id => !pinned id
    pure { db with
      developmentObjectives := db.developmentObjectives.delete fun row => ids.contains row.objectiveID }

variable {O}

def saveDevelopmentObjectiveTx (objective : O) (now : UnixNano) (db : DB) :
    Except String (Except String (O × Bool) × DB) := do
  reject (!valid objective) "workqueue: development objective is invalid"
  let (body, digest) ← required "workqueue: development objective is invalid"
    (marshalRecord objective)
  let existing ← db.developmentObjectiveByID O (objectiveID objective)
  match existing with
  | none =>
    reject (revision objective ≠ 1 || state objective ≠ .planned)
      "workqueue: development objective revision conflict"
    let db ← pruneExpiredDevelopmentObjectives O db now
    reject (db.developmentObjectives.rows.length ≥ maxDevelopmentObjectives)
      "workqueue: development objective row bound exceeded"
    let objectives ← required "workqueue: development objective persistence failed"
      (db.developmentObjectives.insert ⟨objectiveID objective, revision objective, state objective,
        digest, body, now, now⟩)
    pure (.ok (objective, true), { db with developmentObjectives := objectives })
  | some old =>
    let (_, oldDigest) ← required "workqueue: development objective record is corrupt"
      (marshalRecord old)
    reject (oldDigest = "") "workqueue: development objective record is corrupt"
    if revision objective = revision old ∧ digest = oldDigest then
      pure (.ok (old, false), db)
    else
      reject (revision objective ≠ revision old + 1 || !validateTransition old objective)
        "workqueue: development objective revision conflict"
      let picks (row : DevelopmentObjectiveRow) : Bool :=
        row.objectiveID = objectiveID objective && row.revision = revision old &&
          row.recordDigest = oldDigest
      reject (db.developmentObjectives.count picks ≠ 1)
        "workqueue: development objective revision conflict"
      let objectives := db.developmentObjectives.update picks
        (fun row => { row with
          revision := revision objective, state := state objective, recordDigest := digest
          recordJSON := body, updatedAt := now }) (fun _ => rfl) (fun _ => rfl)
      pure (.ok (objective, false), { db with developmentObjectives := objectives })

def Store.saveDevelopmentObjective (s : Store) (objective : O) (now : UnixNano) :
    Except String (O × Bool) × Store :=
  s.transact (saveDevelopmentObjectiveTx objective now)

end

end Aeontra.Workqueue
