import Aeontra.Workqueue.Propagation
import Aeontra.Workqueue.Selection

/-!
Everything a call can do to the database.

A call makes a path of changes.  Each change says which rows it writes and what the call
has checked before; invariants of the store are proved once for each kind of change.
-/

namespace Aeontra.Workqueue

open Library Relation

structure Admits (config : Config) (spec : Spec) (draw : Draw) (now : UnixNano) (db db' : DB) :
    Prop where
  room : (db.activeJobs : Int) < config.maxJobs
  roomIn : (db.activeJobsIn spec.workspace : Int) < config.maxJobsPerWorkspace
  inserted : ∃ state reason,
    db.dependencyState (sortStrings spec.dependencies) = .ok (state, reason) ∧
      db.jobs.insert (admittedRow spec (randomID "wj_" draw) state reason now) = some db'.jobs
  dependencies : db'.dependencies.rows = db.dependencies.rows ++
    (sortStrings spec.dependencies).map fun dependency => ⟨randomID "wj_" draw, dependency⟩
  present : ∀ dependency ∈ spec.dependencies, ∃ row ∈ db'.jobs, row.id = dependency
  rest : db' = { db with jobs := db'.jobs, dependencies := db'.dependencies }

structure Creates (config : Config) (spec : TaskSpec) (draw : Draw) (draws : Nat → Draw)
    (now : UnixNano) (db db' : DB) : Prop where
  room : (db.activeJobs : Int) + spec.workerCount ≤ config.maxJobs
  roomIn : (db.activeJobsIn spec.project : Int) + spec.workerCount ≤ config.maxJobsPerWorkspace
  group : db.taskGroups.insert (taskGroupRow spec (randomID "tg_" draw) now) = some db'.taskGroups
  jobs : db'.jobs.rows = db.jobs.rows ++ (List.range spec.workerCount.toNat).map fun ordinal =>
    workerJobRow spec (randomID "wj_" (draws ordinal)) ordinal now
  workers : db'.taskWorkers.rows = db.taskWorkers.rows ++
    (List.range spec.workerCount.toNat).map fun ordinal =>
      taskWorkerRow spec (randomID "tg_" draw) (randomID "wj_" (draws ordinal)) ordinal
  rest : db' = { db with
    jobs := db'.jobs, taskGroups := db'.taskGroups, taskWorkers := db'.taskWorkers }

def DB.taskIDs (db : DB) : List String := db.taskGroups.rows.map TaskGroupRow.id

def DB.bindings (db : DB) : List (String × String) := db.taskWorkers.rows.map fun w => (w.taskID, w.jobID)

structure Sweeps (ids : List String) (db db' : DB) : Prop where
  unneeded : ∀ row ∈ db.dependencies, row.dependencyID ∉ ids
  unbound : ∀ w ∈ db.taskWorkers, w.jobID ∉ ids
  result : db' = db.deleteJobs ids

/-- The worker's job holds the lease that the call presents. -/
structure Fenced (db : DB) (w : TaskWorkerRow) (leaseID : String) (fence : Nat) (now : UnixNano)
    (job : JobRow) : Prop where
  member : job ∈ db.jobs
  named : job.id = w.jobID
  state : job.state = .leased
  lease : job.leaseID.getD "" = leaseID
  fence : job.fence = fence
  unexpired : now.time < job.job.leaseExpiresAt

/-- Bindings, evidence and times change; which tasks there are and which jobs work for them does not. -/
structure TaskStep (db db' : DB) : Prop where
  tasks : db'.taskIDs = db.taskIDs
  bindings : db'.bindings = db.bindings
  rest : db' = { db with taskGroups := db'.taskGroups, taskWorkers := db'.taskWorkers }

def Call.sweeps {O : Type} : Call O → Bool
  | .cleanupTerminal .. => true
  | _ => false

def Call.writesObjectives {O : Type} : Call O → Bool
  | .saveDevelopmentObjective .. => true
  | _ => false

def Call.writesEffects {O : Type} : Call O → Bool
  | .saveDevelopmentRunnerEffect .. | .pruneDevelopmentRunnerEffects .. => true
  | _ => false

def Call.writesRequests {O : Type} : Call O → Bool
  | .saveDevelopmentRequest .. | .touchDevelopmentRequest .. => true
  | _ => false

/-- Only the development tables change, within their bounds. -/
structure DevelopmentStep {O : Type} (call : Call O) (db db' : DB) : Prop where
  objectives : db'.developmentObjectives.rows.length ≤
    max db.developmentObjectives.rows.length maxDevelopmentObjectives
  effects : db'.developmentRunnerEffects.rows.length ≤
    max db.developmentRunnerEffects.rows.length maxDevelopmentRunnerEffects
  keepsObjectives : call.writesObjectives = false → db'.developmentObjectives = db.developmentObjectives
  keepsEffects : call.writesEffects = false → db'.developmentRunnerEffects = db.developmentRunnerEffects
  keepsRequests : call.writesRequests = false → db'.developmentRequests = db.developmentRequests
  rest : db' = { db with
    developmentObjectives := db'.developmentObjectives
    developmentRunnerEffects := db'.developmentRunnerEffects
    developmentRequests := db'.developmentRequests }

inductive Change {O : Type} (config : Config) (call : Call O) : DB → DB → Prop where
  | quiet {db db' : DB} {row row' : JobRow} {now : UnixNano} (reading : now ∈ call.readings)
      (step : JobStep now row row' db db') (source : row.state ≠ .blocked)
      (target : terminal row'.state = false) (granted : row.state = .queued → call.grants = true) :
      Change config call db db'
  | settle {db middle db' : DB} {row row' : JobRow} {now : UnixNano} (reading : now ∈ call.readings)
      (step : JobStep now row row' db middle) (target : terminal row'.state = true)
      (propagated : propagate middle row.id now = .ok db') : Change config call db db'
  | admission {db db' : DB} {spec : Spec} {draw : Draw} {now : UnixNano}
      (called : call = .enqueue spec draw now) (admits : Admits config spec draw now db db') :
      Change config call db db'
  | create {db db' : DB} {spec : TaskSpec} {draw : Draw} {draws : Nat → Draw} {now : UnixNano}
      (called : call = .createTask spec draw draws now)
      (creates : Creates config (normalizeTaskSpec spec) draw draws now db db') :
      Change config call db db'
  | sweep {db db' : DB} {retention : Duration} {limit : Int} {now : UnixNano}
      (called : call = .cleanupTerminal retention limit now) {ids : List String}
      (sweeps : Sweeps ids db db') : Change config call db db'
  | task {db db' : DB} (step : TaskStep db db') : Change config call db db'
  | development {db db' : DB} (step : DevelopmentStep call db db') : Change config call db db'

abbrev Path {O : Type} (config : Config) (call : Call O) : DB → DB → Prop := ReflTransGen (Change config call)

end Aeontra.Workqueue
