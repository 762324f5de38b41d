import Aeontra.Workqueue.Development

/-!
The integrity check, which every opening of the store ends with.

The pragmas that the database engine answers about its own file are left out.
-/

namespace Aeontra.Workqueue

open Library

def present {α : Type} : Except String (Option α) → Bool
  | .ok (some _) => true
  | _ => false

def DB.oversizedWorkspaces (db : DB) (limit : Int) : Nat :=
  ((db.jobs.rows.filter fun row => active row.state).map JobRow.workspace).dedup.countP
    fun workspace => limit < db.activeJobsIn workspace

def DB.activeTasks (db : DB) : Nat := db.taskGroups.count db.activeGroup

def developmentRunnerIntegrity (db : DB) : Except String Unit :=
  reject (db.developmentRunnerEffects.rows.length > maxDevelopmentRunnerEffects ||
    db.developmentRunnerEffects.rows.any fun row =>
      !accepted (readRunnerEffect row) || row.effectID ≠ row.record.effectID)
    "workqueue: runner journal integrity failed"

def developmentRequestIntegrity (db : DB) : Except String Unit :=
  reject (db.developmentRequests.rows.any fun row =>
    !accepted (scanDevelopmentRequest row) || !row.record.valid)
    "workqueue: development request integrity failed"

/-- `PRAGMA foreign_key_check`: whether some row refers to a row that is not there. -/
def DB.orphaned (db : DB) : Bool :=
  (db.dependencies.rows.any fun row =>
    (db.jobs.find row.jobID).isNone || (db.jobs.find row.dependencyID).isNone) ||
  db.taskWorkers.rows.any fun w =>
    (db.taskGroups.find w.taskID).isNone || (db.jobs.find w.jobID).isNone

section

variable (O : Type) [ObjectiveRecords O]

def DB.integrity (db : DB) (config : Config) : Except String Unit := do
  reject (db.jobs.rows.any fun row => !accepted (scanJob row)) "workqueue: semantic integrity failed"
  reject (config.maxJobs < db.activeJobs) "workqueue: row bound exceeded"
  reject (db.oversizedWorkspaces config.maxJobsPerWorkspace ≠ 0)
    "workqueue: workspace row bound exceeded"
  reject (config.maxJobs * maxDependencies < db.dependencies.rows.length)
    "workqueue: dependency bound exceeded"
  reject (config.maxJobs < db.activeTasks) "workqueue: task row bound exceeded"
  reject (db.taskGroups.rows.any fun row => !present (db.taskByID row.id))
    "workqueue: task semantic integrity failed"
  reject (db.developmentObjectives.rows.length > maxDevelopmentObjectives)
    "workqueue: development objective row bound exceeded"
  reject (db.developmentObjectives.rows.any fun row =>
    !present (db.developmentObjectiveByID O row.objectiveID))
    "workqueue: development objective semantic integrity failed"
  developmentRunnerIntegrity db
  developmentRequestIntegrity db
  reject db.orphaned "workqueue: foreign key integrity failed"

def Store.integrity (s : Store) : Except String Unit := s.db.integrity O s.config

/-- Close the store and open it again: the file is kept, a fresh scheduler starts, and a
file that fails the check is refused. -/
def Store.reopen (s : Store) : Except String Unit × Store :=
  match s.integrity O with
  | .error e => (.error e, s)
  | .ok () => (.ok (), { s with fair := initialFair })

variable {O}

theorem reopen_db (s : Store) : (s.reopen O).2.db = s.db := by
  unfold Store.reopen
  split <;> rfl

theorem reopen_config (s : Store) : (s.reopen O).2.config = s.config := by
  unfold Store.reopen
  split <;> rfl

end

end Aeontra.Workqueue
