import Aeontra.Workqueue.Paths

/-!
The row bounds of the integrity check, over whole runs.

Admission counts the active rows only, and no operation counts the dependency rows that stay with
the row of an ended job.
-/

namespace Aeontra.Workqueue

open Library List Int Store

variable {O : Type} {config : Config} {call : Call O} {db db' : DB} {now : UnixNano}

structure WithinBounds (config : Config) (db : DB) : Prop where
  jobs : (db.activeJobs : Int) ≤ config.maxJobs
  workspaces : ∀ workspace, (db.activeJobsIn workspace : Int) ≤ config.maxJobsPerWorkspace
  dependencies : (db.dependencies.rows.length : Int) ≤ config.maxJobs * maxDependencies
  tasks : (db.activeTasks : Int) ≤ config.maxJobs
  objectives : db.developmentObjectives.rows.length ≤ maxDevelopmentObjectives
  effects : db.developmentRunnerEffects.rows.length ≤ maxDevelopmentRunnerEffects

structure RowBounds (config : Config) (db : DB) : Prop where
  jobs : (db.activeJobs : Int) ≤ config.maxJobs
  workspaces : ∀ workspace, (db.activeJobsIn workspace : Int) ≤ config.maxJobsPerWorkspace
  objectives : db.developmentObjectives.rows.length ≤ maxDevelopmentObjectives
  effects : db.developmentRunnerEffects.rows.length ≤ maxDevelopmentRunnerEffects

theorem active_of_running {state : State} (running : terminal state = false) : active state = true := by
  cases state with
  | blocked | queued | leased => rfl
  | succeeded | failed | cancelled => cases running

theorem activeTasks_le_activeJobs (db : DB) : db.activeTasks ≤ db.activeJobs := by
  apply Table.count_le_count
    fun (row : TaskGroupRow) (job : JobRow) => ∃ w ∈ db.taskWorkers, w.taskID = row.id ∧ w.jobID = job.id
  · intro row _ holds
    rw [DB.activeGroup, any_eq_true] at holds
    obtain ⟨⟨w, job⟩, inside, running⟩ := holds
    obtain ⟨member, task, present, named⟩ := mem_workersOf.mp inside
    exact ⟨job, present, running, w, member, task, named.symm⟩
  · rintro row₁ member₁ row₂ member₂ job _ ⟨w₁, inside₁, task₁, named₁⟩ ⟨w₂, inside₂, task₂, named₂⟩
    have same : w₁ = w₂ := Table.eq_of_unique inside₁ inside₂ (named₁.trans named₂.symm)
    rw [same] at task₁
    exact Table.eq_of_key member₁ member₂ (task₁.symm.trans task₂)

variable {row row' : JobRow} {draw : Draw} {spec : Spec} {s : Store} {calls : List (Call O)}

theorem JobStep.count_le (step : JobStep now row row' db db') {p : JobRow → Bool}
    (kept : p row' = true → p row = true) : db'.jobs.count p ≤ db.jobs.count p := by
  have counted := step.replaced.count_add p
  by_cases holds' : p row' = true
  · rw [if_pos holds', if_pos (kept holds')] at counted
    omega
  · rw [if_neg holds'] at counted
    omega

variable (bounds : RowBounds config db)

include bounds

theorem RowBounds.job (step : JobStep now row row' db db') : RowBounds config db' := by
  have running := active_of_running step.moved.source_running
  have jobs : db'.activeJobs ≤ db.activeJobs := step.count_le fun _ => running
  have workspaces : ∀ workspace, db'.activeJobsIn workspace ≤ db.activeJobsIn workspace := by
    intro workspace
    apply step.count_le
    intro inside
    rw [Bool.and_eq_true, step.moved.sameWorkspace] at inside
    rw [inside.1, running]
    rfl
  constructor
  · exact le_trans (ofNat_le.mpr jobs) bounds.jobs
  · intro workspace
    exact le_trans (ofNat_le.mpr (workspaces workspace)) (bounds.workspaces workspace)
  · rw [step.rest]
    exact bounds.objectives
  · rw [step.rest]
    exact bounds.effects

theorem RowBounds.admission (admits : Admits config spec draw now db db') : RowBounds config db' := by
  obtain ⟨state, reason, -, inserted⟩ := admits.inserted
  have room := admits.room
  have roomIn := admits.roomIn
  constructor
  · unfold DB.activeJobs at room ⊢
    rw [Table.count_insert inserted]
    split <;> omega
  · intro workspace
    have before := bounds.workspaces workspace
    unfold DB.activeJobsIn at before roomIn ⊢
    rw [Table.count_insert inserted]
    by_cases same : spec.workspace = workspace
    · subst same
      split <;> omega
    have other : ((admittedRow spec (randomID "wj_" draw) state reason now).workspace = workspace : Bool)
        = false := decide_eq_false same
    rw [other, Bool.false_and]
    simpa using before
  · rw [admits.rest]
    exact bounds.objectives
  · rw [admits.rest]
    exact bounds.effects

theorem RowBounds.create {spec : TaskSpec} {draws : Nat → Draw} (creates : Creates config spec draw draws now db db') :
    RowBounds config db' := by
  have room := creates.room
  have roomIn := creates.roomIn
  have jobs := bounds.jobs
  have added (p : JobRow → Bool) := countP_le_length (p := p) (l := (List.range
    spec.workerCount.toNat).map fun ordinal => workerJobRow spec (randomID "wj_" (draws ordinal)) ordinal now)
  simp only [length_map, length_range] at added
  constructor
  · have more := added fun row => active row.state
    unfold DB.activeJobs Table.count at room jobs ⊢
    rw [creates.jobs, countP_append]
    omega
  · intro workspace
    have before := bounds.workspaces workspace
    have more := added fun row => row.workspace = workspace && active row.state
    unfold DB.activeJobsIn Table.count at before roomIn ⊢
    rw [creates.jobs, countP_append]
    by_cases same : spec.project = workspace
    · subst same
      omega
    have none : ((List.range spec.workerCount.toNat).map fun ordinal =>
        workerJobRow spec (randomID "wj_" (draws ordinal)) ordinal now).countP
          (fun row => row.workspace = workspace && active row.state) = 0 := by
      rw [countP_eq_zero]
      intro row inside
      obtain ⟨ordinal, -, rfl⟩ := List.mem_map.mp inside
      simp [workerJobRow, admittedRow, same]
    rw [none]
    simpa using before
  · rw [creates.rest]
    exact bounds.objectives
  · rw [creates.rest]
    exact bounds.effects

theorem RowBounds.sweep {ids : List String} (sweeps : Sweeps ids db db') : RowBounds config db' := by
  rw [sweeps.result]
  constructor
  · exact le_trans (ofNat_le.mpr (Table.count_delete_le _ _ _)) bounds.jobs
  · intro workspace
    exact le_trans (ofNat_le.mpr (Table.count_delete_le _ _ _)) (bounds.workspaces workspace)
  · exact bounds.objectives
  · exact bounds.effects

theorem RowBounds.effect (effect : Effect config call db db') : RowBounds config db' := by
  cases effect with
  | job reading step granted => exact bounds.job step
  | admission called admits => exact bounds.admission admits
  | create called creates => exact bounds.create creates
  | sweep called sweeps => exact bounds.sweep sweeps
  | task step =>
    rw [step.rest]
    exact ⟨bounds.jobs, bounds.workspaces, bounds.objectives, bounds.effects⟩
  | development step =>
    have objectives := le_trans step.objectives (max_le bounds.objectives le_rfl)
    have effects := le_trans step.effects (max_le bounds.effects le_rfl)
    rw [step.rest]
    exact ⟨bounds.jobs, bounds.workspaces, objectives, effects⟩

omit bounds

theorem dependencies_of_effect {bound : Int} (others : ∀ spec draw now, call ≠ .enqueue spec draw now)
    (effect : Effect config call db db') (held : (db.dependencies.rows.length : Int) ≤ bound) :
    (db'.dependencies.rows.length : Int) ≤ bound := by
  cases effect with
  | admission called admits => exact absurd called (others _ _ _)
  | sweep called sweeps =>
    rw [sweeps.result]
    exact le_trans (ofNat_le.mpr (Table.length_delete_le _ _)) held
  | job _ step _ | create _ step | task step | development step =>
    rw [step.rest]
    exact held

/-- The dependency rows of a new job fit beside all the rows retained so far. -/
def Call.fits (s : Store) : Call O → Bool
  | .enqueue spec _ _ => (s.db.jobs.findUnique spec.idempotencyKey).isSome ||
      (s.db.dependencies.rows.length + spec.dependencies.length : Int) ≤ s.config.maxJobs * maxDependencies
  | _ => true

theorem enqueue_dependencies (fits : (Call.enqueue spec draw now : Call O).fits s = true)
    (held : (s.db.dependencies.rows.length : Int) ≤ s.config.maxJobs * maxDependencies) :
    ((s.enqueue spec draw now).2.db.dependencies.rows.length : Int) ≤
      s.config.maxJobs * maxDependencies := by
  unfold enqueue transact
  split
  · exact held
  rename_i answer db' run
  rcases enqueueTx_cases run with rfl | admits
  · exact held
  obtain ⟨state, reason, -, inserted⟩ := admits.inserted
  have fresh : s.db.jobs.findUnique spec.idempotencyKey = none :=
    Table.findUnique_eq_none.mpr (Table.insert_eq_some.mp inserted).2.1
  rw [Call.fits, fresh] at fits
  have length : (sortStrings spec.dependencies).length = spec.dependencies.length :=
    (perm_insertionSort _ _).length_eq
  change (db'.dependencies.rows.length : Int) ≤ _
  rw [admits.dependencies, length_append, length_map, length]
  simpa using fits

variable [ObjectiveRecords O]

theorem exec_dependencies (fits : call.fits s = true)
    (held : (s.db.dependencies.rows.length : Int) ≤ s.config.maxJobs * maxDependencies) :
    ((s.exec call).2.db.dependencies.rows.length : Int) ≤ s.config.maxJobs * maxDependencies := by
  by_cases enqueues : ∃ spec draw now, call = .enqueue spec draw now
  · obtain ⟨spec, draw, now, rfl⟩ := enqueues
    exact enqueue_dependencies fits held
  have others : ∀ spec draw now, call ≠ .enqueue spec draw now := by
    intro spec draw now called
    exact enqueues ⟨spec, draw, now, called⟩
  exact path_of_effects (fun _ _ effect => dependencies_of_effect others effect) (exec_path s call) held

def Store.fitting (s : Store) : List (Call O) → Bool
  | [] => true
  | call :: calls => call.fits s && (s.exec call).2.fitting calls

theorem run_dependencyRows (fitting : s.fitting calls = true)
    (held : (s.db.dependencies.rows.length : Int) ≤ s.config.maxJobs * maxDependencies) :
    ((s.run calls).db.dependencies.rows.length : Int) ≤ s.config.maxJobs * maxDependencies := by
  induction calls generalizing s with
  | nil => exact held
  | cons call calls ih =>
    rw [Store.fitting, Bool.and_eq_true] at fitting
    have next := exec_dependencies fitting.1 held
    rw [← exec_config s call] at next ⊢
    exact ih fitting.2 next

theorem run_rowBounds (bounds : RowBounds s.config s.db) : RowBounds s.config (s.run calls).db :=
  run_effects (fun _ _ _ _ effect bounds => bounds.effect effect) (fun _ _ => trivial) bounds

theorem validateConfig_bounds {config : Config} (validated : validateConfig config = .ok config) :
    1 ≤ config.maxJobsPerWorkspace ∧ config.maxJobsPerWorkspace ≤ config.maxJobs := by
  simp only [validateConfig, ok_iff, bool_iff, not_lt, gt_iff_lt] at validated
  obtain ⟨⟨⟩, ⟨⟨-, few⟩, many⟩, same⟩ := validated
  rw [same] at few many
  exact ⟨few, many⟩

theorem RowBounds.empty {config : Config} (validated : validateConfig config = .ok config) :
    RowBounds config DB.empty := by
  obtain ⟨few, many⟩ := validateConfig_bounds validated
  constructor
  · exact le_trans (le_trans Int.one_nonneg few) many
  · intro workspace
    exact le_trans Int.one_nonneg few
  · exact Nat.zero_le _
  · exact Nat.zero_le _

def boundMessages : List String :=
  ["workqueue: row bound exceeded", "workqueue: workspace row bound exceeded",
    "workqueue: dependency bound exceeded", "workqueue: task row bound exceeded",
    "workqueue: development objective row bound exceeded"]

theorem oversizedWorkspaces_eq_zero {limit : Int}
    (workspaces : ∀ workspace, (db.activeJobsIn workspace : Int) ≤ limit) :
    db.oversizedWorkspaces limit = 0 := by
  rw [DB.oversizedWorkspaces, countP_eq_zero]
  intro workspace _
  have small := workspaces workspace
  simpa using small

theorem WithinBounds.unrefused (bounds : WithinBounds config db) {message : String}
    (refused : db.integrity O config = .error message) : message ∉ boundMessages := by
  simp only [DB.integrity, developmentRunnerIntegrity, developmentRequestIntegrity, bind_eq_error,
    reject_eq_error, ok_iff, oversizedWorkspaces_eq_zero bounds.workspaces, not_lt.mpr bounds.jobs,
    not_lt.mpr bounds.dependencies, not_lt.mpr bounds.tasks, not_lt.mpr bounds.objectives, gt_iff_lt,
    decide_false, Bool.false_eq_true, false_and, false_or, ne_eq, not_true_eq_false, exists_const,
    true_and] at refused
  rcases refused with ⟨-, rfl⟩ | ⟨-, ⟨-, rfl⟩ | ⟨-, ⟨-, rfl⟩ | ⟨-, ⟨-, rfl⟩ | ⟨-, ⟨-, rfl⟩ | ⟨-, -, rfl⟩⟩⟩⟩⟩ <;>
    decide

/-- While every new job's dependency rows fit, every bound holds after every run from an
empty store, and the next opening is not refused for a bound. -/
theorem run_withinBounds (config : Config) (validated : validateConfig config = .ok config)
    (calls : List (Call O)) (fitting : (Store.empty config validated).fitting calls = true) :
    WithinBounds config ((Store.empty config validated).run calls).db ∧
      ∀ message ∈ boundMessages,
        (((Store.empty config validated).run calls).reopen O).1 ≠ .error message := by
  have rows : RowBounds config ((Store.empty config validated).run calls).db :=
    run_rowBounds (s := Store.empty config validated) (RowBounds.empty validated)
  have within : WithinBounds config ((Store.empty config validated).run calls).db := by
    constructor
    · exact rows.jobs
    · exact rows.workspaces
    · apply run_dependencyRows fitting
      obtain ⟨few, many⟩ := validateConfig_bounds validated
      change (0 : Int) ≤ config.maxJobs * maxDependencies
      unfold maxDependencies
      omega
    · exact le_trans (ofNat_le.mpr (activeTasks_le_activeJobs _)) rows.jobs
    · exact rows.objectives
    · exact rows.effects
  refine ⟨within, ?_⟩
  intro message listed refused
  unfold reopen at refused
  split at refused
  · rename_i e failed
    rw [Store.integrity, run_config] at failed
    simp only [Except.error.injEq] at refused
    subst refused
    exact within.unrefused failed listed
  · cases refused

def oneJobConfig : Config := ⟨"ctl", 1, 1, 1⟩

theorem oneJobConfig_valid : validateConfig oneJobConfig = .ok oneJobConfig := by decide +kernel

def failedDependents (count : Nat) : List (Call Empty) :=
  .enqueue (sampleSpec "key-base" []) 0 (.ofTime 1) :: .cancel (randomID "wj_" 0) (.ofTime 2) ::
    (List.range count).map fun n => .enqueue
      (sampleSpec ("key-dependent-" ++ toString n) [randomID "wj_" 0]) (Fin.ofNat _ (n + 1)) (.ofTime 3)

theorem run_withinBounds_two :
    ((Store.empty oneJobConfig oneJobConfig_valid).run (failedDependents 2)).db.dependencies.rows.length
        = 2 ∧
      WithinBounds oneJobConfig
        ((Store.empty oneJobConfig oneJobConfig_valid).run (failedDependents 2)).db :=
  ⟨by decide +kernel,
    (run_withinBounds oneJobConfig oneJobConfig_valid (failedDependents 2) (by decide +kernel)).1⟩

/-- The seventeenth is admitted as well, and the store does not open again. -/
theorem reopen_refused_seventeen :
    ((Store.empty oneJobConfig oneJobConfig_valid).run (failedDependents 17)).db.dependencies.rows.length
        = 17 ∧
      oneJobConfig.maxJobs * maxDependencies = 16 ∧
      (((Store.empty oneJobConfig oneJobConfig_valid).run (failedDependents 17)).reopen Empty).1 =
        .error "workqueue: dependency bound exceeded" := by
  decide +kernel

end Aeontra.Workqueue
