import Aeontra.Workqueue.Soundness

/-!
The state of a task only moves forward.

Each worker of a task stays bound to its job, and a job keeps its outcome, its cancellation
request and its attempts; the state derived from all of them follows.
-/

namespace Aeontra.Workqueue

open Library List

/-- The states that may be read after a state. -/
def TaskState.advances : TaskState → TaskState → Bool
  | .completed, next => next = .completed
  | .failed, next => next = .failed
  | .cancelled, next => next = .cancelled
  | .cancelling, next => next = .cancelling || next = .failed || next = .cancelled
  | .running, next => next ≠ .queued
  | .queued, _ => true

structure Later (row row' : JobRow) : Prop where
  sameID : row'.id = row.id
  ended : terminal row.state = true → row'.state = row.state
  requested : row.cancelRequested = true → row'.cancelRequested = true
  attempts : row.attempt ≤ row'.attempt

variable {O : Type} {config : Config} {call : Call O} {db db' start : DB} {taskID : String}
  {task task' : TaskGroup} {row row' last : JobRow} {now : UnixNano}

theorem Later.refl (row : JobRow) : Later row row := ⟨rfl, fun _ => rfl, id, le_rfl⟩

theorem Later.trans (first : Later row row') (second : Later row' last) : Later row last where
  sameID := second.sameID.trans first.sameID
  ended past := by
    have same := first.ended past
    rw [← same] at past ⊢
    exact second.ended past
  requested flag := second.requested (first.requested flag)
  attempts := first.attempts.trans second.attempts

theorem JobMove.later (moved : JobMove now row row') (sound : JobSound row) : Later row row' where
  sameID := moved.sameID
  ended past := by
    rw [moved.source_running] at past
    cases past
  requested flag := by
    cases moved with
    | failGoal state => rcases sound.requested flag with held | held <;> rw [held] at state <;> simp at state
    | requestCancel => rfl
    | cancel => rfl
    | _ => exact flag
  attempts := by rcases moved.fence_eq with ⟨-, same⟩ | ⟨-, -, more⟩ <;> omega

structure Onward (w w' : TaskWorker) : Prop where
  ended : terminal w.state = true → w'.state = w.state
  requested : w.cancelRequested = true → w'.cancelRequested = true
  attempts : w.attempt ≤ w'.attempt
  leased : w.state = .leased → 0 < w.attempt
  held : w'.cancelRequested = true → w'.state = .leased ∨ w'.state = .cancelled

theorem deriveTaskState_advances {workers workers' : List TaskWorker}
    (forth : ∀ w ∈ workers, ∃ w' ∈ workers', Onward w w') (back : ∀ w' ∈ workers', ∃ w ∈ workers, Onward w w') :
    (deriveTaskState workers).advances (deriveTaskState workers') = true := by
  have succeeded : (∀ w ∈ workers, w.state = .succeeded) → ∀ w' ∈ workers', w'.state = .succeeded := by
    intro all w' member
    obtain ⟨w, inside, on⟩ := back w' member
    rw [on.ended (by rw [all w inside]; rfl), all w inside]
  have ended : (∀ w ∈ workers, terminal w.state = true) → ∀ w' ∈ workers', terminal w'.state = true := by
    intro all w' member
    obtain ⟨w, inside, on⟩ := back w' member
    rw [on.ended (all w inside), all w inside]
  have kept : ∀ state, terminal state = true → state ≠ .succeeded → (∃ w ∈ workers, w.state = state) →
      (∃ w' ∈ workers', w'.state = state) ∧ ¬ ∀ w' ∈ workers', w'.state = .succeeded := by
    rintro state past other ⟨w, inside, rfl⟩
    obtain ⟨w', member, on⟩ := forth w inside
    have same := on.ended past
    exact ⟨⟨w', member, same⟩, fun all => other (same.symm.trans (all w' member))⟩
  have settled : (∀ w ∈ workers, terminal w.state = true) → (∃ w' ∈ workers', w'.state = .failed) →
      ∃ w ∈ workers, w.state = .failed := by
    rintro all ⟨w', member, failed⟩
    obtain ⟨w, inside, on⟩ := back w' member
    exact ⟨w, inside, (on.ended (all w inside)).symm.trans failed⟩
  have requested : (∃ w ∈ workers, w.cancelRequested = true) →
      (∃ w' ∈ workers', w'.cancelRequested = true) ∧ ¬ ∀ w' ∈ workers', w'.state = .succeeded := by
    rintro ⟨w, inside, flag⟩
    obtain ⟨w', member, on⟩ := forth w inside
    have flag := on.requested flag
    refine ⟨⟨w', member, flag⟩, fun all => ?_⟩
    have := all w' member
    rcases on.held flag with state | state <;> simp_all
  have begun : (∃ w ∈ workers, (w.state = .leased ∨ 0 < w.attempt) ∨ terminal w.state = true) →
      ∃ w' ∈ workers', (w'.state = .leased ∨ 0 < w'.attempt) ∨ terminal w'.state = true := by
    rintro ⟨w, inside, started⟩
    obtain ⟨w', member, on⟩ := forth w inside
    refine ⟨w', member, ?_⟩
    rcases started with (leased | tried) | past
    · exact .inl (.inr ((on.leased leased).trans_le on.attempts))
    · exact .inl (.inr (tried.trans_le on.attempts))
    · exact .inr (by rwa [on.ended past])
  simp only [deriveTaskState, all_eq_true, any_eq_true, bool_iff, gt_iff_lt]
  by_cases all : ∀ w ∈ workers, w.state = .succeeded
  · rw [if_pos all, if_pos (succeeded all)]
    rfl
  rw [if_neg all]
  by_cases failed : ∃ w ∈ workers, w.state = .failed
  · obtain ⟨still, unfinished⟩ := kept .failed rfl (by decide) failed
    rw [if_pos failed, if_neg unfinished, if_pos still]
    rfl
  rw [if_neg failed]
  by_cases past : (∀ w ∈ workers, terminal w.state = true) ∧ ∃ w ∈ workers, w.state = .cancelled
  · obtain ⟨still, unfinished⟩ := kept .cancelled rfl (by decide) past.2
    rw [if_pos past, if_neg unfinished, if_neg (failed ∘ settled past.1), if_pos ⟨ended past.1, still⟩]
    rfl
  rw [if_neg past]
  by_cases asked : ∃ w ∈ workers, w.cancelRequested = true
  · obtain ⟨still, unfinished⟩ := requested asked
    rw [if_pos asked, if_neg unfinished, if_pos still]
    split_ifs <;> rfl
  rw [if_neg asked]
  by_cases started : ∃ w ∈ workers, (w.state = .leased ∨ 0 < w.attempt) ∨ terminal w.state = true
  · rw [if_pos started, if_pos (begun started)]
    split_ifs <;> rfl
  · rw [if_neg started]
    rfl

/-- A write keeps the workers of the tasks there are, and adds workers to new tasks only. -/
structure Continues (db db' : DB) : Prop where
  tasks : ∀ id ∈ db.taskIDs, id ∈ db'.taskIDs
  bound : ∀ b ∈ db.bindings, b ∈ db'.bindings
  fresh : ∀ b ∈ db'.bindings, b ∈ db.bindings ∨ b.1 ∉ db.taskIDs ∧ ∃ job ∈ db'.jobs, job.id = b.2

theorem Continues.of_eq (tasks : db'.taskIDs = db.taskIDs) (bindings : db'.bindings = db.bindings) :
    Continues db db' where
  tasks _ member := tasks ▸ member
  bound _ member := bindings ▸ member
  fresh _ member := .inl (bindings ▸ member)

theorem Creates.continues {spec : TaskSpec} {draw : Draw} {draws : Nat → Draw}
    (creates : Creates config spec draw draws now db db') : Continues db db' := by
  obtain ⟨unused, -, groups⟩ := Table.insert_eq_some.mp creates.group
  have bindings : db'.bindings = db.bindings ++ (range spec.workerCount.toNat).map fun ordinal =>
      (randomID "tg_" draw, randomID "wj_" (draws ordinal)) := by
    rw [DB.bindings, creates.workers, map_append, map_map]
    rfl
  refine ⟨fun id member => ?_, fun b member => ?_, fun b member => ?_⟩
  · rw [DB.taskIDs, groups, map_append]
    exact mem_append_left _ member
  · rw [bindings]
    exact mem_append_left _ member
  rw [bindings, mem_append, mem_map] at member
  rcases member with old | ⟨ordinal, inside, rfl⟩
  · exact .inl old
  refine .inr ⟨?_, workerJobRow spec (randomID "wj_" (draws ordinal)) ordinal now, ?_, rfl⟩
  · rw [DB.taskIDs, mem_map]
    rintro ⟨row, member, same⟩
    exact unused row member same
  · change _ ∈ db'.jobs.rows
    rw [creates.jobs]
    exact mem_append_right _ (mem_map_of_mem inside)

theorem Sweeps.bindings {ids : List String} (sweeps : Sweeps ids db db') : db'.bindings = db.bindings := by
  rw [sweeps.result]
  refine congrArg (map _) (filter_eq_self.mpr fun w member => ?_)
  simpa using sweeps.unbound w member

theorem Effect.continues (effect : Effect config call db db') : Continues db db' := by
  cases effect with
  | create called creates => exact creates.continues
  | sweep called sweeps => exact .of_eq (by rw [sweeps.result]; rfl) sweeps.bindings
  | task step => exact .of_eq step.tasks step.bindings
  | job _ step _ | admission _ step | development step => exact .of_eq (by rw [step.rest]; rfl) (by rw [step.rest]; rfl)

theorem Effect.later (effect : Effect config call db db') (sound : SoundJobs db) (taskID : String)
    (member : row ∈ db.jobs) (bound : (taskID, row.id) ∈ db.bindings) : ∃ row' ∈ db'.jobs, Later row row' := by
  obtain ⟨w, inside, same⟩ := mem_map.mp bound
  obtain ⟨row', member', -, rfl | ⟨now, moved⟩⟩ :=
    effect.job_survives (.inr ⟨w, inside, congrArg Prod.snd same⟩) member
  · exact ⟨row', member', .refl row'⟩
  · exact ⟨row', member', moved.later (sound row member)⟩

def Attached (db : DB) : Prop := ∀ b ∈ db.bindings, ∃ job ∈ db.jobs, job.id = b.2

theorem Attached.effect (attached : Attached db) (sound : SoundJobs db)
    (effect : Effect config call db db') : Attached db' := by
  intro b member
  rcases effect.continues.fresh b member with old | ⟨-, job, inside, named⟩
  · obtain ⟨job, inside, named⟩ := attached b old
    obtain ⟨job', inside', later⟩ := effect.later sound b.1 inside (named ▸ old)
    exact ⟨job', inside', later.sameID.trans named⟩
  · exact ⟨job, inside, named⟩

structure Sequel (taskID : String) (start db : DB) : Prop where
  present : taskID ∈ db.taskIDs
  bound : ∀ id, (taskID, id) ∈ db.bindings ↔ (taskID, id) ∈ start.bindings
  later : ∀ row ∈ start.jobs, (taskID, row.id) ∈ start.bindings → ∃ row' ∈ db.jobs, Later row row'

theorem Sequel.effect (sequel : Sequel taskID start db) (sound : SoundJobs db)
    (effect : Effect config call db db') : Sequel taskID start db' where
  present := effect.continues.tasks taskID sequel.present
  bound id := by
    rw [← sequel.bound]
    refine ⟨fun member => ?_, effect.continues.bound _⟩
    rcases effect.continues.fresh _ member with old | ⟨unused, -⟩
    · exact old
    · exact absurd sequel.present unused
  later row member bound := by
    obtain ⟨row', member', first⟩ := sequel.later row member bound
    have bound' := (sequel.bound _).mpr bound
    rw [← first.sameID] at bound'
    obtain ⟨row'', member'', second⟩ := effect.later sound taskID member' bound'
    exact ⟨row'', member'', first.trans second⟩

theorem onward_of_later {w w' : TaskWorkerRow} (later : Later row row') (sound : JobSound row)
    (sound' : JobSound row') : Onward (assembleWorker w row) (assembleWorker w' row') where
  ended := later.ended
  requested := later.requested
  attempts := later.attempts
  leased := sound.tried
  held := sound'.requested

theorem binding_of_workersOf {w : TaskWorkerRow} (inside : (w, row) ∈ db.workersOf taskID) :
    row ∈ db.jobs ∧ (taskID, row.id) ∈ db.bindings := by
  obtain ⟨member, sameTask, present, named⟩ := mem_workersOf.mp inside
  exact ⟨present, mem_map.mpr ⟨w, member, Prod.ext sameTask named.symm⟩⟩

theorem exists_workersOf (member : row ∈ db.jobs) (bound : (taskID, row.id) ∈ db.bindings) :
    ∃ w, (w, row) ∈ db.workersOf taskID := by
  obtain ⟨w, inside, same⟩ := mem_map.mp bound
  exact ⟨w, mem_workersOf.mpr ⟨inside, congrArg Prod.fst same, member, (congrArg Prod.snd same).symm⟩⟩

theorem taskByID_state (read : db.taskByID taskID = .ok (some task)) :
    taskID ∈ db.taskIDs ∧
      task.state = deriveTaskState ((db.workersOf taskID).map fun (w, job) => assembleWorker w job) := by
  unfold DB.taskByID at read
  split at read
  · cases read
  rename_i row found
  obtain ⟨member, rfl⟩ := Table.find_eq_some.mp found
  refine ⟨mem_map_of_mem member, ?_⟩
  cases got : db.readTask row with
  | error e => simp [got, Except.map] at read
  | ok whole =>
    simp only [got, Except.map, Except.ok.injEq, Option.some.injEq] at read
    simp only [DB.readTask, ok_iff] at got
    obtain ⟨pins, -, -, -, ⟨acceptance, test⟩, -, -, -, -, -, -, -, -, -, same⟩ := got
    rw [← read, ← same]
    rfl

theorem Sequel.advances (sequel : Sequel taskID start db) (attached : Attached start)
    (sound : SoundJobs start) (sound' : SoundJobs db) (before : start.taskByID taskID = .ok (some task))
    (after : db.taskByID taskID = .ok (some task')) : task.state.advances task'.state = true := by
  rw [(taskByID_state before).2, (taskByID_state after).2]
  refine deriveTaskState_advances (fun worker member => ?_) fun worker' member => ?_
  · obtain ⟨⟨w, row⟩, inside, rfl⟩ := mem_map.mp member
    obtain ⟨present, bound⟩ := binding_of_workersOf inside
    obtain ⟨row', present', later⟩ := sequel.later row present bound
    have bound' := (sequel.bound _).mpr bound
    rw [← later.sameID] at bound'
    obtain ⟨w', inside'⟩ := exists_workersOf present' bound'
    exact ⟨_, mem_map_of_mem inside', onward_of_later later (sound row present) (sound' row' present')⟩
  · obtain ⟨⟨w', row'⟩, inside', rfl⟩ := mem_map.mp member
    obtain ⟨present', bound'⟩ := binding_of_workersOf inside'
    have bound := (sequel.bound _).mp bound'
    obtain ⟨row, present, named⟩ := attached _ bound
    have same : row.id = row'.id := named
    rw [← same] at bound
    obtain ⟨found, member, later⟩ := sequel.later row present bound
    obtain rfl := Table.eq_of_key member present' (later.sameID.trans same)
    obtain ⟨w, inside⟩ := exists_workersOf present bound
    exact ⟨_, mem_map_of_mem inside, onward_of_later later (sound row present) (sound' _ present')⟩

variable [ObjectiveRecords O]

theorem run_attached (s : Store) (calls : List (Call O)) (sound : SoundJobs s.db) (attached : Attached s.db) :
    SoundJobs (s.run calls).db ∧ Attached (s.run calls).db := by
  have each : ∀ (call : Call O) (db db' : DB), True → Effect s.config call db db' →
      SoundJobs db ∧ Attached db → SoundJobs db' ∧ Attached db' :=
    fun _ _ _ _ effect held => ⟨held.1.effect effect, held.2.effect held.1 effect⟩
  exact run_effects each (fun _ _ => trivial) ⟨sound, attached⟩

theorem run_sequel (s : Store) (calls : List (Call O)) (sound : SoundJobs s.db)
    (present : taskID ∈ s.db.taskIDs) : Sequel taskID s.db (s.run calls).db := by
  have each : ∀ (call : Call O) (db db' : DB), True → Effect s.config call db db' →
      SoundJobs db ∧ Sequel taskID s.db db → SoundJobs db' ∧ Sequel taskID s.db db' :=
    fun _ _ _ _ effect held => ⟨held.1.effect effect, held.2.effect held.1 effect⟩
  have start : Sequel taskID s.db s.db := ⟨present, fun _ => Iff.rfl, fun row member _ => ⟨row, member, .refl row⟩⟩
  exact (run_effects each (fun _ _ => trivial) ⟨sound, start⟩).2

/-- A task read after some calls and again after more of them has gone forward. -/
theorem run_task_advances (config : Config) (validated : validateConfig config = .ok config)
    (calls more : List (Call O)) (taskID : String) (task task' : TaskGroup)
    (before : ((Store.empty config validated).run calls).task taskID = .ok (some task))
    (after : (((Store.empty config validated).run calls).run more).task taskID = .ok (some task')) :
    task.state.advances task'.state = true := by
  simp only [Store.task, ok_iff] at before after
  obtain ⟨-, -, before⟩ := before
  obtain ⟨-, -, after⟩ := after
  obtain ⟨sound, attached⟩ := run_attached (Store.empty config validated) calls SoundJobs.empty
    fun _ inside => absurd inside not_mem_nil
  have sequel := run_sequel _ more sound (taskByID_state before).1
  exact sequel.advances attached sound (run_soundJobs sound) before after

def sampleTask : TaskSpec where
  idempotencyKey := "key-aaaa"
  project := "project"
  target := "target"
  baseCommit := String.ofList (replicate 40 '0')
  goalHash := sampleHash
  acceptanceContract := none
  testAcceptanceContract := none
  objectiveContract := none
  integrationContract := none
  integrationPins := none
  workerGoalHashes := [sampleHash]
  workerGoalRefs := [randomID "mb_" 0]
  pool := "pool"
  profile := "profile"
  workerCount := 1
  executionTimeoutSeconds := 60

def askedCalls : List (Call Empty) :=
  [.createTask sampleTask 0 (fun _ => 1) (.ofTime 1), .leaseNext "pool" "holder-00" minLeaseTTL (.ofTime 2) 2,
    .cancel (randomID "wj_" 1) (.ofTime 3)]

def endedCalls : List (Call Empty) :=
  [.complete (randomID "wj_" 1) (randomID "wl_" 2) 1 ⟨some .cancelled, "stopped", ""⟩ (.ofTime 4) (.ofTime 5)]

theorem exists_of_shown {read : Except String (Option TaskGroup)} {state : TaskState}
    (shown : read.toOption.join.map TaskGroup.state = some state) :
    ∃ task, read = .ok (some task) ∧ task.state = state := by
  obtain ⟨task, found, same⟩ := Option.map_eq_some_iff.mp shown
  rw [Option.join_eq_some_iff] at found
  cases read with
  | error e => cases found
  | ok answer => exact ⟨task, congrArg Except.ok (Option.some.inj found), same⟩

theorem run_task_advances_cancelled : let asked := (Store.empty smallConfig smallConfig_valid).run askedCalls
    ∃ task task', asked.task (randomID "tg_" 0) = .ok (some task) ∧ task.state = .cancelling ∧
      (asked.run endedCalls).task (randomID "tg_" 0) = .ok (some task') ∧ task'.state = .cancelled ∧
      task.state.advances task'.state = true := by
  intro asked
  obtain ⟨task, before, cancelling⟩ : ∃ task, asked.task (randomID "tg_" 0) = .ok (some task) ∧
      task.state = .cancelling := exists_of_shown (by decide +kernel)
  obtain ⟨task', after, cancelled⟩ : ∃ task, (asked.run endedCalls).task (randomID "tg_" 0) = .ok (some task) ∧
      task.state = .cancelled := exists_of_shown (by decide +kernel)
  exact ⟨task, task', before, cancelling, after, cancelled,
    run_task_advances smallConfig smallConfig_valid askedCalls endedCalls _ task task' before after⟩

def Shows (id : String) (holds : JobRow → Prop) (db : DB) : Prop := ∃ row ∈ db.jobs, row.id = id ∧ holds row

theorem run_shows {s : Store} {calls : List (Call O)} {id : String} {holds : JobRow → Prop}
    (each : ∀ {now row row'}, JobMove now row row' → holds row → holds row')
    (unswept : ∀ call ∈ calls, call.sweeps = false) (start : Shows id holds s.db) :
    Shows id holds (s.run calls).db := by
  refine run_effects (fun call db db' kept effect => ?_) unswept start
  rintro ⟨row, member, rfl, held⟩
  obtain ⟨row', member', same, rfl | ⟨now, moved⟩⟩ := effect.job_survives (.inl kept) member
  · exact ⟨row', member', rfl, held⟩
  · exact ⟨row', member', same, each moved held⟩

def Stopping (row : JobRow) : Prop := row.cancelRequested = true ∧ (row.state = .leased ∨ row.state = .cancelled)

theorem JobMove.stopping (moved : JobMove now row row') (asked : Stopping row) : Stopping row' := by
  obtain ⟨flag, held⟩ := asked
  cases moved with
  | lease state wanted => simp [flag] at wanted
  | extend state => exact ⟨flag, .inl state⟩
  | requestCancel state => exact ⟨rfl, .inl state⟩
  | complete state ends honoured => exact ⟨flag, .inr (honoured flag)⟩
  | recover state => exact ⟨flag, .inr (by rw [JobRow.recover, recovery, if_pos flag])⟩
  | cancel state => exact ⟨rfl, .inr rfl⟩
  | wake state | failDependency state | failGoal state => rcases held with held | held <;> simp [held] at state

/-- Until terminal rows are swept, a job that has ended keeps its whole row, and a leased job
that was asked to stop can only be cancelled. -/
theorem run_outcome_final {s : Store} {calls : List (Call O)} (member : row ∈ s.db.jobs)
    (unswept : ∀ call ∈ calls, call.sweeps = false) :
    (terminal row.state = true → row ∈ (s.run calls).db.jobs) ∧
    (row.state = .leased → row.cancelRequested = true → Shows row.id Stopping (s.run calls).db) := by
  refine ⟨fun ended => ?_, fun state flag => ?_⟩
  · have fixed : ∀ {now old new}, JobMove now old new → old = row → new = row := by
      rintro now old new moved rfl
      rw [moved.source_running] at ended
      cases ended
    obtain ⟨row', member', -, rfl⟩ := run_shows fixed unswept ⟨row, member, rfl, rfl⟩
    exact member'
  · exact run_shows JobMove.stopping unswept ⟨row, member, rfl, flag, .inl state⟩

theorem asked_leased : let asked := (Store.empty smallConfig smallConfig_valid).run askedCalls
    ∃ row ∈ asked.db.jobs, row.state = .leased ∧ row.cancelRequested = true := by
  intro asked
  have found : asked.db.jobs.rows.any (fun row => row.state = .leased && row.cancelRequested) = true := by
    decide +kernel
  obtain ⟨row, member, held⟩ := any_eq_true.mp found
  exact ⟨row, member, by simpa only [bool_iff] using held⟩

theorem run_outcome_final_asked : let asked := (Store.empty smallConfig smallConfig_valid).run askedCalls
    ∃ row ∈ asked.db.jobs, row.state = .leased ∧ Shows row.id Stopping (asked.run endedCalls).db := by
  intro asked
  obtain ⟨row, member, leased, flag⟩ := asked_leased
  have unswept : ∀ call ∈ endedCalls, call.sweeps = false := by simp [endedCalls, Call.sweeps]
  exact ⟨row, member, leased, (run_outcome_final (s := asked) member unswept).2 leased flag⟩

/-- In every store that calls lead to, a job that waits has an attempt left and was not asked to
stop, a leased one holds a well-formed lease, and what was asked to stop is leased or cancelled. -/
theorem run_jobs_sound (config : Config) (validated : validateConfig config = .ok config)
    (calls : List (Call O)) : ∀ row ∈ ((Store.empty config validated).run calls).db.jobs,
      (row.state = .blocked ∨ row.state = .queued → row.attempt < maxLeaseAttempts ∧ row.cancelRequested = false) ∧
      (row.state = .leased → 0 < row.attempt ∧ ∃ leaseID, row.leaseID = some leaseID ∧
        leaseIDPattern.matchString leaseID = true) ∧
      (row.cancelRequested = true → row.state = .leased ∨ row.state = .cancelled) := by
  intro row member
  have sound : JobSound row := run_soundJobs SoundJobs.empty row member
  refine ⟨fun waiting => ⟨?_, sound.wanted waiting⟩, fun leased => ⟨sound.tried leased, sound.lease leased⟩,
    sound.requested⟩
  rw [sound.attempts]
  exact sound.room waiting

theorem run_jobs_sound_asked : ∃ row ∈ ((Store.empty smallConfig smallConfig_valid).run askedCalls).db.jobs,
    row.state = .leased ∧ 0 < row.attempt := by
  obtain ⟨row, member, leased, -⟩ := asked_leased
  exact ⟨row, member, leased, ((run_jobs_sound smallConfig smallConfig_valid askedCalls row member).2.1 leased).1⟩

/-- A task never loses a worker: whatever is called later, its workers stay bound to the same jobs,
and each of these jobs is still stored and has only moved on. -/
theorem run_task_intact (config : Config) (validated : validateConfig config = .ok config)
    (calls more : List (Call O)) (present : taskID ∈ ((Store.empty config validated).run calls).db.taskIDs) :
    let before := (Store.empty config validated).run calls
    (∀ id, (taskID, id) ∈ (before.run more).db.bindings ↔ (taskID, id) ∈ before.db.bindings) ∧
    ∀ id, (taskID, id) ∈ before.db.bindings →
      ∃ row ∈ before.db.jobs, row.id = id ∧ ∃ row' ∈ (before.run more).db.jobs, Later row row' := by
  intro before
  obtain ⟨sound, attached⟩ := run_attached (Store.empty config validated) calls SoundJobs.empty
    fun _ inside => absurd inside not_mem_nil
  have sequel := run_sequel before more sound present
  refine ⟨sequel.bound, fun id bound => ?_⟩
  obtain ⟨row, member, rfl⟩ := attached _ bound
  exact ⟨row, member, rfl, sequel.later row member bound⟩

theorem run_task_intact_asked : let asked := (Store.empty smallConfig smallConfig_valid).run askedCalls
    ∀ id, (randomID "tg_" 0, id) ∈ (asked.run endedCalls).db.bindings ↔ (randomID "tg_" 0, id) ∈ asked.db.bindings :=
  (run_task_intact smallConfig smallConfig_valid askedCalls endedCalls (by decide +kernel)).1

end Aeontra.Workqueue
