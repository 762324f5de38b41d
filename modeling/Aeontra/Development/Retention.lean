import Aeontra.Development.History
import Aeontra.Workqueue.Dispatch

/-!
The queue jobs that the journal and the stored objectives name: the retention of both looks
them up, and `CleanupTerminal` does not know of them.
-/

namespace Aeontra.Development

open Library Workqueue List

def Present (jobID : String) (db : DB) : Prop := ∃ row ∈ db.jobs, row.id = jobID

variable {jobID id e : String} {s : Store} {db : DB} {now : UnixNano}

theorem Present.exec {O : Type} [ObjectiveRecords O] {call : Call O}
    (present : Present jobID s.db) (kept : call.sweeps = false) : Present jobID (s.exec call).2.db := by
  refine path_of_effects (fun db db' effect held => ?_) (exec_path s call) present
  obtain ⟨row, member, named⟩ := held
  obtain ⟨row', member', same, -⟩ := effect.job_survives (.inl kept) member
  exact ⟨row', member', same.trans named⟩

def sweepable (db : DB) (cutoff : UnixNano) (row : JobRow) : Bool :=
  terminal row.state && row.updatedAt < cutoff &&
    (db.dependencies.rows.all fun d => d.dependencyID ≠ row.id) &&
    db.taskWorkers.rows.all fun w => w.jobID ≠ row.id

theorem sweepable_of_removable {cutoff : UnixNano} {limit : Int} (listed : id ∈ db.removableJobs cutoff limit) :
    ∃ row ∈ db.jobs, row.id = id ∧ sweepable db cutoff row = true := by
  obtain ⟨row, inside, rfl⟩ := List.mem_map.mp listed
  have inside := mem_of_mem_take inside
  rw [(perm_insertionSort _ _).mem_iff, mem_filter] at inside
  exact ⟨row, inside.1, rfl, inside.2⟩

section

variable [RecordDecoder]

def namesJob (db : DB) (jobID : String) : Bool :=
  (db.developmentRunnerEffects.rows.any fun row => row.record.jobID = jobID) ||
    db.developmentObjectives.rows.any fun row =>
      match scanDevelopmentObjective Objective row with
      | .ok o => (ObjectiveRecords.provisions o).any fun provision => provision.2 = jobID
      | .error _ => false

/-- A cleanup finds no job old enough that is named, and an objective names jobs of the queue only. -/
def spares (db : DB) : Call Objective → Bool
  | .cleanupTerminal retention _ now => db.jobs.rows.all fun row =>
    !(sweepable db (.ofTime (now.time - retention)) row && namesJob db row.id)
  | .saveDevelopmentObjective o _ => (ObjectiveRecords.provisions o).all fun provision =>
    provision.2 = "" || db.jobs.rows.any fun row => row.id = provision.2
  | _ => true

/-- Every call of a run spares the named jobs of the store it finds. -/
def sparing (s : Store) : List (Call Objective) → Bool
  | [] => true
  | call :: calls => spares s.db call && sparing (s.exec call).2 calls

structure NamedPresent (db : DB) : Prop where
  effects : ∀ row ∈ db.developmentRunnerEffects, Present row.record.jobID db
  provisions : ∀ row ∈ db.developmentObjectives, ∀ o, scanDevelopmentObjective Objective row = .ok o →
    ∀ provision ∈ ObjectiveRecords.provisions o, provision.2 ≠ "" → Present provision.2 db

variable {db : DB} {limit : Int} {now : UnixNano} {retention : Duration} {s : Store} {call : Call Objective}

theorem namesJob_of_effect {row : DevelopmentRunnerEffectRow}
    (member : row ∈ db.developmentRunnerEffects) : namesJob db row.record.jobID = true := by
  rw [namesJob, Bool.or_eq_true, any_eq_true]
  exact .inl ⟨row, member, decide_eq_true rfl⟩

theorem namesJob_of_provision {row : DevelopmentObjectiveRow} {o : Objective}
    {provision : String × String} (member : row ∈ db.developmentObjectives)
    (scanned : scanDevelopmentObjective Objective row = .ok o)
    (inside : provision ∈ ObjectiveRecords.provisions o) : namesJob db provision.2 = true := by
  rw [namesJob, Bool.or_eq_true, any_eq_true, any_eq_true]
  refine .inr ⟨row, member, ?_⟩
  rw [scanned]
  exact List.any_eq_true.mpr ⟨provision, inside, decide_eq_true rfl⟩

theorem NamedPresent.sweep
    (named : NamedPresent db) (spared : spares db (.cleanupTerminal retention limit now) = true) :
    NamedPresent (db.deleteJobs (db.removableJobs (.ofTime (now.time - retention)) limit)) := by
  have stays : ∀ jobID, namesJob db jobID = true → Present jobID db →
      Present jobID (db.deleteJobs (db.removableJobs (.ofTime (now.time - retention)) limit)) := by
    rintro jobID names ⟨row, member, rfl⟩
    refine ⟨row, Table.mem_delete.mpr ⟨member, ?_⟩, rfl⟩
    rw [← Bool.not_eq_true, contains_iff_mem]
    intro listed
    obtain ⟨other, member', same, old⟩ := sweepable_of_removable listed
    have unnamed := List.all_eq_true.mp spared other member'
    rw [old, same, names] at unnamed
    cases unnamed
  constructor
  · intro row member
    exact stays _ (namesJob_of_effect member) (named.effects row member)
  · intro row member o scanned provision inside bound
    exact stays _ (namesJob_of_provision member scanned inside)
      (named.provisions row member o scanned provision inside bound)

variable (named : NamedPresent s.db)

include named

theorem NamedPresent.exec_sweep (spared : spares s.db (.cleanupTerminal retention limit now) = true) :
    NamedPresent (s.exec (.cleanupTerminal retention limit now : Call Objective)).2.db := by
  simp only [Store.exec, reply, Store.cleanupTerminal, Store.transact]
  split
  · exact named
  rename_i answer db' run
  simp only [cleanupTerminalTx, ok_iff] at run
  obtain ⟨-, -, -, rfl⟩ := run
  exact named.sweep spared

theorem NamedPresent.exec_effects (kept : call.sweeps = false) :
    ∀ row ∈ (s.exec call).2.db.developmentRunnerEffects,
      Present row.record.jobID (s.exec call).2.db := by
  have old : ∀ row ∈ s.db.developmentRunnerEffects, Present row.record.jobID (s.exec call).2.db :=
    fun row member => (named.effects row member).exec kept
  intro row member
  rcases exec_effect_cases s call with ⟨-, same⟩ | ⟨effect, _, _, _, now, -, ⟨-, creates⟩ | ⟨-, revises⟩⟩ |
    ⟨-, prunes⟩
  · exact old row (same ▸ member)
  · rcases (Table.mem_insert creates.inserted).mp member with before | rfl
    · exact old row before
    · obtain ⟨job, inside, sameJob, -⟩ := creates.leased
      have present : Present effect.jobID s.db := ⟨job, inside, sameJob⟩
      change Present (completeRunnerEffect effect now).jobID _
      rw [(completeRunnerEffect_fields effect now).1]
      exact present.exec kept
  · obtain ⟨before, -, revision, legal, replaced⟩ := revises.rows
    rcases replaced.mem_or_eq member with stays | rfl
    · exact old row stays
    · rw [(checkRunnerRevision_kept revision legal now).1.job]
      exact old before replaced.old_mem
  · exact old row (prunes.kept row member)

theorem NamedPresent.exec_provisions (kept : call.sweeps = false) (spared : spares s.db call = true) :
    ∀ row ∈ (s.exec call).2.db.developmentObjectives, ∀ o, scanDevelopmentObjective Objective row = .ok o →
      ∀ provision ∈ ObjectiveRecords.provisions o, provision.2 ≠ "" →
        Present provision.2 (s.exec call).2.db := by
  have old : ∀ row ∈ s.db.developmentObjectives, ∀ o, scanDevelopmentObjective Objective row = .ok o →
      ∀ provision ∈ ObjectiveRecords.provisions o, provision.2 ≠ "" →
        Present provision.2 (s.exec call).2.db :=
    fun row member o scanned provision inside bound =>
      (named.provisions row member o scanned provision inside bound).exec kept
  intro row member
  rcases exec_objective_cases s call with same | ⟨objective, now, rfl, cases⟩
  · exact old row (same ▸ member)
  -- A row that is written holds the record of the objective that is saved.
  have written : ∀ {body digest : String}, ObjectiveRecords.marshalRecord objective = some (body, digest) →
      row.recordJSON = body → row.recordDigest = digest → ∀ o, scanDevelopmentObjective Objective row = .ok o →
      ∀ provision ∈ ObjectiveRecords.provisions o, provision.2 ≠ "" → Present provision.2
        (s.exec (.saveDevelopmentObjective objective now : Call Objective)).2.db := by
    rintro body digest marshalled rfl rfl o scanned provision inside bound
    obtain rfl : o = objective := eq_of_marshalRecord (scan_marshals scanned) (toOption_eq_some.mp marshalled)
    have known := List.all_eq_true.mp spared provision inside
    simp only [bound, decide_false, Bool.false_or, any_eq_true, bool_iff] at known
    obtain ⟨job, place, sameJob⟩ := known
    exact Present.exec ⟨job, place, sameJob⟩ kept
  rcases cases with creates | ⟨before, revises⟩
  · obtain ⟨body, digest, pruned, marshalled, prune, inserted⟩ := creates.rows
    rcases (Table.mem_insert inserted).mp member with stays | rfl
    · exact old row ((prune_rows prune).1 row stays)
    · exact written marshalled rfl rfl
  · obtain ⟨first, body, digest, -, -, marshalled, replaced⟩ := revises.rows
    rcases replaced.mem_or_eq member with stays | rfl
    · exact old row stays
    · exact written marshalled rfl rfl

theorem NamedPresent.exec (spared : spares s.db call = true) : NamedPresent (s.exec call).2.db := by
  by_cases sweeps : call.sweeps = true
  · cases call with
    | cleanupTerminal retention limit now => exact named.exec_sweep spared
    | _ => cases sweeps
  · have kept := Bool.eq_false_of_not_eq_true sweeps
    exact ⟨named.exec_effects kept, named.exec_provisions kept spared⟩

theorem NamedPresent.run {calls : List (Call Objective)}
    (spared : sparing s calls = true) : NamedPresent (s.run calls).db := by
  induction calls generalizing s with
  | nil => exact named
  | cons call calls ih =>
    rw [sparing, Bool.and_eq_true] at spared
    exact ih (named.exec spared.1) spared.2

omit named

theorem NamedPresent.empty : NamedPresent DB.empty :=
  ⟨fun _ member => absurd member not_mem_nil, fun _ member => absurd member not_mem_nil⟩

end

/-- Every job row passes the checks that are made when it is read. -/
def readable (db : DB) : Bool := db.jobs.rows.all fun row => accepted (scanJob row)

section

variable (legible : readable db = true)

include legible

theorem readJob_reads {found : Option JobRow} (inside : ∀ row, found = some row → row ∈ db.jobs) :
    readJob found ≠ .error e := by
  intro failed
  cases found with
  | none => cases failed
  | some row =>
    rw [readJob, orFail_eq_error] at failed
    obtain ⟨⟨e', failed⟩, -⟩ := failed
    have read := all_eq_true.mp legible row (inside row rfl)
    cases scanned : scanJob row with
    | error message =>
      rw [scanned] at read
      cases read
    | ok job =>
      rw [scanned] at failed
      cases failed

theorem jobByID_reads : db.jobByID jobID ≠ .error e :=
  readJob_reads legible fun _ found => (Table.find_eq_some.mp found).1

theorem jobByIdempotency_reads {key : String} : db.jobByIdempotency key ≠ .error e :=
  readJob_reads legible fun _ found => (Table.findUnique_eq_some.mp found).1

end

theorem present_not_none (present : Present jobID db) : db.jobByID jobID ≠ .ok none := by
  obtain ⟨row, member, named⟩ := present
  intro read
  exact Table.find_eq_none.mp (readJob_eq_none read) row member named

def runnerJobUnavailable : String := "workqueue: runner retention job unavailable"

def objectiveJobCorrupt : String := "workqueue: development objective retention job is corrupt"

theorem prune_available [RecordDecoder] {retained : List String} (legible : readable db = true)
    (named : NamedPresent db) :
    pruneDevelopmentRunnerEffectsTx retained now db ≠ .error runnerJobUnavailable := by
  intro failed
  simp only [pruneDevelopmentRunnerEffectsTx, bind_eq_error, reject_eq_error] at failed
  rcases failed with ⟨-, other⟩ | ⟨-, -, ⟨-, other⟩ | ⟨-, -, looked | ⟨_, -, impossible⟩⟩⟩
  · exact absurd other (by decide)
  · exact absurd other (by decide)
  · obtain ⟨row, place, failed⟩ := mapM_eq_error looked
    rw [bind_eq_error] at failed
    rcases failed with unread | ⟨found, read, failed⟩
    · obtain ⟨⟨e, failed⟩, -⟩ := orFail_eq_error.mp unread
      exact jobByID_reads legible failed
    rw [bind_eq_error, required_eq_error] at failed
    rcases failed with ⟨rfl, -⟩ | ⟨_, -, impossible⟩
    · have present := named.effects row (mem_of_mem_filter place)
      exact present_not_none present (orFail_eq_ok.mp read)
    · cases impossible
  · cases impossible

theorem provisionLive_answers {provision : String × String} (legible : readable db = true)
    (present : provision.2 ≠ "" → Present provision.2 db) : provisionLive db provision ≠ .error e := by
  intro failed
  simp only [provisionLive, bind_eq_error] at failed
  rcases failed with unread | ⟨byKey, -, failed⟩
  · obtain ⟨⟨e, failed⟩, -⟩ := orFail_eq_error.mp unread
    exact jobByIdempotency_reads legible failed
  split at failed
  · cases failed
  rename_i bound
  rw [bind_eq_error] at failed
  rcases failed with unread | ⟨found, read, failed⟩
  · obtain ⟨⟨e, failed⟩, -⟩ := orFail_eq_error.mp unread
    exact jobByID_reads legible failed
  rw [bind_eq_error, required_eq_error] at failed
  rcases failed with ⟨rfl, -⟩ | ⟨_, -, impossible⟩
  · exact present_not_none (present bound) (orFail_eq_ok.mp read)
  · cases impossible

theorem pruneObjectives_answers [RecordDecoder] (legible : readable db = true) (named : NamedPresent db) :
    pruneExpiredDevelopmentObjectives Objective db now ≠ .error objectiveJobCorrupt := by
  intro failed
  simp only [pruneExpiredDevelopmentObjectives, bind_eq_error, reject_eq_error] at failed
  rcases failed with ⟨-, other⟩ | ⟨-, -, ⟨-, other⟩ | ⟨-, -, failed⟩⟩
  · exact absurd other (by decide)
  · exact absurd other (by decide)
  split at failed
  · cases failed
  simp only [bind_eq_error] at failed
  rcases failed with unread | ⟨objectives, scanned, unread | ⟨requests, -, looked | ⟨_, -, impossible⟩⟩⟩
  · obtain ⟨row, -, failed⟩ := mapM_eq_error unread
    exact absurd (orFail_eq_error.mp failed).2 (by decide)
  · obtain ⟨row, -, failed⟩ := mapM_eq_error unread
    exact absurd (orFail_eq_error.mp failed).2 (by decide)
  · obtain ⟨o, inside, failed⟩ := mapM_eq_error looked
    rw [bind_eq_error] at failed
    rcases failed with jobs | ⟨_, -, impossible⟩
    · obtain ⟨provision, bound, failed⟩ := mapM_eq_error jobs
      obtain ⟨row, place, read⟩ := mem_of_mapM scanned o inside
      exact provisionLive_answers legible (named.provisions row (mem_of_mem_filter place) o
        (orFail_eq_ok.mp read) provision bound) failed
    · cases impossible
  · cases impossible

theorem developmentObjectiveByID_error [RecordDecoder]
    (failed : db.developmentObjectiveByID Objective id = .error e) :
    e = "workqueue: development objective record is corrupt" := by
  unfold DB.developmentObjectiveByID at failed
  split at failed
  · cases failed
  rename_i row _
  cases scanned : scanDevelopmentObjective Objective row with
  | ok o =>
    rw [scanned] at failed
    cases failed
  | error e' =>
    rw [scanned] at failed
    cases failed
    simp only [scanDevelopmentObjective, bind_eq_error, reject_eq_error, required_eq_error] at scanned
    rcases scanned with ⟨-, rfl⟩ | ⟨-, -, ⟨-, rfl⟩ | ⟨_, -, ⟨-, rfl⟩ | ⟨-, -, ⟨-, rfl⟩ |
      ⟨_, -, ⟨-, rfl⟩ | ⟨-, -, impossible⟩⟩⟩⟩⟩
    all_goals first | rfl | cases impossible

/-- A new objective is not refused for a job of an expired one. -/
theorem save_answers [RecordDecoder] {o : Objective} (legible : readable db = true) (named : NamedPresent db) :
    saveDevelopmentObjectiveTx o now db ≠ .error objectiveJobCorrupt := by
  intro failed
  simp only [saveDevelopmentObjectiveTx, bind_eq_error, reject_eq_error, required_eq_error] at failed
  rcases failed with ⟨-, other⟩ | ⟨-, -, ⟨-, other⟩ | ⟨_, -, unread | ⟨existing, -, failed⟩⟩⟩
  · exact absurd other (by decide)
  · exact absurd other (by decide)
  · exact absurd (developmentObjectiveByID_error unread) (by decide)
  split at failed
  · simp only [bind_eq_error, reject_eq_error, required_eq_error] at failed
    rcases failed with ⟨-, other⟩ | ⟨-, -, pruned | ⟨_, -, ⟨-, other⟩ | ⟨-, -, ⟨-, other⟩ | ⟨_, -, impossible⟩⟩⟩⟩
    · exact absurd other (by decide)
    · exact pruneObjectives_answers legible named pruned
    · exact absurd other (by decide)
    · exact absurd other (by decide)
    · cases impossible
  · simp only [bind_eq_error, reject_eq_error, required_eq_error] at failed
    rcases failed with ⟨-, other⟩ | ⟨_, -, ⟨-, other⟩ | ⟨-, -, failed⟩⟩
    · exact absurd other (by decide)
    · exact absurd other (by decide)
    split at failed
    · cases failed
    simp only [bind_eq_error, reject_eq_error] at failed
    rcases failed with ⟨-, other⟩ | ⟨-, -, ⟨-, other⟩ | ⟨-, -, impossible⟩⟩
    · exact absurd other (by decide)
    · exact absurd other (by decide)
    · cases impossible

theorem transact_error {α : Type} {body : DB → Except String (Except String α × DB)}
    {message : String} (failed : (s.transact body).1 = .error message) :
    body s.db = .error message ∨ ∃ db', body s.db = .ok (.error message, db') := by
  unfold Store.transact at failed
  split at failed
  · rename_i e refused
    cases failed
    exact .inl refused
  rename_i answer db' run
  change answer = .error message at failed
  subst failed
  exact .inr ⟨db', run⟩

/-- After every run from an empty store that spares the named jobs, every named job is in the queue,
and while the job rows can be read, neither the journal's nor the objectives' retention reports
one as missing. -/
theorem run_namedPresent [RecordDecoder] (config : Config) (validated : validateConfig config = .ok config)
    (calls : List (Call Objective)) (spared : sparing (Store.empty config validated) calls = true)
    (legible : readable ((Store.empty config validated).run calls).db = true) :
    NamedPresent ((Store.empty config validated).run calls).db ∧
      (∀ retained now, (((Store.empty config validated).run calls).pruneDevelopmentRunnerEffects
        retained now).1 ≠ .error runnerJobUnavailable) ∧
      ∀ (o : Objective) now, (((Store.empty config validated).run calls).saveDevelopmentObjective o now).1 ≠
        .error objectiveJobCorrupt := by
  have named : NamedPresent ((Store.empty config validated).run calls).db := NamedPresent.empty.run spared
  refine ⟨named, ?_, ?_⟩
  · intro retained now failed
    rcases transact_error failed with refused | ⟨db', answered⟩
    · exact prune_available legible named refused
    · simp only [pruneDevelopmentRunnerEffectsTx, ok_iff] at answered
      obtain ⟨-, -, -, -, _, -, impossible, -⟩ := answered
      cases impossible
  · intro o now failed
    rcases transact_error failed with refused | ⟨db', answered⟩
    · exact save_answers legible named refused
    · rcases saveDevelopmentObjectiveTx_cases answered with ⟨-, _, impossible⟩ | ⟨impossible, -⟩ |
        ⟨impossible, -⟩ <;> cases impossible

def settledCalls : List (Call Objective) :=
  [.enqueue (sampleSpec "key-aaaa" []) 0 (.ofTime 1),
    .leaseNext "pool" "holder-00" minLeaseTTL (.ofTime 2) 1,
    .saveDevelopmentRunnerEffect (sampleEffect 1 .dispatchIntent 0) (randomID "wl_" 1) 1 (.ofTime 3) (.ofTime 3),
    .saveDevelopmentRunnerEffect (sampleEffect 2 .cancelled 0) (randomID "wl_" 1) 1 (.ofTime 4) (.ofTime 4),
    .complete (randomID "wj_" 0) (randomID "wl_" 1) 1 ⟨some .failed, "failed", ""⟩ (.ofTime 5) (.ofTime 5)]

def sparingCalls : List (Call Objective) :=
  [.enqueue (sampleSpec "key-bbbb" []) 2 (.ofTime 0), .cancel (randomID "wj_" 2) (.ofTime 0)] ++ settledCalls ++
    [.cleanupTerminal minute 10 (.ofTime (minute + 3)),
      .saveDevelopmentObjective (sampleObjective 1 .planned [sampleStep "a" [] .planned]) (.ofTime hour)]

theorem run_namedPresent_settled : ∃ _ : RecordDecoder,
    let s := (Store.empty smallConfig smallConfig_valid).run sparingCalls
    (s.db.jobs.rows.map JobRow.id = [randomID "wj_" 0] ∧ s.db.developmentRunnerEffects.rows.length = 1) ∧
      NamedPresent s.db ∧ (s.pruneDevelopmentRunnerEffects [] (.ofTime (60 * 24 * hour))).1 ≠
        .error runnerJobUnavailable := by
  let decoder := inverseDecoder
  have checked : let s := (Store.empty smallConfig smallConfig_valid).run sparingCalls
      (sparing (Store.empty smallConfig smallConfig_valid) sparingCalls = true ∧ readable s.db = true) ∧
        s.db.jobs.rows.map JobRow.id = [randomID "wj_" 0] ∧ s.db.developmentRunnerEffects.rows.length = 1 := by
    decide +kernel
  obtain ⟨named, available, -⟩ := run_namedPresent smallConfig smallConfig_valid sparingCalls checked.1.1 checked.1.2
  exact ⟨decoder, checked.2, named, available _ _⟩

/-- Once the job is cleaned up, the journal is never pruned again. -/
theorem swept_job_unavailable : ¬ ∀ (_ : RecordDecoder) (calls : List (Call Objective))
    (retained : List String) (now : UnixNano),
    (((Store.empty smallConfig smallConfig_valid).run calls).pruneDevelopmentRunnerEffects retained now).1 ≠
      .error runnerJobUnavailable := by
  intro always
  exact always inverseDecoder (settledCalls ++ [.cleanupTerminal minute 1 (.ofTime hour)]) []
    (.ofTime (60 * 24 * hour)) (by decide +kernel)

end Aeontra.Development
