import Aeontra.Library.Update
import Aeontra.Workqueue.Paths

/-!
The runner journal over whole runs.

Only the call that creates the row of an effect may dispatch it.  An effect is one identity
together with one job: its row is pruned once the job has ended, which is never leased again.
-/

namespace Aeontra.Workqueue

open Library List Table Store

variable {O : Type} {config : Config} {call : Call O} {db db' : DB} {now : UnixNano}

def Ended (jobID : String) (db : DB) : Prop := ∃ row ∈ db.jobs, row.id = jobID ∧ terminal row.state = true

variable {jobID effectID : String}

theorem Ended.effect (ended : Ended jobID db) (kept : call.sweeps = false)
    (effect : Effect config call db db') : Ended jobID db' := by
  obtain ⟨row, member, named, finished⟩ := ended
  obtain ⟨row', member', same, rfl | ⟨now, moved⟩⟩ := effect.job_survives (.inl kept) member
  · exact ⟨row', member', named, finished⟩
  · have running := moved.source_running
    rw [finished] at running
    cases running

theorem Ended.exec [ObjectiveRecords O] {s : Store} (ended : Ended jobID s.db)
    (kept : call.sweeps = false) : Ended jobID (s.exec call).2.db :=
  path_of_effects (fun _ _ effect held => held.effect kept effect) (exec_path s call) ended

def HasLease (effect : DevelopmentRunnerEffect) (db : DB) : Prop :=
  ∃ row ∈ db.jobs, row.id = effect.jobID ∧ row.state = .leased

theorem HasLease.not_ended {effect : DevelopmentRunnerEffect} (leased : HasLease effect db) :
    ¬ Ended effect.jobID db := by
  rintro ⟨row, member, named, finished⟩
  obtain ⟨other, member', named', state⟩ := leased
  rw [eq_of_key member member' (named.trans named'.symm), state] at finished
  cases finished

structure CreatesEffect (effect : DevelopmentRunnerEffect) (now : UnixNano) (db db' : DB) : Prop where
  leased : HasLease effect db
  absent : ∀ row ∈ db.developmentRunnerEffects, row.effectID ≠ effect.effectID
  inserted : db.developmentRunnerEffects.insert
    ⟨(completeRunnerEffect effect now).effectID, (completeRunnerEffect effect now).revision,
      completeRunnerEffect effect now⟩ = some db'.developmentRunnerEffects

structure RevisesEffect (effect : DevelopmentRunnerEffect) (now : UnixNano) (db db' : DB) : Prop where
  leased : HasLease effect db
  rows : ∃ row, row.effectID = effect.effectID ∧ row.revision = row.record.revision ∧
    checkRunnerRevision row.record effect = .ok () ∧
    Table.Replaces db.developmentRunnerEffects db'.developmentRunnerEffects row
      { row with
        revision := (completeRunnerEffect effect now).revision, record := completeRunnerEffect effect now }

structure PrunesEffects (db db' : DB) : Prop where
  kept : ∀ row ∈ db'.developmentRunnerEffects, row ∈ db.developmentRunnerEffects
  removed : ∀ row ∈ db.developmentRunnerEffects, row ∈ db'.developmentRunnerEffects ∨
    Ended row.record.jobID db
  rest : db' = { db with developmentRunnerEffects := db'.developmentRunnerEffects }

theorem runnerEffect_eq_some {old : DevelopmentRunnerEffect}
    (read : db.runnerEffect effectID = .ok (some old)) :
    ∃ row ∈ db.developmentRunnerEffects, row.effectID = effectID ∧ row.revision = row.record.revision ∧
      row.record = old := by
  unfold DB.runnerEffect at read
  cases found : db.developmentRunnerEffects.find effectID with
  | none =>
    rw [found] at read
    cases read
  | some row =>
    obtain ⟨member, named⟩ := Table.find_eq_some.mp found
    rw [found] at read
    change (readRunnerEffect row).map some = _ at read
    cases scanned : readRunnerEffect row with
    | error e =>
      rw [scanned] at read
      cases read
    | ok record =>
      rw [scanned] at read
      cases read
      simp only [readRunnerEffect, ok_iff, bool_iff, not_not] at scanned
      obtain ⟨-, ⟨-, revision⟩, same⟩ := scanned
      exact ⟨row, member, named, revision, same⟩

theorem runnerEffect_eq_none (read : db.runnerEffect effectID = .ok none) :
    ∀ row ∈ db.developmentRunnerEffects, row.effectID ≠ effectID := by
  unfold DB.runnerEffect at read
  cases found : db.developmentRunnerEffects.find effectID with
  | none => exact Table.find_eq_none.mp found
  | some row =>
    rw [found] at read
    change (readRunnerEffect row).map some = _ at read
    cases scanned : readRunnerEffect row <;> simp [scanned, Except.map] at read

theorem completeRunnerEffect_fields (effect : DevelopmentRunnerEffect) (now : UnixNano) :
    (completeRunnerEffect effect now).jobID = effect.jobID ∧
      (completeRunnerEffect effect now).fence = effect.fence ∧
      (completeRunnerEffect effect now).runID = effect.runID ∧
      (completeRunnerEffect effect now).revision = effect.revision ∧
      (completeRunnerEffect effect now).effectID = effect.effectID := by
  unfold completeRunnerEffect
  split <;> exact ⟨rfl, rfl, rfl, rfl, rfl⟩

theorem saveDevelopmentRunnerEffectTx_rows {effect : DevelopmentRunnerEffect} {leaseID : String}
    {fence : Nat} {checked : UnixNano} {answer : Except String Bool}
    (run : saveDevelopmentRunnerEffectTx effect leaseID fence checked now db = .ok (answer, db')) :
    answer = .ok true ∧ CreatesEffect effect now db db' ∨
      answer = .ok false ∧ RevisesEffect effect now db db' := by
  obtain ⟨⟨row, member, named, state, -⟩, -⟩ := saveDevelopmentRunnerEffectTx_cases (O := Empty) run
  have leased : HasLease effect db := ⟨row, member, named, state⟩
  have identity := (completeRunnerEffect_fields effect now).2.2.2.2
  simp only [saveDevelopmentRunnerEffectTx, ok_iff] at run
  obtain ⟨-, -, -, -, -, -, -, -, existing, read, run⟩ := run
  cases existing with
  | some old =>
    simp only [ok_iff] at run
    obtain ⟨u, legal, body, -, -, -, rfl, rfl⟩ := run
    obtain ⟨row, member, named, revision, rfl⟩ := runnerEffect_eq_some read
    refine .inr ⟨rfl, leased, row, named, revision, legal, ?_⟩
    refine update_replaces
      (f := fun row : DevelopmentRunnerEffectRow => { row with
        revision := (completeRunnerEffect effect now).revision
        record := completeRunnerEffect effect now }) (fun _ => rfl) (fun _ => rfl) member ?_ ?_
    · simp [named, revision, identity]
    · intro other _ picked
      simp only [bool_iff] at picked
      exact picked.1.trans (identity.trans named.symm)
  | none =>
    simp only [ok_iff] at run
    obtain ⟨-, -, -, -, body, -, -, -, effects, inserted, rfl, rfl⟩ := run
    exact .inl ⟨rfl, leased, runnerEffect_eq_none read, inserted⟩

theorem pruneDevelopmentRunnerEffectsTx_rows {retained : List String} {answer : Except String Unit}
    (run : pruneDevelopmentRunnerEffectsTx retained now db = .ok (answer, db')) : PrunesEffects db db' := by
  simp only [pruneDevelopmentRunnerEffectsTx, ok_iff] at run
  obtain ⟨-, -, -, -, removed, looked, -, rfl⟩ := run
  refine ⟨fun row member => (Table.mem_delete.mp member).1, ?_, rfl⟩
  intro row member
  by_cases gone : removed.contains (row.effectID, true) = true
  · right
    rw [contains_iff_mem] at gone
    obtain ⟨other, place, read⟩ := mem_of_mapM looked _ gone
    simp only [ok_iff] at read
    obtain ⟨_, found, job, rfl, named, finished⟩ := read
    obtain ⟨jobRow, inside, sameJob, rfl⟩ := jobByID_eq_some found
    have same := eq_of_key (mem_of_mem_filter place) member named
    exact ⟨jobRow, inside, by rw [sameJob, same], finished⟩
  · left
    exact Table.mem_delete.mpr ⟨member, Bool.eq_false_of_not_eq_true gone⟩

theorem reply_ne {α : Type} {wrap : α → Reply O} {r : Reply O} (other : ∀ a, wrap a ≠ r)
    (outcome : Except String α × Store) : (reply wrap outcome).1 ≠ .ok r := by
  obtain ⟨result, s⟩ := outcome
  cases result with
  | error e => nofun
  | ok a =>
    intro same
    exact other a (Except.ok.inj same)

def Call.effect? : Call O → Option DevelopmentRunnerEffect
  | .saveDevelopmentRunnerEffect effect .. => some effect
  | _ => none

section

variable [ObjectiveRecords O]

def Store.dispatches (s : Store) (call : Call O) : Bool :=
  match (s.exec call).1 with
  | .ok (.effect created) => created
  | _ => false

theorem dispatches_iff {s : Store} : s.dispatches call = true ↔ (s.exec call).1 = .ok (.effect true) := by
  unfold dispatches
  split
  · rename_i created answered
    rw [answered]
    simp
  · rename_i other
    exact iff_of_false nofun (other true)

theorem dispatches_of_other {s : Store} (other : call.effect? = none) : s.dispatches call = false := by
  rw [← Bool.not_eq_true, dispatches_iff]
  cases call with
  | saveDevelopmentRunnerEffect effect leaseID fence checked now => cases other
  | _ =>
    simp only [Store.exec]
    refine reply_ne (fun _ same => ?_) _
    cases same

theorem exec_effect_cases (s : Store) (call : Call O) :
    s.dispatches call = false ∧
        (s.exec call).2.db.developmentRunnerEffects = s.db.developmentRunnerEffects ∨
      (∃ effect leaseID fence checked now,
        call = .saveDevelopmentRunnerEffect effect leaseID fence checked now ∧
        (s.dispatches call = true ∧ CreatesEffect effect now s.db (s.exec call).2.db ∨
          s.dispatches call = false ∧ RevisesEffect effect now s.db (s.exec call).2.db)) ∨
      s.dispatches call = false ∧ PrunesEffects s.db (s.exec call).2.db := by
  cases call with
  | saveDevelopmentRunnerEffect effect leaseID fence checked now =>
    cases run : saveDevelopmentRunnerEffectTx effect leaseID fence checked now s.db with
    | error e =>
      left
      simp [dispatches, Store.exec, reply, saveDevelopmentRunnerEffect, transact, run, Except.map]
    | ok result =>
      obtain ⟨answer, db'⟩ := result
      refine .inr (.inl ⟨_, _, _, _, _, rfl, ?_⟩)
      have after : ((s.exec (.saveDevelopmentRunnerEffect effect leaseID fence checked now : Call O)).2.db) =
          db' := by
        simp [Store.exec, reply, saveDevelopmentRunnerEffect, transact, run]
      have answered : (s.exec (.saveDevelopmentRunnerEffect effect leaseID fence checked now : Call O)).1 =
          answer.map .effect := by
        simp [Store.exec, reply, saveDevelopmentRunnerEffect, transact, run]
      rw [after, dispatches, answered]
      rcases saveDevelopmentRunnerEffectTx_rows run with ⟨rfl, creates⟩ | ⟨rfl, revises⟩
      · exact .inl ⟨rfl, creates⟩
      · exact .inr ⟨rfl, revises⟩
  | pruneDevelopmentRunnerEffects retained now =>
    have silent : s.dispatches (.pruneDevelopmentRunnerEffects retained now : Call O) = false :=
      dispatches_of_other rfl
    cases run : pruneDevelopmentRunnerEffectsTx retained now s.db with
    | error e =>
      refine .inl ⟨silent, ?_⟩
      simp [Store.exec, reply, pruneDevelopmentRunnerEffects, transact, run]
    | ok result =>
      refine .inr (.inr ⟨silent, ?_⟩)
      simp only [Store.exec, reply, pruneDevelopmentRunnerEffects, transact, run]
      exact pruneDevelopmentRunnerEffectsTx_rows run
  | _ =>
    exact .inl ⟨dispatches_of_other rfl, exec_runnerEffects s rfl⟩

structure EffectKept (row row' : DevelopmentRunnerEffectRow) : Prop where
  name : row'.effectID = row.effectID
  job : row'.record.jobID = row.record.jobID
  revision : row.revision ≤ row'.revision
  fence : row.record.fence ≤ row'.record.fence
  run : row.record.runID ≠ 0 → row'.record.runID = row.record.runID
  settled : row.record.state.settled = true → row' = row

theorem EffectKept.refl (row : DevelopmentRunnerEffectRow) : EffectKept row row :=
  ⟨rfl, rfl, le_refl _, le_refl _, fun _ => rfl, fun _ => rfl⟩

theorem EffectKept.trans {first second third : DevelopmentRunnerEffectRow} (left : EffectKept first second)
    (right : EffectKept second third) : EffectKept first third where
  name := right.name.trans left.name
  job := right.job.trans left.job
  revision := left.revision.trans right.revision
  fence := left.fence.trans right.fence
  run assigned := by
    have same := left.run assigned
    exact (right.run (same ▸ assigned)).trans same
  settled finished := by
    have same := left.settled finished
    subst same
    exact right.settled finished

theorem checkRunnerRevision_kept {row : DevelopmentRunnerEffectRow} {effect : DevelopmentRunnerEffect}
    (revision : row.revision = row.record.revision) (legal : checkRunnerRevision row.record effect = .ok ())
    (now : UnixNano) : EffectKept row { row with
      revision := (completeRunnerEffect effect now).revision, record := completeRunnerEffect effect now } ∧
      (completeRunnerEffect effect now).revision = row.revision + 1 := by
  obtain ⟨job, fence, run, next, -⟩ := completeRunnerEffect_fields effect now
  simp only [checkRunnerRevision, ok_iff, bool_iff, Bool.and_eq_false_iff, not_not, not_lt, gt_iff_lt] at legal
  obtain ⟨-, ⟨⟨⟨⟨-, sameJob⟩, -⟩, grows⟩, sameRun⟩, -, -, ⟨following, open_⟩, -⟩ := legal
  have succ : (completeRunnerEffect effect now).revision = row.revision + 1 := by
    rw [next, revision, following]
  refine ⟨⟨rfl, job.trans sameJob.symm, ?_, ?_, ?_, ?_⟩, succ⟩
  · rw [succ]
    exact Nat.le_succ _
  · rw [fence]
    exact grows
  · intro assigned
    rw [run]
    exact (sameRun.resolve_left fun zero => assigned zero).symm
  · intro finished
    rw [open_] at finished
    cases finished

/-- The effect of a row is still in the journal, or can never be created again. -/
def Tracked (first : DevelopmentRunnerEffectRow) (db : DB) : Prop :=
  (∃ row ∈ db.developmentRunnerEffects, EffectKept first row) ∨
    Ended first.record.jobID db ∧ ∀ row ∈ db.developmentRunnerEffects, row.effectID = first.effectID →
      row.record.jobID ≠ first.record.jobID

variable {first row : DevelopmentRunnerEffectRow} {s : Store}

theorem Tracked.creates {effect : DevelopmentRunnerEffect} (tracked : Tracked first db)
    (creates : CreatesEffect effect now db db') (ended : Ended first.record.jobID db → Ended first.record.jobID db') :
    Tracked first db' := by
  rcases tracked with ⟨row, member, later⟩ | ⟨finished, gone⟩
  · exact .inl ⟨row, (mem_insert creates.inserted).mpr (.inl member), later⟩
  refine .inr ⟨ended finished, ?_⟩
  intro row member named
  rcases (mem_insert creates.inserted).mp member with old | rfl
  · exact gone row old named
  intro sameJob
  have job : effect.jobID = first.record.jobID := (completeRunnerEffect_fields effect now).1.symm.trans sameJob
  exact creates.leased.not_ended (job ▸ finished)

theorem Tracked.revises {effect : DevelopmentRunnerEffect} (tracked : Tracked first db)
    (revises : RevisesEffect effect now db db') (ended : Ended first.record.jobID db → Ended first.record.jobID db') :
    Tracked first db' := by
  obtain ⟨old, -, revision, legal, replaced⟩ := revises.rows
  obtain ⟨step, -⟩ := checkRunnerRevision_kept revision legal now
  rcases tracked with ⟨row, member, later⟩ | ⟨finished, gone⟩
  · by_cases same : row.effectID = old.effectID
    · obtain rfl := eq_of_key member replaced.old_mem same
      exact .inl ⟨_, replaced.new_mem, later.trans step⟩
    · exact .inl ⟨row, replaced.mem_of_ne member same, later⟩
  refine .inr ⟨ended finished, ?_⟩
  intro row member named
  rcases replaced.mem_or_eq member with kept | rfl
  · exact gone row kept named
  · rw [step.job]
    exact gone old replaced.old_mem named

theorem Tracked.prunes (tracked : Tracked first db) (prunes : PrunesEffects db db') : Tracked first db' := by
  have jobs : db'.jobs = db.jobs := by rw [prunes.rest]
  have ended : Ended first.record.jobID db → Ended first.record.jobID db' := by
    rintro ⟨job, member, finished⟩
    exact ⟨job, jobs ▸ member, finished⟩
  rcases tracked with ⟨row, member, later⟩ | ⟨finished, gone⟩
  · by_cases stays : row ∈ db'.developmentRunnerEffects
    · exact .inl ⟨row, stays, later⟩
    · have finished := (prunes.removed row member).resolve_left stays
      rw [later.job] at finished
      refine .inr ⟨ended finished, ?_⟩
      intro other member' named
      have same := eq_of_key (prunes.kept other member') member (named.trans later.name.symm)
      exact absurd (same ▸ member') stays
  · exact .inr ⟨ended finished, fun row member => gone row (prunes.kept row member)⟩

theorem Tracked.exec (tracked : Tracked first s.db) (kept : call.sweeps = false) :
    Tracked first (s.exec call).2.db := by
  have ended : Ended first.record.jobID s.db → Ended first.record.jobID (s.exec call).2.db :=
    fun finished => finished.exec kept
  rcases exec_effect_cases s call with ⟨-, same⟩ | ⟨effect, _, _, _, _, -, ⟨-, creates⟩ | ⟨-, revises⟩⟩ |
    ⟨-, prunes⟩
  · unfold Tracked at tracked ⊢
    rw [same]
    exact tracked.imp_right fun gone => ⟨ended gone.1, gone.2⟩
  · exact tracked.creates creates ended
  · exact tracked.revises revises ended
  · exact tracked.prunes prunes

variable {calls : List (Call O)}

theorem Tracked.run (tracked : Tracked first s.db)
    (kept : ∀ call ∈ calls, call.sweeps = false) : Tracked first (s.run calls).db := by
  induction calls generalizing s with
  | nil => exact tracked
  | cons call calls ih =>
    exact ih (tracked.exec (kept call mem_cons_self))
      fun later member => kept later (mem_cons_of_mem call member)

theorem Tracked.kept (tracked : Tracked first db) (member : row ∈ db.developmentRunnerEffects)
    (named : row.effectID = first.effectID) (job : row.record.jobID = first.record.jobID) :
    EffectKept first row := by
  rcases tracked with ⟨other, member', later⟩ | ⟨-, gone⟩
  · rw [eq_of_key member member' (named.trans later.name.symm)]
    exact later
  · exact absurd job (gone row member named)

theorem Tracked.silent {effect : DevelopmentRunnerEffect} (tracked : Tracked first s.db)
    (saves : call.effect? = some effect) (named : effect.effectID = first.effectID)
    (job : effect.jobID = first.record.jobID) : s.dispatches call = false := by
  rcases exec_effect_cases s call with ⟨silent, -⟩ | ⟨other, _, _, _, _, rfl, ⟨-, creates⟩ | ⟨silent, -⟩⟩ |
    ⟨silent, -⟩
  · exact silent
  · cases saves
    rcases tracked with ⟨row, member, later⟩ | ⟨finished, -⟩
    · exact absurd (later.name.trans named.symm) (creates.absent row member)
    · exact absurd (job ▸ finished) creates.leased.not_ended
  · exact silent
  · exact silent

/-- The effect that a call was told to dispatch, with its job. -/
def Store.dispatch (s : Store) (call : Call O) : Option (String × String) :=
  if s.dispatches call then call.effect?.map fun effect => (effect.effectID, effect.jobID) else none

def Store.dispatched (s : Store) : List (Call O) → List (String × String)
  | [] => []
  | call :: calls => (s.dispatch call).toList ++ (s.exec call).2.dispatched calls

theorem dispatch_eq_some {pair : String × String} (told : s.dispatch call = some pair) :
    ∃ effect, s.dispatches call = true ∧ call.effect? = some effect ∧
      pair = (effect.effectID, effect.jobID) := by
  unfold dispatch at told
  split at told
  · rename_i dispatches
    obtain ⟨effect, saves, rfl⟩ := Option.map_eq_some_iff.mp told
    exact ⟨effect, dispatches, saves, rfl⟩
  · cases told

theorem tracked_of_dispatch {effect : DevelopmentRunnerEffect} (dispatches : s.dispatches call = true)
    (saves : call.effect? = some effect) : ∃ first, first.effectID = effect.effectID ∧
      first.record.jobID = effect.jobID ∧ Tracked first (s.exec call).2.db := by
  rcases exec_effect_cases s call with ⟨silent, -⟩ | ⟨other, _, _, _, now, rfl, ⟨-, creates⟩ | ⟨silent, -⟩⟩ |
    ⟨silent, -⟩
  · rw [dispatches] at silent
    cases silent
  · cases saves
    obtain ⟨job, -, -, -, name⟩ := completeRunnerEffect_fields effect now
    exact ⟨_, name, job, .inl ⟨_, (mem_insert creates.inserted).mpr (.inr rfl), .refl _⟩⟩
  · rw [dispatches] at silent
    cases silent
  · rw [dispatches] at silent
    cases silent

theorem not_mem_dispatched (tracked : Tracked first s.db) (kept : ∀ call ∈ calls, call.sweeps = false) :
    (first.effectID, first.record.jobID) ∉ s.dispatched calls := by
  induction calls generalizing s with
  | nil => exact not_mem_nil
  | cons call calls ih =>
    have later := ih (tracked.exec (kept call mem_cons_self))
      fun later member => kept later (mem_cons_of_mem call member)
    simp only [dispatched, mem_append, Option.mem_toList, not_or]
    refine ⟨fun told => ?_, later⟩
    obtain ⟨effect, dispatches, saves, same⟩ := dispatch_eq_some told
    obtain ⟨name, job⟩ := Prod.mk.inj same
    rw [tracked.silent saves name.symm job.symm] at dispatches
    cases dispatches

theorem dispatched_nodup (kept : ∀ call ∈ calls, call.sweeps = false) : (s.dispatched calls).Nodup := by
  induction calls generalizing s with
  | nil => exact nodup_nil
  | cons call calls ih =>
    have keptLater : ∀ later ∈ calls, later.sweeps = false :=
      fun later member => kept later (mem_cons_of_mem call member)
    cases told : s.dispatch call with
    | none =>
      simp only [dispatched, told, Option.toList_none, nil_append]
      exact ih keptLater
    | some pair =>
      simp only [dispatched, told, Option.toList_some, singleton_append, nodup_cons]
      obtain ⟨effect, dispatches, saves, rfl⟩ := dispatch_eq_some told
      obtain ⟨first, name, job, tracked⟩ := tracked_of_dispatch dispatches saves
      refine ⟨?_, ih keptLater⟩
      rw [← name, ← job]
      exact not_mem_dispatched tracked keptLater

theorem exec_effect_next {row' : DevelopmentRunnerEffectRow} (member : row ∈ s.db.developmentRunnerEffects)
    (member' : row' ∈ (s.exec call).2.db.developmentRunnerEffects) (named : row'.effectID = row.effectID) :
    row' = row ∨ row'.revision = row.revision + 1 := by
  have unchanged : row' ∈ s.db.developmentRunnerEffects → row' = row := fun old => eq_of_key old member named
  rcases exec_effect_cases s call with ⟨-, same⟩ | ⟨effect, _, _, _, now, -, ⟨-, creates⟩ | ⟨-, revises⟩⟩ |
    ⟨-, prunes⟩
  · exact .inl (unchanged (same ▸ member'))
  · rcases (mem_insert creates.inserted).mp member' with old | rfl
    · exact .inl (unchanged old)
    · have name := (completeRunnerEffect_fields effect now).2.2.2.2
      exact absurd (named.symm.trans name) (creates.absent row member)
  · obtain ⟨old, -, revision, legal, replaced⟩ := revises.rows
    rcases replaced.mem_or_eq member' with kept | rfl
    · exact .inl (unchanged kept)
    · have same : row = old := eq_of_key member replaced.old_mem named.symm
      rw [same]
      exact .inr (checkRunnerRevision_kept revision legal now).2
  · exact .inl (unchanged (prunes.kept row' member'))

end

def sampleEffect (revision : Nat) (state : RunnerState) (runID : Int) : DevelopmentRunnerEffect :=
  ⟨String.ofList (List.replicate 64 '0'), revision, sampleHash, sampleHash, 1, "probe-only", randomID "wj_" 0, 1,
    state, runID, 2, zeroTime, "", ""⟩

def dispatchCalls : List (Call Empty) :=
  [.enqueue (sampleSpec "key-aaaa" []) 0 (.ofTime 1),
    .leaseNext "pool" "holder-00" minLeaseTTL (.ofTime 2) 1,
    .saveDevelopmentRunnerEffect (sampleEffect 1 .dispatchIntent 0) (randomID "wl_" 1) 1 (.ofTime 3) (.ofTime 3),
    .saveDevelopmentRunnerEffect (sampleEffect 1 .dispatchIntent 0) (randomID "wl_" 1) 1 (.ofTime 4) (.ofTime 4),
    .saveDevelopmentRunnerEffect (sampleEffect 2 .pending 7) (randomID "wl_" 1) 1 (.ofTime 5) (.ofTime 5)]

end Aeontra.Workqueue
