import Aeontra.Workqueue.Paths

/-!
Every job row that a run writes is sound, whatever the clock has done.
-/

namespace Aeontra.Workqueue

open Library

variable {O : Type} {config : Config} {call : Call O} {db db' : DB} {now : UnixNano}

def SoundJobs (db : DB) : Prop := ∀ row ∈ db.jobs, JobSound row

theorem SoundJobs.empty : SoundJobs DB.empty := by
  intro row member
  exact absurd member (Table.not_mem_empty row)

theorem SoundJobs.effect (sound : SoundJobs db) (effect : Effect config call db db') : SoundJobs db' := by
  intro row member
  cases effect with
  | job reading step granted =>
    rcases step.replaced.mem_or_eq member with old | rfl
    · exact sound row old
    · exact (sound _ step.replaced.old_mem).move step.moved
  | admission called admits =>
    obtain ⟨state, reason, decided, inserted⟩ := admits.inserted
    rcases (Table.mem_insert inserted).mp member with old | rfl
    · exact sound row old
    · refine .of_new ?_ rfl rfl rfl
      rcases dependencyState_cases decided with ⟨rfl, -⟩ | ⟨rfl, -⟩ | ⟨rfl, -⟩ <;> nofun
  | create called creates =>
    change row ∈ db'.jobs.rows at member
    rw [creates.jobs, List.mem_append, List.mem_map] at member
    rcases member with old | ⟨ordinal, -, rfl⟩
    · exact sound row old
    · exact .of_new nofun rfl rfl rfl
  | sweep called sweeps =>
    rw [sweeps.result] at member
    exact sound row (Table.mem_delete.mp member).1
  | task step | development step =>
    rw [step.rest] at member
    exact sound row member

theorem run_soundJobs [ObjectiveRecords O] {s : Store} {calls : List (Call O)}
    (sound : SoundJobs s.db) : SoundJobs (s.run calls).db :=
  run_effects (fun _ _ _ _ effect sound => sound.effect effect) (fun _ _ => trivial) sound

end Aeontra.Workqueue
