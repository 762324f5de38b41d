import Aeontra.Workqueue.TaskWorkers

/-!
The life of one job row.

`JobMove` lists every assignment an operation can make to a job row, with what the
operation has checked before it.  Row invariants are proved once for each move.
-/

namespace Aeontra.Workqueue

open Library

inductive JobMove (now : UnixNano) : JobRow → JobRow → Prop where
  | lease {row : JobRow} {leaseID holder : String} {expires : UnixNano}
      (state : row.state = .queued) (wanted : row.cancelRequested = false)
      (leaseValid : leaseIDPattern.matchString leaseID = true) :
      JobMove now row (row.leaseTo leaseID holder expires now)
  | extend {row : JobRow} {expires : UnixNano} (state : row.state = .leased) :
      JobMove now row (row.extendLease expires now)
  | requestCancel {row : JobRow} (state : row.state = .leased) :
      JobMove now row (row.requestCancel now)
  | complete {row : JobRow} {outcome : State} {result : Result} (state : row.state = .leased)
      (ends : terminal outcome = true)
      (honoured : row.cancelRequested = true → outcome = .cancelled) :
      JobMove now row (row.complete outcome result now)
  | recover {row : JobRow} (state : row.state = .leased) :
      JobMove now row (row.recover (recovery row.cancelRequested row.attempt) now)
  | cancel {row : JobRow} (state : row.state = .blocked ∨ row.state = .queued) :
      JobMove now row (row.cancel now)
  | wake {row : JobRow} (state : row.state = .blocked) :
      JobMove now row (row.settleDependencies .queued .none now)
  | failDependency {row : JobRow} (state : row.state = .blocked) :
      JobMove now row (row.settleDependencies .failed .dependencyFailed now)
  | failGoal {row : JobRow} (state : row.state = .queued ∨ row.state = .blocked) :
      JobMove now row (row.failGoal now)

namespace JobMove

variable {now : UnixNano} {row row' : JobRow}

variable (moved : JobMove now row row')

include moved

theorem source_running : terminal row.state = false := by
  cases moved with
  | lease state => rw [state]; rfl
  | extend state => rw [state]; rfl
  | requestCancel state => rw [state]; rfl
  | complete state => rw [state]; rfl
  | recover state => rw [state]; rfl
  | cancel state => rcases state with state | state <;> rw [state] <;> rfl
  | wake state => rw [state]; rfl
  | failDependency state => rw [state]; rfl
  | failGoal state => rcases state with state | state <;> rw [state] <;> rfl

theorem sameID : row'.id = row.id := by
  cases moved <;> rfl

theorem sameWorkspace : row'.workspace = row.workspace := by
  cases moved <;> rfl

theorem fence_eq :
    (row'.fence = row.fence ∧ row'.attempt = row.attempt) ∨
      (row.state = .queued ∧ row'.fence = row.fence + 1 ∧ row'.attempt = row.attempt + 1) := by
  cases moved with
  | lease state => exact .inr ⟨state, rfl, rfl⟩
  | _ => exact .inl ⟨rfl, rfl⟩

end JobMove

theorem leaseIDPattern_nonempty {leaseID : String}
    (matched : leaseIDPattern.matchString leaseID = true) : leaseID ≠ "" := by
  rintro rfl
  exact absurd matched (by decide)

/-- What is true of every job row, whatever the clock has done. -/
structure JobSound (row : JobRow) : Prop where
  requested : row.cancelRequested = true → row.state = .leased ∨ row.state = .cancelled
  lease : row.state = .leased →
    ∃ leaseID, row.leaseID = some leaseID ∧ leaseIDPattern.matchString leaseID = true
  tried : row.state = .leased → 0 < row.attempt
  attempts : row.attempt = row.fence
  bounded : row.fence ≤ maxLeaseAttempts
  room : row.state = .blocked ∨ row.state = .queued → row.fence < maxLeaseAttempts

namespace JobSound

variable {now : UnixNano} {row row' : JobRow}

theorem wanted (sound : JobSound row) (waiting : row.state = .blocked ∨ row.state = .queued) :
    row.cancelRequested = false := by
  cases flag : row.cancelRequested with
  | false => rfl
  | true => rcases sound.requested flag with state | state <;> simp [state] at waiting

theorem of_new (idle : row.state ≠ .leased) (wanted : row.cancelRequested = false) (attempt : row.attempt = 0)
    (fence : row.fence = 0) : JobSound row where
  requested flag := by simp [wanted] at flag
  lease state := absurd state idle
  tried state := absurd state idle
  attempts := attempt.trans fence.symm
  bounded := fence ▸ Nat.zero_le _
  room _ := fence ▸ by decide

theorem of_ended (sound : JobSound row) (ended : terminal row'.state = true)
    (requested : row'.cancelRequested = true → row'.state = .cancelled) (attempt : row'.attempt = row.attempt)
    (fence : row'.fence = row.fence) : JobSound row' where
  requested flag := .inr (requested flag)
  lease state := by simp [state, terminal] at ended
  tried state := by simp [state, terminal] at ended
  attempts := by rw [attempt, fence, sound.attempts]
  bounded := fence ▸ sound.bounded
  room waiting := by rcases waiting with state | state <;> simp [state, terminal] at ended

theorem recover (sound : JobSound row) :
    JobSound (row.recover (recovery row.cancelRequested row.attempt) now) := by
  unfold recovery
  split
  · exact sound.of_ended rfl (fun _ => rfl) rfl rfl
  rename_i wanted
  split
  · exact sound.of_ended rfl (fun flag => absurd flag wanted) rfl rfl
  rename_i fewer
  refine ⟨fun flag => absurd flag wanted, nofun, nofun, sound.attempts, sound.bounded, fun _ => ?_⟩
  exact sound.attempts ▸ Nat.lt_of_not_le fewer

theorem move (sound : JobSound row) (moved : JobMove now row row') : JobSound row' := by
  cases moved with
  | lease state wanted leaseValid =>
    exact ⟨fun _ => .inl rfl, fun _ => ⟨_, rfl, leaseValid⟩, fun _ => Nat.succ_pos _,
      congrArg (· + 1) sound.attempts, sound.room (.inr state), nofun⟩
  | extend state =>
    exact ⟨sound.requested, sound.lease, sound.tried, sound.attempts, sound.bounded, sound.room⟩
  | requestCancel state =>
    exact ⟨fun _ => .inl state, sound.lease, sound.tried, sound.attempts, sound.bounded, sound.room⟩
  | complete state ends honoured => exact sound.of_ended ends honoured rfl rfl
  | recover state => exact sound.recover
  | cancel state => exact sound.of_ended rfl (fun _ => rfl) rfl rfl
  | wake state =>
    have wanted := sound.wanted (.inl state)
    exact ⟨fun flag => absurd (wanted.symm.trans flag) nofun, nofun, nofun, sound.attempts, sound.bounded,
      fun _ => sound.room (.inl state)⟩
  | failDependency state =>
    have wanted := sound.wanted (.inl state)
    exact sound.of_ended rfl (fun flag => absurd (wanted.symm.trans flag) nofun) rfl rfl
  | failGoal state => exact sound.of_ended rfl nofun rfl rfl

end JobSound

end Aeontra.Workqueue
