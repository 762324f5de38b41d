import Aeontra.Workqueue.Contracts
import Aeontra.Workqueue.Moves

/-!
Reading job rows back: what a successful read says about the table.
-/

namespace Aeontra.Workqueue

open Library

theorem scanJob_ok {row : JobRow} {job : Job} (read : scanJob row = .ok job) : job = row.job := by
  simp only [scanJob, ok_iff] at read
  obtain ⟨-, -, same⟩ := read
  exact same.symm

theorem readJob_eq_some {found : Option JobRow} {job : Job}
    (read : readJob found = .ok (some job)) : ∃ row, found = some row ∧ row.job = job := by
  cases found with
  | none => simp [readJob] at read
  | some row =>
    refine ⟨row, rfl, ?_⟩
    simp only [readJob, ok_iff] at read
    cases scanned : scanJob row with
    | error e => simp [scanned, Except.map] at read
    | ok scannedJob =>
      simp only [scanned, Except.map, Except.ok.injEq, Option.some.injEq] at read
      rw [← read, scanJob_ok scanned]

theorem readJob_eq_none {found : Option JobRow} (read : readJob found = .ok none) : found = none := by
  cases found with
  | none => rfl
  | some row =>
    simp only [readJob, ok_iff] at read
    cases scanned : scanJob row <;> simp [scanned, Except.map] at read

theorem jobByID_eq_some {db : DB} {jobID : String} {job : Job} (read : db.jobByID jobID = .ok (some job)) :
    ∃ row ∈ db.jobs, row.id = jobID ∧ row.job = job := by
  obtain ⟨row, found, same⟩ := readJob_eq_some read
  obtain ⟨member, named⟩ := Table.find_eq_some.mp found
  exact ⟨row, member, named, same⟩

end Aeontra.Workqueue
