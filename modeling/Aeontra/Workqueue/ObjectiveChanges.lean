import Aeontra.Library.Update
import Aeontra.Workqueue.Paths

/-!
What a call does to the table of objectives.
-/

namespace Aeontra.Workqueue

open Library ObjectiveRecords

variable {O : Type} [ObjectiveRecords O] {db db' : DB} {now : UnixNano} {objective old : O}
  {row : DevelopmentObjectiveRow}

theorem scan_identity (scanned : scanDevelopmentObjective O row = .ok old) :
    objectiveID old = row.objectiveID ∧ revision old = row.revision ∧ state old = row.state ∧
      marshalRecord old = some (row.recordJSON, row.recordDigest) := by
  simp only [scanDevelopmentObjective, ok_iff, bool_iff, not_not] at scanned
  obtain ⟨-, -, _, -, -, ⟨⟨identity, revision⟩, state⟩, _, canonical, -, rfl, rfl⟩ := scanned
  exact ⟨identity, revision, state, canonical⟩

theorem developmentObjectiveByID_eq_some {id : String} :
    db.developmentObjectiveByID O id = .ok (some old) ↔
      ∃ row ∈ db.developmentObjectives, row.objectiveID = id ∧ scanDevelopmentObjective O row = .ok old := by
  unfold DB.developmentObjectiveByID
  cases found : db.developmentObjectives.find id with
  | none =>
    constructor
    · intro none
      cases none
    · rintro ⟨row, member, named, -⟩
      exact absurd named (Table.find_eq_none.mp found row member)
  | some row =>
    obtain ⟨member, named⟩ := Table.find_eq_some.mp found
    change (scanDevelopmentObjective O row).map some = _ ↔ _
    constructor
    · intro scanned
      cases read : scanDevelopmentObjective O row with
      | error e =>
        rw [read] at scanned
        cases scanned
      | ok value =>
        rw [read] at scanned
        cases scanned
        exact ⟨row, member, named, read⟩
    · rintro ⟨row', member', named', scanned⟩
      rw [Table.eq_of_key member member' (named.trans named'.symm), scanned]
      rfl

theorem developmentObjectiveByID_eq_none {id : String} :
    db.developmentObjectiveByID O id = .ok none ↔ ∀ row ∈ db.developmentObjectives, row.objectiveID ≠ id := by
  unfold DB.developmentObjectiveByID
  cases found : db.developmentObjectives.find id with
  | none => exact iff_of_true rfl (Table.find_eq_none.mp found)
  | some row =>
    obtain ⟨member, named⟩ := Table.find_eq_some.mp found
    refine iff_of_false ?_ fun absent => absent row member named
    change (scanDevelopmentObjective O row).map some ≠ _
    cases scanDevelopmentObjective O row <;> simp [Except.map]

theorem prune_rows (run : pruneExpiredDevelopmentObjectives O db now = .ok db') :
    (∀ row ∈ db'.developmentObjectives, row ∈ db.developmentObjectives) ∧
      (∀ row ∈ db.developmentObjectives, row.state.settled = false → row ∈ db'.developmentObjectives) ∧
      db' = { db with developmentObjectives := db'.developmentObjectives } := by
  simp only [pruneExpiredDevelopmentObjectives, ok_iff] at run
  obtain ⟨-, -, -, -, run⟩ := run
  split at run
  · rw [pure_eq_ok] at run
    subst run
    exact ⟨fun _ member => member, fun _ member _ => member, rfl⟩
  simp only [ok_iff] at run
  obtain ⟨objectives, scanned, requests, -, live, -, rfl⟩ := run
  refine ⟨fun row member => (Table.mem_delete.mp member).1, ?_, rfl⟩
  intro row member unsettled
  refine Table.mem_delete.mpr ⟨member, ?_⟩
  rw [← Bool.not_eq_true]
  intro removed
  rw [List.contains_iff_mem, List.mem_filter] at removed
  obtain ⟨objective, inside, named⟩ := List.mem_map.mp removed.1
  -- The objective was read from a settled row, which has the same identity.
  obtain ⟨other, place, read⟩ := mem_of_mapM scanned objective inside
  obtain ⟨present, settled⟩ := List.mem_filter.mp place
  rw [Bool.and_eq_true] at settled
  have same := (scan_identity (orFail_eq_ok.mp read)).1
  rw [Table.eq_of_key member present (named.symm.trans same), settled.1] at unsettled
  cases unsettled

structure CreatesObjective (objective : O) (now : UnixNano) (db db' : DB) : Prop where
  absent : ∀ row ∈ db.developmentObjectives, row.objectiveID ≠ objectiveID objective
  valid : valid objective = true
  first : revision objective = 1
  planned : state objective = .planned
  rows : ∃ body digest pruned, marshalRecord objective = some (body, digest) ∧
    pruneExpiredDevelopmentObjectives O db now = .ok pruned ∧
    pruned.developmentObjectives.insert ⟨objectiveID objective, revision objective, state objective, digest,
      body, now, now⟩ = some db'.developmentObjectives
  rest : db' = { db with developmentObjectives := db'.developmentObjectives }

structure RevisesObjective (objective old : O) (now : UnixNano) (db db' : DB) : Prop where
  valid : valid objective = true
  next : revision objective = revision old + 1
  legal : validateTransition old objective = true
  rows : ∃ row body digest, scanDevelopmentObjective O row = .ok old ∧
    row.objectiveID = objectiveID objective ∧ marshalRecord objective = some (body, digest) ∧
    Table.Replaces db.developmentObjectives db'.developmentObjectives row { row with
      revision := revision objective, state := state objective, recordDigest := digest
      recordJSON := body, updatedAt := now }
  rest : db' = { db with developmentObjectives := db'.developmentObjectives }

/-- The update of `SaveDevelopmentObjective`, of the row it has read. -/
def DB.reviseObjective (db : DB) (objective : O) (oldRevision : Nat) (oldDigest body digest : String)
    (now : UnixNano) : DB :=
  { db with
    developmentObjectives := db.developmentObjectives.update
      (fun row => row.objectiveID = objectiveID objective && row.revision = oldRevision &&
        row.recordDigest = oldDigest)
      (fun row => { row with
        revision := revision objective, state := state objective, recordDigest := digest
        recordJSON := body, updatedAt := now }) (fun _ => rfl) (fun _ => rfl) }

theorem reviseObjective_revises {body digest : String} (sound : valid objective = true)
    (marshalled : marshalRecord objective = some (body, digest)) (member : row ∈ db.developmentObjectives)
    (named : row.objectiveID = objectiveID objective) (scanned : scanDevelopmentObjective O row = .ok old)
    (next : revision objective = revision old + 1) (legal : validateTransition old objective = true) :
    RevisesObjective objective old now db
      (db.reviseObjective objective (revision old) row.recordDigest body digest now) := by
  obtain ⟨-, sameRevision, -, -⟩ := scan_identity scanned
  refine ⟨sound, next, legal, ⟨row, body, digest, scanned, named, marshalled, ?_⟩, rfl⟩
  refine Table.update_replaces (f := fun row : DevelopmentObjectiveRow => { row with
    revision := revision objective, state := state objective, recordDigest := digest
    recordJSON := body, updatedAt := now }) (fun _ => rfl) (fun _ => rfl) member ?_ ?_
  · simp [named, sameRevision]
  · intro other _ picked
    simp only [bool_iff] at picked
    exact picked.1.1.trans named.symm

theorem saveDevelopmentObjectiveTx_cases {answer : Except String (O × Bool)}
    (run : saveDevelopmentObjectiveTx objective now db = .ok (answer, db')) :
    (db' = db ∧ ∃ old, answer = .ok (old, false)) ∨
      (answer = .ok (objective, true) ∧ CreatesObjective objective now db db') ∨
      (answer = .ok (objective, false) ∧ ∃ old, RevisesObjective objective old now db db') := by
  simp only [saveDevelopmentObjectiveTx, ok_iff] at run
  obtain ⟨-, sound, ⟨body, digest⟩, marshalled, existing, read, run⟩ := run
  split at run
  · simp only [ok_iff, bool_iff, not_not] at run
    obtain ⟨-, ⟨first, planned⟩, pruned, prune, -, -, objectives, inserted, rfl, rfl⟩ := run
    refine .inr (.inl ⟨rfl, developmentObjectiveByID_eq_none.mp read, sound, first, planned,
      ⟨body, digest, pruned, marshalled, prune, inserted⟩, ?_⟩)
    rw [(prune_rows prune).2.2]
  rename_i old
  simp only [ok_iff] at run
  obtain ⟨⟨oldBody, oldDigest⟩, oldMarshalled, -, -, run⟩ := run
  split at run
  · simp only [ok_iff] at run
    obtain ⟨rfl, rfl⟩ := run
    exact .inl ⟨rfl, old, rfl⟩
  simp only [ok_iff, bool_iff, not_not] at run
  obtain ⟨-, ⟨next, legal⟩, -, -, rfl, rfl⟩ := run
  obtain ⟨row, member, named, scanned⟩ := developmentObjectiveByID_eq_some.mp read
  have record := (scan_identity scanned).2.2.2
  rw [record, Option.some.injEq, Prod.mk.injEq] at oldMarshalled
  rw [← oldMarshalled.2]
  exact .inr (.inr ⟨rfl, old, reviseObjective_revises sound marshalled member named scanned next legal⟩)

theorem saveDevelopmentObjectiveTx_next {body digest : String} (sound : valid objective = true)
    (marshalled : marshalRecord objective = some (body, digest)) (member : row ∈ db.developmentObjectives)
    (named : row.objectiveID = objectiveID objective) (scanned : scanDevelopmentObjective O row = .ok old)
    (hashed : row.recordDigest ≠ "") (next : revision objective = revision old + 1)
    (legal : validateTransition old objective = true) :
    saveDevelopmentObjectiveTx objective now db = .ok (.ok (objective, false),
      db.reviseObjective objective (revision old) row.recordDigest body digest now) := by
  obtain ⟨-, sameRevision, -, record⟩ := scan_identity scanned
  have existing : db.developmentObjectiveByID O (objectiveID objective) = .ok (some old) :=
    developmentObjectiveByID_eq_some.mpr ⟨row, member, named, scanned⟩
  have once : db.developmentObjectives.count (fun other => decide (other.objectiveID = objectiveID objective) &&
      decide (other.revision = revision old) && decide (other.recordDigest = row.recordDigest)) = 1 := by
    refine Table.count_eq_one member ?_ ?_
    · simp [named, sameRevision]
    · intro other _ picked
      simp only [bool_iff] at picked
      exact picked.1.1.trans named.symm
  simp [saveDevelopmentObjectiveTx, DB.reviseObjective, sound, marshalled, existing, record, hashed, next,
    legal, once, reject, required, bind, Except.bind, pure, Except.pure]

theorem exec_objective_cases (s : Store) (call : Call O) :
    (s.exec call).2.db.developmentObjectives = s.db.developmentObjectives ∨
      ∃ objective now, call = .saveDevelopmentObjective objective now ∧
        (CreatesObjective objective now s.db (s.exec call).2.db ∨
          ∃ old, RevisesObjective objective old now s.db (s.exec call).2.db) := by
  by_cases writes : call.writesObjectives = true
  · cases call with
    | saveDevelopmentObjective objective now =>
      simp only [Store.exec, reply, Store.saveDevelopmentObjective, Store.transact]
      split
      · exact .inl rfl
      rename_i answer db' run
      rcases saveDevelopmentObjectiveTx_cases run with ⟨rfl, -⟩ | ⟨-, creates⟩ | ⟨-, revises⟩
      · exact .inl rfl
      · exact .inr ⟨objective, now, rfl, .inl creates⟩
      · exact .inr ⟨objective, now, rfl, .inr revises⟩
    | _ => cases writes
  · exact .inl (exec_objectives s (Bool.eq_false_of_not_eq_true writes))

end Aeontra.Workqueue
