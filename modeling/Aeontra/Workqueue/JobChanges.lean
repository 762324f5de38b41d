import Aeontra.Workqueue.Changes

/-!
The paths of the job operations: recovery, leasing, completion, cancellation, admission
and retention.
-/

namespace Aeontra.Workqueue

open Library Relation List

theorem randomID_matches (lead : String) (draw : Draw) :
    (hexPattern lead 32 32).matchString (randomID lead draw) = true :=
  hexPattern_hexDigits lead 32 draw

variable {O : Type} {config : Config} {call : Call O} {db db' : DB} {now : UnixNano}

/-- The expired lease that `recoverExpired` has read is still in the table. -/
def StillLeased (db : DB) (item : ExpiredLease) : Prop :=
  ∃ row ∈ db.jobs, row.id = item.id ∧ row.state = .leased ∧ row.cancelRequested = item.cancelled ∧
    row.attempt = item.attempt

theorem expiredLeases_still : ∀ item ∈ db.expiredLeases now, StillLeased db item := by
  intro item member
  obtain ⟨row, inside, rfl⟩ := List.mem_map.mp member
  obtain ⟨inside, expired⟩ := List.mem_filter.mp inside
  simp only [bool_iff] at expired
  exact ⟨row, inside, rfl, expired.1, rfl, rfl⟩

theorem expiredLeases_nodup : ((db.expiredLeases now).map ExpiredLease.id).Nodup := by
  unfold DB.expiredLeases
  rw [List.map_map]
  exact db.jobs.keyed.sublist (List.filter_sublist.map JobRow.id)

variable {item : ExpiredLease} {row : JobRow} {expires : UnixNano} {holder jobID leaseID : String}
  {limit : Int} {draw : Draw} {ttl : Duration} {fence : Nat} {answer : Except String Job}

theorem recoverLease_step (member : row ∈ db.jobs) (named : row.id = item.id) (state : row.state = .leased)
    (cancelled : row.cancelRequested = item.cancelled) (attempt : row.attempt = item.attempt) :
    JobStep now row (row.recover (recovery item.cancelled item.attempt) now) db
      (db.updateJobs (fun row => row.id = item.id && row.state = .leased)
        (JobRow.recover (recovery item.cancelled item.attempt) now) (fun _ => rfl) (fun _ => rfl)) := by
  refine updateJobs_step member (by simp [named, state]) ?_ ?_
  · intro other both
    simp only [bool_iff] at both
    exact both.1.trans named.symm
  · rw [← cancelled, ← attempt]
    exact .recover state

theorem recoverLease_change (reading : now ∈ call.readings)
    (still : StillLeased db item) (run : recoverLease now db item = .ok db') :
    Change config call db db' ∧
      ∀ row ∈ db.jobs, row.state = .leased → row.id ≠ item.id → row ∈ db'.jobs := by
  obtain ⟨row, member, named, state, cancelled, attempt⟩ := still
  have step : JobStep now row _ db _ := recoverLease_step member named state cancelled attempt
  have others : ∀ other ∈ db.jobs, other.id ≠ item.id → other ∈ (db.updateJobs _ _ _ _).jobs :=
    fun other inside different => step.replaced.mem_of_ne inside (named ▸ different)
  simp only [recoverLease] at run
  split at run
  · rename_i ended
    refine ⟨.settle reading step ended (named ▸ run), fun other inside leased different => ?_⟩
    exact (propagate_settles run).keeps (others other inside different) (by rw [leased]; simp)
  rename_i again
  rw [Except.ok.injEq] at run
  subst run
  refine ⟨.quiet reading step (by rw [state]; simp) (Bool.eq_false_iff.mpr again)
    (fun queued => ?_), fun other inside _ different => others other inside different⟩
  rw [state] at queued
  cases queued

theorem recoverExpired_path (reading : now ∈ call.readings) (run : recoverExpired db now = .ok db') :
    Path config call db db' := by
  have general : ∀ (items : List ExpiredLease) (db : DB), (items.map ExpiredLease.id).Nodup →
      (∀ item ∈ items, StillLeased db item) → items.foldlM (recoverLease now) db = .ok db' →
        Path config call db db' := by
    intro items
    induction items with
    | nil =>
      intro db _ _ run
      rw [foldlM_nil, pure_eq_ok] at run
      exact run ▸ .refl
    | cons item items ih =>
      intro db distinct still run
      rw [foldlM_cons, bind_eq_ok] at run
      obtain ⟨middle, first, rest⟩ := run
      rw [map_cons, nodup_cons] at distinct
      obtain ⟨change, kept⟩ : Change config call db middle ∧ _ :=
        recoverLease_change reading (still item mem_cons_self) first
      refine .head change (ih middle distinct.2 (fun other later => ?_) rest)
      obtain ⟨row, member, named, state, same⟩ := still other (mem_cons_of_mem _ later)
      refine ⟨row, kept row member state fun again => distinct.1 ?_, named, state, same⟩
      rw [← again, named]
      exact mem_map_of_mem later
  exact general _ _ expiredLeases_nodup expiredLeases_still run

theorem grantLease_step {lostRace unavailable : String}
    {job : Job} (leaseValid : leaseIDPattern.matchString leaseID = true)
    (wanted : ∀ row ∈ db.jobs, row.id = jobID → row.cancelRequested = false)
    (granted : grantLease jobID leaseID holder expires now lostRace unavailable db = .ok (job, db')) :
    ∃ row, row.id = jobID ∧ row.state = .queued ∧
      job = (row.leaseTo leaseID holder expires now).job ∧
      JobStep now row (row.leaseTo leaseID holder expires now) db db' := by
  simp only [grantLease, ok_iff, bool_iff, not_not] at granted
  obtain ⟨-, one, _, read, _, rfl, rfl, rfl⟩ := granted
  obtain ⟨row, member, picked⟩ := Table.exists_of_count (by rw [one]; simp)
  simp only [bool_iff] at picked
  have step : JobStep now row (row.leaseTo leaseID holder expires now) db
      (db.updateJobs (fun row => row.id = jobID && row.state = .queued)
        (JobRow.leaseTo leaseID holder expires now) (fun _ => rfl) (fun _ => rfl)) := by
    refine updateJobs_step member (by simp [picked]) ?_
      (.lease picked.2 (wanted row member picked.1) leaseValid)
    intro other both
    simp only [bool_iff] at both
    exact both.1.trans picked.1.symm
  refine ⟨row, picked.1, picked.2, ?_, step⟩
  obtain ⟨found, inside, named, rfl⟩ := jobByID_eq_some read
  rw [Table.eq_of_key inside step.replaced.new_mem (named.trans picked.1.symm)]

theorem lease_change (reading : now ∈ call.readings) (grants : call.grants = true) (state : row.state = .queued)
    (step : JobStep now row (row.leaseTo leaseID holder expires now) db db') : Change config call db db' :=
  .quiet reading step (by rw [state]; simp) rfl fun _ => grants

theorem mem_leaseCandidates {pool : String} {c : FairCandidate} (member : c ∈ db.leaseCandidates pool limit) :
    ∃ row ∈ db.jobs, row.id = c.jobID ∧ row.state = .queued ∧ row.cancelRequested = false := by
  obtain ⟨row, inside, rfl⟩ := List.mem_map.mp member
  have inside := mem_of_mem_take inside
  rw [(perm_insertionSort _ _).mem_iff, mem_filter] at inside
  obtain ⟨inside, picked⟩ := inside
  simp only [bool_iff] at picked
  exact ⟨_, inside, rfl, picked.1.2, picked.2⟩

/-- A job leased in this call, after the recovery that every leasing call begins with. -/
structure Grants (holder leaseID : String) (expires now : UnixNano) (db db' : DB) (row : JobRow) :
    Prop where
  state : row.state = .queued
  recovered : ∃ middle, recoverExpired db now = .ok middle ∧
    JobStep now row (row.leaseTo leaseID holder expires now) middle db'

theorem Grants.path (grant : Grants holder leaseID expires now db db' row) (reading : now ∈ call.readings)
    (grants : call.grants = true) : Path config call db db' := by
  obtain ⟨middle, recovered, step⟩ := grant.recovered
  exact (recoverExpired_path reading recovered).tail (lease_change reading grants grant.state step)

/-- `LeaseNext` fails and changes nothing, fails after the recovery, or grants a lease. -/
theorem leaseNext_cases (s : Store) (pool holder : String) (ttl : Duration) (now : UnixNano) (draw : Draw) :
    (∃ e, (s.leaseNext pool holder ttl now draw).1 = .error e ∧
      ((s.leaseNext pool holder ttl now draw).2.db = s.db ∨
        recoverExpired s.db now = .ok (s.leaseNext pool holder ttl now draw).2.db)) ∨
    ∃ row, Grants holder (randomID "wl_" draw) (.ofTime (now.time + ttl)) now s.db
        (s.leaseNext pool holder ttl now draw).2.db row ∧
      (s.leaseNext pool holder ttl now draw).1 = .ok
        ⟨(row.leaseTo (randomID "wl_" draw) holder (.ofTime (now.time + ttl)) now).job,
          randomID "wl_" draw, row.fence + 1, row.attempt + 1, now.time + ttl⟩ := by
  unfold Store.leaseNext
  split
  · exact .inl ⟨_, rfl, .inl rfl⟩
  split
  · exact .inl ⟨_, rfl, .inl rfl⟩
  rename_i middle recovered
  dsimp only
  split
  · exact .inl ⟨_, rfl, .inr recovered⟩
  split
  · exact .inl ⟨_, rfl, .inl rfl⟩
  rename_i selected fair chosen
  split
  · exact .inl ⟨_, rfl, .inl rfl⟩
  rename_i job db' granted
  obtain ⟨offered, inside, sameJob, -, flag⟩ := mem_leaseCandidates (select_mem chosen)
  obtain ⟨row, -, state, rfl, step⟩ := grantLease_step (randomID_matches "wl_" draw)
    (fun other member named => by
      rw [Table.eq_of_key member inside (named.trans sameJob.symm)]
      exact flag) granted
  exact .inr ⟨row, ⟨state, middle, recovered, step⟩, rfl⟩

theorem leaseNext_config (s : Store) (pool holder : String) (ttl : Duration) (now : UnixNano)
    (draw : Draw) : (s.leaseNext pool holder ttl now draw).2.config = s.config := by
  unfold Store.leaseNext
  split
  · rfl
  split
  · rfl
  dsimp only
  split
  · rfl
  · split
    · rfl
    · split <;> rfl

theorem leaseTaskWorkerTx_cases {taskID : String} {ordinal : Int} {result : Except String TaskWorker}
    (run : leaseTaskWorkerTx taskID ordinal holder ttl now draw db = .ok (result, db')) :
    ∃ w worker, result = .ok worker ∧ w.key = (taskID, ordinal) ∧ worker.jobID = w.jobID ∧
      ((recoverExpired db now = .ok db' ∧ w ∈ db'.taskWorkers ∧ ∃ row ∈ db'.jobs, row.id = w.jobID ∧
          row.state = .leased ∧ worker.leaseID = row.leaseID.getD "") ∨
        ∃ row, Grants holder (randomID "wl_" draw) (.ofTime (now.time + ttl)) now db db' row ∧
          row.id = w.jobID ∧ worker.leaseID = randomID "wl_" draw ∧
          worker.fence = row.fence + 1) := by
  simp only [leaseTaskWorkerTx, ok_iff] at run
  obtain ⟨-, -, middle, recovered, w, found, _, read, job, rfl, run⟩ := run
  obtain ⟨member, key⟩ := Table.find_eq_some.mp found
  obtain ⟨row, inside, named, rfl⟩ := jobByID_eq_some read
  split at run
  · rename_i held
    simp only [ok_iff] at run
    obtain ⟨rfl, rfl⟩ := run
    exact ⟨w, _, rfl, key, named, .inl ⟨recovered, member, row, inside, named, held.1, rfl⟩⟩
  simp only [ok_iff] at run
  obtain ⟨-, leasable, ⟨job, last⟩, granted, rfl, rfl⟩ := run
  simp only [bool_iff] at leasable
  obtain ⟨old, sameJob, state, rfl, step⟩ := grantLease_step (randomID_matches "wl_" draw)
    (fun other belongs same => by
      rw [Table.eq_of_key belongs inside (same.trans named.symm)]
      exact leasable.2) granted
  exact ⟨w, _, rfl, key, sameJob, .inr ⟨old, ⟨state, middle, recovered, step⟩, sameJob, rfl, rfl⟩⟩

structure Presents (db : DB) (jobID leaseID : String) (fence : Nat) (now : UnixNano) (row : JobRow) :
    Prop where
  member : row ∈ db.jobs
  named : row.id = jobID
  state : row.state = .leased
  lease : row.leaseID = some leaseID
  fence : row.fence = fence
  unexpired : ∃ expires, row.leaseUntil = some expires ∧ now < expires

theorem leaseID_of_getD (same : row.leaseID.getD "" = leaseID)
    (valid : leaseIDPattern.matchString leaseID = true) : row.leaseID = some leaseID := by
  cases stored : row.leaseID with
  | none =>
    rw [stored] at same
    exact absurd same.symm (leaseIDPattern_nonempty valid)
  | some column =>
    rw [stored] at same
    exact congrArg some same

theorem unexpired_of_time (unexpired : now.time < row.job.leaseExpiresAt) :
    ∃ expires, row.leaseUntil = some expires ∧ now < expires := by
  have same : row.job.leaseExpiresAt = (row.leaseUntil.map UnixNano.time).getD zeroTime := rfl
  rw [same] at unexpired
  cases stored : row.leaseUntil with
  | none =>
    rw [stored] at unexpired
    have low := now.lower
    have value : now.nanos < -62135596800 * 1000000000 := unexpired
    omega
  | some expires =>
    rw [stored] at unexpired
    exact ⟨expires, rfl, unexpired⟩

theorem heartbeatTx_cases {result : Except String HeartbeatStatus}
    (run : heartbeatTx jobID leaseID fence ttl now db = .ok (result, db')) :
    ∃ row, Presents db jobID leaseID fence now row ∧
      JobStep now row (row.extendLease (.ofTime (now.time + ttl)) now) db db' := by
  simp only [heartbeatTx, ok_iff, bool_iff, not_not] at run
  obtain ⟨-, -, -, one, -, -, -, rfl⟩ := run
  obtain ⟨row, member, picked⟩ := Table.exists_of_count (by rw [one]; simp)
  simp only [bool_iff, Option.any_eq_true] at picked
  obtain ⟨⟨⟨⟨named, state⟩, lease⟩, fenced⟩, unexpired⟩ := picked
  refine ⟨row, ⟨member, named, state, lease, fenced, unexpired⟩, ?_⟩
  refine updateJobs_step member ?_ ?_ (.extend state)
  · obtain ⟨expires, stored, later⟩ := unexpired
    simp [named, state, lease, fenced, stored, later]
  · intro other both
    simp only [bool_iff] at both
    exact both.1.1.1.1.trans named.symm

theorem completeTx_cases {result : Result} {checked : UnixNano}
    (run : completeTx jobID leaseID fence result checked now db = .ok (answer, db')) :
    db' = db ∨ ∃ row outcome middle, Presents db jobID leaseID fence checked row ∧
      terminal outcome = true ∧ JobStep now row (row.complete outcome result now) db middle ∧
      propagate middle jobID now = .ok db' := by
  simp only [completeTx, ok_iff] at run
  obtain ⟨-, valid, _, read, job, rfl, run⟩ := run
  obtain ⟨row, member, named, rfl⟩ := jobByID_eq_some read
  simp only [bool_iff, Bool.not_eq_eq_eq_not, Bool.not_false] at valid
  have leaseValid := valid.1.1.2
  have resultValid := accepted_unit.mp valid.2
  split at run
  · simp only [ok_iff] at run
    obtain ⟨-, -, -, rfl⟩ := run
    exact .inl rfl
  simp only [ok_iff, bool_iff, not_not] at run
  obtain ⟨-, ⟨⟨⟨state, lease⟩, fenced⟩, unexpired⟩, -, honoured, outcome, same, -, legal, last,
    propagated, -, rfl⟩ := run
  have state : row.state = .leased := state
  have stored := leaseID_of_getD lease leaseValid
  have fenced : row.fence = fence := fenced
  have ends : terminal outcome = true := by
    simp only [validateResult, ok_iff, same] at resultValid
    obtain ⟨-, known, -⟩ := resultValid
    cases outcome <;> simp_all [terminal]
  refine .inr ⟨row, outcome, _, ⟨member, named, state, stored, fenced, unexpired_of_time unexpired⟩,
    ends, ?_, propagated⟩
  refine updateJobs_step member (by simp [named, state, stored, fenced]) ?_ ?_
  · intro other both
    simp only [bool_iff] at both
    exact both.1.1.1.trans named.symm
  · refine .complete state ends fun flag => ?_
    have flag : row.job.cancelRequested = true := flag
    simpa [flag, same] using honoured

theorem cancelTx_cases (run : cancelTx jobID now db = .ok (answer, db')) :
    db' = db ∨
      (∃ row, row.id = jobID ∧ row.state = .leased ∧ JobStep now row (row.requestCancel now) db db') ∨
      ∃ row middle, row.id = jobID ∧ JobStep now row (row.cancel now) db middle ∧
        propagate middle jobID now = .ok db' := by
  simp only [cancelTx, ok_iff] at run
  obtain ⟨-, -, _, read, job, rfl, run⟩ := run
  obtain ⟨row, member, named, rfl⟩ := jobByID_eq_some read
  have sameState : row.job.state = row.state := rfl
  rw [sameState] at run
  split at run
  · simp only [ok_iff] at run
    exact .inl run.2.symm
  rename_i running
  split at run
  · rename_i state
    simp only [ok_iff] at run
    obtain ⟨-, rfl⟩ := run
    refine .inr (.inl ⟨row, named, state, ?_⟩)
    refine updateJobs_step member (by simp [named, state]) ?_ (.requestCancel state)
    intro other both
    simp only [bool_iff] at both
    exact both.1.trans named.symm
  · rename_i unleased
    simp only [ok_iff] at run
    obtain ⟨-, -, last, propagated, -, rfl⟩ := run
    refine .inr (.inr ⟨row, _, named, ?_, propagated⟩)
    refine updateJobs_step member (by simp [named]) ?_ (.cancel ?_)
    · intro other both
      simp only [bool_iff] at both
      exact both.1.trans named.symm
    · cases state : row.state <;> simp_all [terminal]

theorem insertDependencies_eq {dependencies : List String}
    (run : insertDependencies jobID db dependencies = .ok db') :
    db'.dependencies.rows = db.dependencies.rows ++
        (dependencies.map fun dependency => ⟨jobID, dependency⟩) ∧
      (∀ dependency ∈ dependencies, ∃ row ∈ db.jobs, row.id = dependency) ∧
      db' = { db with dependencies := db'.dependencies } := by
  induction dependencies generalizing db with
  | nil =>
    simp only [insertDependencies, Except.ok.injEq] at run
    subst run
    exact ⟨by simp, by simp, rfl⟩
  | cons dependency rest ih =>
    simp only [insertDependencies, ok_iff] at run
    obtain ⟨-, present, table, inserted, run⟩ := run
    obtain ⟨rows, known, same⟩ := ih run
    obtain ⟨-, -, appended⟩ := Table.insert_eq_some.mp inserted
    refine ⟨?_, ?_, same⟩
    · rw [rows]
      simp [appended]
    rw [Option.isNone_eq_false_iff, Option.isSome_iff_exists] at present
    obtain ⟨row, found⟩ := present
    obtain ⟨member, named⟩ := Table.find_eq_some.mp found
    intro other either
    rcases List.mem_cons.mp either with rfl | later
    · exact ⟨row, member, named⟩
    · exact known other later

theorem enqueueTx_cases {spec : Spec} {answer : Except String (Job × Bool)}
    (run : enqueueTx config spec draw now db = .ok (answer, db')) :
    db' = db ∨ Admits config spec draw now db db' := by
  simp only [enqueueTx, ok_iff] at run
  obtain ⟨-, -, existing, -, run⟩ := run
  split at run
  · simp only [ok_iff] at run
    obtain ⟨-, -, -, rfl⟩ := run
    exact .inl rfl
  simp only [ok_iff, bool_iff, ge_iff_le, not_le] at run
  obtain ⟨-, room, -, roomIn, ⟨state, reason⟩, decided, jobs, inserted, last, linked, -, rfl⟩ := run
  obtain ⟨rows, known, same⟩ := insertDependencies_eq linked
  have sameJobs : last.jobs = jobs := by rw [same]
  refine .inr ⟨room, roomIn, ⟨state, reason, decided, ?_⟩, rows, ?_, ?_⟩
  · rw [sameJobs]
    exact inserted
  · intro dependency member
    rw [sameJobs]
    exact known dependency (mem_sortStrings.mpr member)
  · rw [same]

theorem cleanupTerminalTx_cases {retention : Duration} {answer : Except String Nat}
    (run : cleanupTerminalTx retention limit now db = .ok (answer, db')) : ∃ ids, Sweeps ids db db' := by
  simp only [cleanupTerminalTx, ok_iff] at run
  obtain ⟨-, -, -, rfl⟩ := run
  have removable : ∀ id ∈ db.removableJobs (.ofTime (now.time - retention)) limit,
      (∀ d ∈ db.dependencies, d.dependencyID ≠ id) ∧ ∀ w ∈ db.taskWorkers, w.jobID ≠ id := by
    intro id listed
    obtain ⟨row, inside, rfl⟩ := List.mem_map.mp listed
    have inside := mem_of_mem_take inside
    rw [(perm_insertionSort _ _).mem_iff, mem_filter] at inside
    obtain ⟨-, picked⟩ := inside
    simp only [bool_iff, all_eq_true] at picked
    exact ⟨picked.1.2, picked.2⟩
  refine ⟨_, fun d member listed => ?_, fun w member listed => ?_, rfl⟩
  · exact (removable _ listed).1 d member rfl
  · exact (removable _ listed).2 w member rfl

end Aeontra.Workqueue
