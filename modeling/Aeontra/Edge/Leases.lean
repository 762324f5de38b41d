import Aeontra.Edge.Operations

/-!
What leasing guarantees over every run: an operation is leased a bounded number of times and
under one unexpired lease at a time, a started command is not replayed, only the holder of the
current lease acts on it, and final operations stay as they are.
-/

namespace Aeontra.Edge

open Library Machine Table Relation OperationTable OperationInput

variable {ρ υ : Type}

structure HeldBy (now : Time) (leaseID : String) (row : OperationRow ρ υ) : Prop where
  leased : row.state = .leased
  named : row.leaseID = some leaseID
  runs : ∃ expiry, row.leaseUntil = some expiry ∧ now < expiry

/-- One write to a row in a call whose last reading of the clock is `last`. -/
inductive Move (last : Time) (row : OperationRow ρ υ) : OperationRow ρ υ → Prop
  | recover {now : Time} (order : now ≤ last) (lapsed : leaseExpired now row = true) :
      Move last row (recovered now row)
  | expire {now : Time} (lapsed : queueExpired now row = true) : Move last row (expired now row)
  | grant (queued : row.state = .queued) (leaseID : String) (expires : Time) :
      Move last row (granted last row leaseID expires)
  | progress {leaseID : String} (held : HeldBy last leaseID row) (progress : OperationProgress) :
      Move last row (progressed last row progress)
  | request (active : row.state.final = false) : Move last row (cancelRequest last row)
  | acknowledge {leaseID : String} (held : HeldBy last leaseID row) : Move last row (acknowledged last row)
  | complete {leaseID : String} (held : HeldBy last leaseID row) (free : row.cancelRequested = false) (result : υ)
      (safeCode : String) : Move last row (completed last row result safeCode)

abbrev Changes (last : Time) : OperationRow ρ υ → OperationRow ρ υ → Prop := ReflTransGen (Move last)

variable {leaseID : String} {now first last : Time} {row row' : OperationRow ρ υ}
  {f : OperationRow ρ υ → OperationRow ρ υ} {p : OperationRow ρ υ → Bool} {t : OperationTable ρ υ}
  {scope : Scope} {input : OperationInput ρ υ}

theorem heldUnder_iff {deviceID operationID : String} :
    heldUnder now row deviceID operationID leaseID = true ↔
      row.operationID = operationID ∧ row.deviceID = deviceID ∧ HeldBy now leaseID row := by
  simp only [heldUnder, leasedUnder, bool_iff, Option.any_eq_true]
  constructor
  · rintro ⟨⟨⟨⟨named, device⟩, lease⟩, leased⟩, runs⟩
    exact ⟨named, device, leased, lease, runs⟩
  · rintro ⟨named, device, held⟩
    exact ⟨⟨⟨⟨named, device⟩, held.named⟩, held.leased⟩, held.runs⟩

theorem leaseExpired_iff :
    leaseExpired now row = true ↔ row.state = .leased ∧ ∃ expiry, row.leaseUntil = some expiry ∧ expiry ≤ now := by
  simp [leaseExpired, Option.any_eq_true]

theorem queueExpired_iff :
    queueExpired now row = true ↔
      row.kind = .projectExec ∧ row.state = .queued ∧ row.createdAt ≤ now - projectExecQueueTTL := by
  simp [queueExpired, and_assoc]

theorem HeldBy.not_expired
    (held : HeldBy last leaseID row) (order : first ≤ last) : ¬ leaseExpired first row = true := by
  intro lapsed
  obtain ⟨-, expiry, same, passed⟩ := leaseExpired_iff.mp lapsed
  obtain ⟨other, same', runs⟩ := held.runs
  cases same.symm.trans same'
  exact absurd (lt_of_lt_of_le runs (passed.trans order)) (lt_irrefl last)

structure SameOperation (row row' : OperationRow ρ υ) : Prop where
  operationID : row'.operationID = row.operationID
  leaseAttempts : row.leaseAttempts ≤ row'.leaseAttempts
  cancelRequested : row.cancelRequested = true → row'.cancelRequested = true

theorem recovered_cases (now : Time) (row : OperationRow ρ υ) :
    SameOperation row (recovered now row) ∧ (recovered now row).leaseAttempts = row.leaseAttempts ∧
      (recovered now row).cancelRequested = row.cancelRequested ∧
      ((row.cancelRequested = true ∧ (recovered now row).state = .cancelled) ∨
       (row.cancelRequested = false ∧ (recovered now row).state = .failed) ∨
       (row.cancelRequested = false ∧ interrupted row = false ∧ row.leaseAttempts < maxOperationLeaseAttempts ∧
        (recovered now row).state = .queued)) := by
  by_cases requested : row.cancelRequested = true
  · simp only [recovered]
    rw [if_pos requested]
    exact ⟨⟨rfl, Nat.le_refl _, id⟩, rfl, rfl, .inl ⟨requested, rfl⟩⟩
  have free := Bool.eq_false_iff.mpr requested
  by_cases stopped : interrupted row = true
  · simp only [recovered]
    rw [if_neg requested, if_pos stopped]
    exact ⟨⟨rfl, Nat.le_refl _, id⟩, rfl, rfl, .inr (.inl ⟨free, rfl⟩)⟩
  by_cases exhausted : recoveryExhausted now row = true
  · simp only [recovered]
    rw [if_neg requested, if_neg stopped, if_pos exhausted]
    exact ⟨⟨rfl, Nat.le_refl _, id⟩, rfl, rfl, .inr (.inl ⟨free, rfl⟩)⟩
  have few : row.leaseAttempts < maxOperationLeaseAttempts := by
    simp only [recoveryExhausted, bool_iff, not_or, not_le] at exhausted
    exact exhausted.1
  simp only [recovered]
  rw [if_neg requested, if_neg stopped, if_neg exhausted]
  exact ⟨⟨rfl, Nat.le_refl _, id⟩, rfl, rfl, .inr (.inr ⟨free, Bool.eq_false_iff.mpr stopped, few, rfl⟩)⟩

theorem Move.sameOperation (move : Move last row row') : SameOperation row row' := by
  cases move with
  | recover _ _ => exact (recovered_cases _ row).1
  | grant _ _ _ => exact ⟨rfl, Nat.le_succ _, id⟩
  | request _ =>
    unfold cancelRequest
    split
    · exact ⟨rfl, Nat.le_refl _, fun _ => rfl⟩
    · exact ⟨rfl, Nat.le_refl _, fun _ => rfl⟩
  | acknowledge _ => exact ⟨rfl, Nat.le_refl _, fun _ => rfl⟩
  | _ => exact ⟨rfl, Nat.le_refl _, id⟩

theorem Changes.sameOperation (changes : Changes last row row') : SameOperation row row' := by
  induction changes with
  | refl => exact ⟨rfl, Nat.le_refl _, id⟩
  | tail _ move ih =>
    have step := move.sameOperation
    exact ⟨step.operationID.trans ih.operationID, ih.leaseAttempts.trans step.leaseAttempts,
      fun requested => step.cancelRequested (ih.cancelRequested requested)⟩

variable {P : OperationRow ρ υ → Prop} {t' : OperationTable ρ υ}

theorem Changes.keeps (each : ∀ {a b}, Move last a b → P a → P b) (changes : Changes last row row')
    (start : P row) : P row' := by
  induction changes with
  | refl => exact start
  | tail _ move ih => exact each move ih

theorem Move.active (move : Move last row row') : row.state.final = false := by
  cases move with
  | recover _ lapsed => rw [(leaseExpired_iff.mp lapsed).1]; rfl
  | expire lapsed => rw [(queueExpired_iff.mp lapsed).2.1]; rfl
  | grant queued _ _ => rw [queued]; rfl
  | request active => exact active
  | progress held _ => rw [held.leased]; rfl
  | acknowledge held => rw [held.leased]; rfl
  | complete held _ _ _ => rw [held.leased]; rfl

theorem Changes.of_final (changes : Changes last row row') (final : row.state.final = true) : row' = row := by
  rcases changes.cases_head with same | ⟨_, move, -⟩
  · exact same.symm
  · simp [move.active] at final

structure Sane (row : OperationRow ρ υ) : Prop where
  waiting : row.state = .queued → row.leaseAttempts < maxOperationLeaseAttempts ∧ row.cancelRequested = false
  ended : row.state = .succeeded ∨ row.state = .failed → row.cancelRequested = false
  withdrawn : row.state = .cancelled → row.cancelRequested = true

theorem Sane.move (move : Move last row row') (sane : Sane row) : Sane row' := by
  cases move with
  | @recover now _ _ =>
    obtain ⟨-, attempts, requested, cases⟩ := recovered_cases now row
    rcases cases with ⟨was, state⟩ | ⟨was, state⟩ | ⟨was, -, few, state⟩
    · exact ⟨by simp [state], by simp [state], fun _ => requested.trans was⟩
    · exact ⟨by simp [state], fun _ => requested.trans was, by simp [state]⟩
    · exact ⟨fun _ => ⟨attempts ▸ few, requested.trans was⟩, by simp [state], by simp [state]⟩
  | expire lapsed =>
    have queued := (queueExpired_iff.mp lapsed).2.1
    exact ⟨by simp [expired], fun _ => (sane.waiting queued).2, by simp [expired]⟩
  | grant queued leaseID expires => exact ⟨by simp [granted], by simp [granted], by simp [granted]⟩
  | progress held p => simp only [progressed]; exact ⟨sane.waiting, sane.ended, sane.withdrawn⟩
  | request active =>
    unfold cancelRequest
    split
    · exact ⟨by simp, by simp, by simp⟩
    rename_i other
    refine ⟨by simp [other], ?_, by simp⟩
    intro ended
    rcases ended with ended | ended <;> simp [show row.state = _ from ended, OperationState.final] at active
  | acknowledge held => exact ⟨by simp [acknowledged], by simp [acknowledged], by simp [acknowledged]⟩
  | complete held free result safeCode =>
    refine ⟨?_, fun _ => free, ?_⟩
    · intro queued
      simp only [completed] at queued
      split at queued <;> cases queued
    · intro cancelled
      simp only [completed] at cancelled
      split at cancelled <;> cases cancelled

/-- The operation is final, or was started by a command that is not replayed. -/
def Spent (row : OperationRow ρ υ) : Prop :=
  row.state.final = true ∨ row.state = .leased ∧ interrupted row = true

theorem Spent.not_queued (spent : Spent row) : row.state ≠ .queued := by
  intro queued
  rcases spent with final | ⟨leased, -⟩
  · simp [queued, OperationState.final] at final
  · simp [queued] at leased

theorem Spent.move (move : Move last row row') (spent : Spent row) : Spent row' := by
  obtain ⟨leased, started⟩ := spent.resolve_left (by simp [move.active])
  cases move with
  | recover _ _ =>
    obtain ⟨-, -, -, cases⟩ := recovered_cases _ row
    rcases cases with ⟨-, state⟩ | ⟨-, state⟩ | ⟨-, alive, -, -⟩
    · exact .inl (by rw [state]; rfl)
    · exact .inl (by rw [state]; rfl)
    · rw [started] at alive
      cases alive
  | expire lapsed => exact absurd (queueExpired_iff.mp lapsed).2.1 spent.not_queued
  | grant queued _ _ => exact absurd queued spent.not_queued
  | progress held p =>
    refine .inr ⟨held.leased, ?_⟩
    simp only [interrupted, bool_iff] at started
    simp [interrupted, progressed, started.2]
  | request active => exact .inr (by simpa [cancelRequest, leased, interrupted] using started)
  | acknowledge held => exact .inl rfl
  | complete held free result safeCode =>
    left
    simp only [completed]
    split <;> rfl

/-- An unexpired lease ends with its operation; until then only a heartbeat moves its expiry. -/
theorem Changes.of_held (changes : Changes last row row') (held : HeldBy last leaseID row) :
    row'.state.final = true ∨ row'.state = .leased ∧ row'.leaseID = some leaseID ∧
      (row'.leaseUntil = row.leaseUntil ∨ row'.leaseUntil = some (last + operationHeartbeatTTL)) := by
  induction changes with
  | refl => exact .inr ⟨held.leased, held.named, .inl rfl⟩
  | @tail row' _ _ move ih =>
    obtain ⟨leased, named, expiry⟩ := ih.resolve_left (by simp [move.active])
    have still : HeldBy last leaseID row' := by
      refine ⟨leased, named, ?_⟩
      rcases expiry with same | moved
      · exact same ▸ held.runs
      · exact ⟨_, moved, by simp [operationHeartbeatTTL, Time]; decide⟩
    cases move with
    | recover order lapsed => exact absurd lapsed (still.not_expired order)
    | expire lapsed => exact absurd ((queueExpired_iff.mp lapsed).2.1.symm.trans leased) (by decide)
    | grant queued _ _ => exact absurd (queued.symm.trans leased) (by decide)
    | progress _ _ => exact .inr ⟨leased, named, .inr rfl⟩
    | request active =>
      right
      simp only [cancelRequest]
      rw [if_neg (by rw [leased]; decide)]
      exact ⟨leased, named, expiry⟩
    | acknowledge _ => exact .inl rfl
    | complete _ _ _ _ =>
      left
      simp only [completed]
      split <;> rfl

theorem OperationTable.mem_set {keeps : ∀ row, (f row).operationID = row.operationID} :
    row' ∈ t.set p f keeps ↔ ∃ row ∈ t, (if p row then f row else row) = row' :=
  mem_update

theorem OperationTable.mem_set_of
    (keeps : ∀ row, (f row).operationID = row.operationID) (present : row ∈ t) (selected : p row = true) :
    f row ∈ t.set p f keeps :=
  mem_set.mpr ⟨row, present, if_pos selected⟩

theorem OperationTable.of_mem_set {keeps : ∀ row, (f row).operationID = row.operationID}
    (member : row' ∈ t.set p f keeps) :
    row' ∈ t ∧ p row' = false ∨ ∃ row ∈ t, p row = true ∧ row' = f row := by
  obtain ⟨row, present, same⟩ := mem_set.mp member
  cases selected : p row with
  | true =>
    rw [selected, if_pos rfl] at same
    exact .inr ⟨row, present, selected, same.symm⟩
  | false =>
    rw [selected, if_neg (by decide)] at same
    exact .inl ⟨same ▸ present, same ▸ selected⟩

theorem OperationTable.recovers_of_mem (order : now ≤ last)
    (member : row' ∈ t.recoverExpiredOperationLeases now scope) : ∃ row ∈ t, Changes last row row' := by
  rcases of_mem_set member with ⟨present, -⟩ | ⟨row, present, selected, rfl⟩
  · exact ⟨row', present, .refl⟩
  · exact ⟨row, present, .single (.recover order (Bool.and_eq_true_iff.mp selected).2)⟩

theorem OperationTable.sweeps_of_mem {second : Time} (order : first ≤ last)
    (member : row' ∈ (t.recoverExpiredOperationLeases first scope).expireQueuedProjectExecs second scope) :
    ∃ row ∈ t, Changes last row row' := by
  rcases of_mem_set member with ⟨present, -⟩ | ⟨between, present, selected, rfl⟩
  · exact recovers_of_mem order present
  · obtain ⟨row, before, changes⟩ := recovers_of_mem order present
    exact ⟨row, before, changes.tail (.expire (Bool.and_eq_true_iff.mp selected).2)⟩

theorem mem_of_ensureOperationStorageCapacity {pages : Nat → Option Pages} {attempts : Nat}
    (member : row ∈ (ensureOperationStorageCapacity pages attempts t).2) : row ∈ t := by
  induction attempts generalizing t with
  | zero => exact member
  | succ attempts ih =>
    unfold ensureOperationStorageCapacity at member
    split at member
    · exact member
    split at member
    · exact member
    · split at member
      · exact member
      · exact (Table.mem_delete.mp (ih member)).1

def OperationInput.drawn (input : OperationInput ρ υ) : Option String :=
  match input.call with
  | .createOperation _ _ _ _ draw => draw.map (randomOpaque "eo_")
  | _ => none

structure Inserted (input : OperationInput ρ υ) (row : OperationRow ρ υ) : Prop where
  drawn : input.drawn = some row.operationID
  queued : row.state = .queued
  attempts : row.leaseAttempts = 0
  free : row.cancelRequested = false

theorem Inserted.sane (inserted : Inserted input row) : Sane row := by
  have few : row.leaseAttempts < maxOperationLeaseAttempts := by
    rw [inserted.attempts]
    decide
  refine ⟨fun _ => ⟨few, inserted.free⟩, fun _ => inserted.free, ?_⟩
  intro cancelled
  exact absurd (inserted.queued.symm.trans cancelled) (by decide)

/-- Where the rows of a table come from when one call has run. -/
def Evolves (input : OperationInput ρ υ) (t t' : OperationTable ρ υ) : Prop :=
  ∀ row' ∈ t', (∃ row ∈ t, Changes input.clock.third row row') ∨ Inserted input row'

theorem Evolves.refl (input : OperationInput ρ υ) (t : OperationTable ρ υ) : Evolves input t t :=
  fun row' present => .inl ⟨row', present, .refl⟩

theorem Evolves.swept (rows : ∀ row' ∈ t', ∃ row ∈ t, Changes input.clock.third row row') : Evolves input t t' :=
  fun row' present => .inl (rows row' present)

theorem Evolves.set (keeps : ∀ row, (f row).operationID = row.operationID)
    (rows : ∀ row' ∈ t', ∃ row ∈ t, Changes input.clock.third row row')
    (moves : ∀ row, p row = true → Move input.clock.third row (f row)) : Evolves input t (t'.set p f keeps) := by
  intro row' member
  rcases of_mem_set member with ⟨present, -⟩ | ⟨between, present, selected, rfl⟩
  · exact .inl (rows row' present)
  · obtain ⟨row, before, changes⟩ := rows between present
    exact .inl ⟨row, before, changes.tail (moves between selected)⟩

section

variable {contract : Contract ρ υ} {crypto : Crypto} {s : OperationStore ρ υ} {input : OperationInput ρ υ}

theorem swept_self (last : Time) (t : OperationTable ρ υ) : ∀ row' ∈ t, ∃ row ∈ t, Changes last row row' :=
  fun row' present => ⟨row', present, .refl⟩

theorem swept_sweep (scope : Scope) : ∀ row' ∈ (s.sweep input.clock scope).operations,
    ∃ row ∈ s.operations, Changes input.clock.third row row' :=
  fun _ member => sweeps_of_mem (input.clock.first_le.trans input.clock.second_le) member

theorem swept_recover (scope : Scope) :
    ∀ row' ∈ s.operations.recoverExpiredOperationLeases input.clock.first scope,
      ∃ row ∈ s.operations, Changes input.clock.third row row' :=
  fun _ member => recovers_of_mem (input.clock.first_le.trans input.clock.second_le) member

variable {deviceID operationID leaseID : String} {draw : Option (List Nat)} {kind : OperationKind}
  {t : OperationTable ρ υ} {s' : OperationStore ρ υ}

variable {α : Type} {pages : Nat → Option Pages} {request : ρ} {progress : OperationProgress}
  {given : OperationReply ρ υ} {reply : α → OperationReply ρ υ}

theorem addOperation_evolves {given : ρ} (called : input.call = .createOperation deviceID kind given pages draw)
    (rows : ∀ row' ∈ s.operations, ∃ row ∈ t, Changes input.clock.third row row') :
    Evolves input t
      (s.addOperation contract crypto input.clock deviceID kind request pages draw).2.operations := by
  have pruned : Evolves input t
      (ensureOperationStorageCapacity pages operationStoragePruneAttempts s.operations).2 :=
    .swept fun row' member => rows row' (mem_of_ensureOperationStorageCapacity member)
  simp only [OperationStore.addOperation]
  split
  · exact pruned
  split
  · exact pruned
  rename_i value
  split
  · exact pruned
  rename_i inserted added
  intro row' member
  rcases (mem_insert added).mp member with old | rfl
  · exact pruned row' old
  right
  refine ⟨?_, rfl, rfl, rfl⟩
  simp only [drawn, called]
  rfl

theorem createOperation_evolves (called : input.call = .createOperation deviceID kind request pages draw) :
    Evolves input s.operations
      (s.createOperation contract crypto input.clock deviceID kind request pages draw).2.operations := by
  have swept : ∀ row' ∈ (s.sweep input.clock (.device deviceID)).operations,
      ∃ row ∈ s.operations, Changes input.clock.third row row' := swept_sweep _
  simp only [OperationStore.createOperation]
  split
  · exact .refl _ _
  split
  · exact .refl _ _
  split
  · exact .swept swept
  split
  · exact addOperation_evolves called swept
  split
  · exact .swept swept
  · exact .swept swept
  · exact addOperation_evolves called swept

theorem OperationTable.of_next {compatible : Bool}
    {row : OperationRow ρ υ} (found : t.next deviceID compatible = some row) :
    row ∈ t ∧ row.deviceID = deviceID ∧ row.state = .queued := by
  have first := List.mem_of_mem_head? (Option.mem_def.mpr found)
  have member := (List.mem_insertionSort _).mp first
  simp only [List.mem_filter, queuedFor, bool_iff] at member
  exact ⟨member.1, member.2.1.1, member.2.1.2⟩

theorem OperationTable.not_queueExpired {now : Time} {row : OperationRow ρ υ}
    (member : row ∈ t.expireQueuedProjectExecs now (.device row.deviceID)) (queued : row.state = .queued) :
    queueExpired now row = false := by
  rcases of_mem_set member with ⟨-, spared⟩ | ⟨old, -, -, rfl⟩
  · simpa [Scope.covers] using spared
  · cases queued

structure Grant (contract : Contract ρ υ) (now : Time) (s : OperationStore ρ υ) (lease : OperationLease ρ υ)
    (s' : OperationStore ρ υ) (row between : OperationRow ρ υ) : Prop where
  present : row ∈ s.operations
  swept : Changes now row between
  queued : between.state = .queued
  fresh : queueExpired now between = false
  told : lease.operation = scanOperation contract (granted now between lease.leaseID lease.expiresAt)
  written : granted now between lease.leaseID lease.expiresAt ∈ s'.operations

theorem leaseOperationCompatible_cases (input : OperationInput ρ υ) {ttl : Duration}
    {observedProtocol observedCatalog : String} {answer : Except OperationError (OperationLease ρ υ)}
    (called : s.leaseOperationCompatible contract input.clock.third deviceID ttl observedProtocol observedCatalog
      draw = (answer, s')) :
    Evolves input s.operations s'.operations ∧
      ((∃ e, answer = .error e) ∨ ∃ lease row between, answer = .ok lease ∧
        Grant contract input.clock.third s lease s' row between) := by
  have swept : ∀ row' ∈ (s.operations.recoverExpiredOperationLeases input.clock.third
      (.device deviceID)).expireQueuedProjectExecs input.clock.third (.device deviceID),
      ∃ row ∈ s.operations, Changes input.clock.third row row' :=
    fun _ member => sweeps_of_mem le_rfl member
  simp only [OperationStore.leaseOperationCompatible] at called
  split at called
  · cases called
    exact ⟨.refl _ _, .inl ⟨_, rfl⟩⟩
  split at called
  · split at called
    · cases called
      exact ⟨.refl _ _, .inl ⟨_, rfl⟩⟩
    · cases called
      exact ⟨.swept swept, .inl ⟨_, rfl⟩⟩
  rename_i between chosen
  obtain ⟨member, device, queued⟩ := of_next chosen
  split at called
  · cases called
    exact ⟨.refl _ _, .inl ⟨_, rfl⟩⟩
  rename_i value
  split at called
  · cases called
    exact ⟨.refl _ _, .inl ⟨_, rfl⟩⟩
  rename_i row' found
  cases called
  obtain ⟨present', same⟩ := Table.find_eq_some.mp found
  have written : granted input.clock.third between (randomOpaque "el_" value) (input.clock.third + ttl) ∈
      ((s.operations.recoverExpiredOperationLeases input.clock.third
        (.device deviceID)).expireQueuedProjectExecs input.clock.third (.device deviceID)).set
        (fun other => other.operationID = between.operationID && other.state = .queued)
        (granted input.clock.third · (randomOpaque "el_" value) (input.clock.third + ttl)) (fun _ => rfl) :=
    mem_set.mpr ⟨between, member, by simp [queued]⟩
  cases eq_of_key present' written same
  obtain ⟨row, present, swept'⟩ := swept between member
  refine ⟨.set (by intro _; rfl) swept ?_, .inr ⟨_, row, between, rfl, present, swept', queued, ?_, rfl, written⟩⟩
  · intro other selected
    exact .grant (of_decide_eq_true (Bool.and_eq_true_iff.mp selected).2) _ _
  · subst device
    exact not_queueExpired member queued

theorem reportOperationProgress_cases (input : OperationInput ρ υ) {control : OperationControl}
    (called : s.reportOperationProgress input.clock.third deviceID operationID leaseID progress =
      .ok (control, s')) :
    Evolves input s.operations s'.operations ∧ ∃ row ∈ s.operations, row.operationID = operationID ∧
      HeldBy input.clock.third leaseID row ∧ progressed input.clock.third row progress ∈ s'.operations := by
  simp only [OperationStore.reportOperationProgress, bind_eq_ok, reject_eq_ok, required_eq_ok, pure_eq_ok] at called
  obtain ⟨-, -, row, found, -, -, same⟩ := called
  cases same
  have selected := List.find?_some found
  have present : row ∈ s.operations := List.mem_of_find?_eq_some found
  obtain ⟨named, -, held⟩ := heldUnder_iff.mp selected
  refine ⟨.set (by intro _; rfl) (swept_self _ _) ?_, row, present, named, held, ?_⟩
  · intro other chosen
    exact .progress (heldUnder_iff.mp chosen).2.2 progress
  · exact mem_set_of (by intro _; rfl) present selected

theorem requestOperationCancel_evolves :
    Evolves input s.operations (s.requestOperationCancel contract input.clock operationID).2.operations := by
  have swept : ∀ row' ∈ s.operations.recoverExpiredOperationLeases input.clock.first (.operation operationID),
      ∃ row ∈ s.operations, Changes input.clock.third row row' := swept_recover _
  simp only [OperationStore.requestOperationCancel, OperationStore.readBack]
  split
  · exact .refl _ _
  split
  · exact .swept swept
  split
  · exact .swept swept
  split
  · exact .swept swept
  split
  · exact .swept swept
  refine .set (OperationTable.cancelRequest_id _) swept ?_
  intro row selected
  apply Move.request
  simp only [bool_iff] at selected
  rcases selected.2 with queued | leased
  · rw [queued]
    rfl
  · rw [leased]
    rfl

theorem cancelLeasedOperation_cases :
    Evolves input s.operations
        (s.cancelLeasedOperation contract input.clock.third deviceID operationID leaseID).2.operations ∧
      ((∃ row ∈ s.operations, row.operationID = operationID ∧ HeldBy input.clock.third leaseID row) ∨
        ∃ e, s.cancelLeasedOperation contract input.clock.third deviceID operationID leaseID = (.error e, s)) := by
  simp only [OperationStore.cancelLeasedOperation, OperationStore.readBack]
  split
  · exact ⟨.refl _ _, .inr ⟨_, rfl⟩⟩
  split
  · exact ⟨.refl _ _, .inr ⟨_, rfl⟩⟩
  rename_i one
  have selectable : s.operations.count (heldUnder input.clock.third · deviceID operationID leaseID) ≠ 0 := by
    omega
  obtain ⟨row, present, selected⟩ := exists_of_count selectable
  obtain ⟨named, -, held⟩ := heldUnder_iff.mp selected
  refine ⟨.set (by intro _; rfl) (swept_self _ _) ?_, .inl ⟨row, present, named, held⟩⟩
  intro other chosen
  exact .acknowledge (heldUnder_iff.mp chosen).2.2

theorem completeOperation_cases {result : υ} {safeCode : String} :
    Evolves input s.operations (s.completeOperation contract input.clock.third deviceID operationID leaseID result
        safeCode).2.operations ∧
      ((∃ row ∈ s.operations, row.operationID = operationID ∧ HeldBy input.clock.third leaseID row) ∨
        ∃ e, s.completeOperation contract input.clock.third deviceID operationID leaseID result safeCode =
          (.error e, s)) := by
  simp only [OperationStore.completeOperation, OperationStore.readBack]
  split
  · exact ⟨.refl _ _, .inr ⟨_, rfl⟩⟩
  split
  · exact ⟨.refl _ _, .inr ⟨_, rfl⟩⟩
  split
  · exact ⟨.refl _ _, .inr ⟨_, rfl⟩⟩
  rename_i one
  have selectable :
      s.operations.count (OperationStore.completable input.clock.third deviceID operationID leaseID) ≠ 0 := by
    omega
  obtain ⟨row, present, selected⟩ := exists_of_count selectable
  obtain ⟨named, -, held⟩ := heldUnder_iff.mp (Bool.and_eq_true_iff.mp selected).1
  refine ⟨.set (by intro _; rfl) (swept_self _ _) ?_, .inl ⟨row, present, named, held⟩⟩
  intro other chosen
  obtain ⟨under, free⟩ := Bool.and_eq_true_iff.mp chosen
  exact .complete (heldUnder_iff.mp under).2.2 (by simpa using free) _ _

theorem operationStatus_evolves :
    Evolves input s.operations (s.operationStatus contract input.clock operationID).2.operations := by
  simp only [OperationStore.operationStatus]
  split
  · exact .refl _ _
  · exact .swept (swept_sweep _)

theorem operationByIdempotency_evolves {key : String} :
    Evolves input s.operations
      (s.operationByIdempotency contract crypto input.clock deviceID kind key).2.operations := by
  simp only [OperationStore.operationByIdempotency]
  split
  · exact .refl _ _
  · exact .swept (swept_recover _)

theorem activeOperations_evolves {limit : Int} :
    Evolves input s.operations (s.activeOperations contract input.clock deviceID limit).2.operations := by
  simp only [OperationStore.activeOperations]
  split
  · exact .refl _ _
  · exact .swept (swept_sweep _)

theorem exec_evolves : Evolves input s.operations (s.exec contract crypto input).2.operations := by
  simp only [OperationStore.exec]
  split
  · exact .refl _ _
  · rename_i protocol catalog called
    cases set : s.setExpectedOperationCompatibility protocol catalog with
    | error e => exact .refl _ _
    | ok s' =>
      simp only [OperationStore.setExpectedOperationCompatibility, ok_iff] at set
      obtain ⟨-, -, rfl⟩ := set
      exact .refl _ _
  · rename_i called
    exact createOperation_evolves called
  · exact (leaseOperationCompatible_cases input rfl).1
  · rename_i deviceID operationID leaseID progress called
    cases reported : s.reportOperationProgress input.clock.third deviceID operationID leaseID progress with
    | error e => exact .refl _ _
    | ok made => exact (reportOperationProgress_cases input reported).1
  · exact requestOperationCancel_evolves
  · exact cancelLeasedOperation_cases.1
  · exact completeOperation_cases.1
  · exact operationStatus_evolves
  · exact operationByIdempotency_evolves
  · exact activeOperations_evolves

theorem answered_eq_ok {call : Except String α × OperationStore ρ υ} :
    (answered reply call).1 = .ok given ↔ ∃ a, call.1 = .ok a ∧ reply a = given := by
  obtain ⟨answer, s'⟩ := call
  cases answer with
  | error e => simp [answered]
  | ok a => simp [answered]

theorem stated_eq_ok {result : Except String (α × OperationStore ρ υ)} :
    (stated s reply result).1 = .ok given ↔ ∃ a s', result = .ok (a, s') ∧ reply a = given := by
  cases result with
  | error e => simp [stated]
  | ok pair => simp [stated, Prod.ext_iff]

theorem exec_grant {lease : OperationLease ρ υ}
    (leased : (s.exec contract crypto input).1 = .ok (.lease lease)) :
    ∃ row between, Grant contract input.clock.third s lease (s.exec contract crypto input).2 row between := by
  obtain ⟨clock, call⟩ := input
  cases call with
  | leaseOperationCompatible deviceID ttl observedProtocol observedCatalog draw =>
    cases made : s.leaseOperationCompatible contract clock.third deviceID ttl observedProtocol observedCatalog
      draw with
    | mk answer s' =>
      simp only [OperationStore.exec, made] at leased ⊢
      rcases (leaseOperationCompatible_cases ⟨clock, .leaseOperationCompatible deviceID ttl observedProtocol
        observedCatalog draw⟩ made).2 with ⟨e, rfl⟩ | ⟨given, row, between, rfl, grant⟩
      · cases leased
      · simp only [Except.map, Except.ok.injEq, OperationReply.lease.injEq] at leased
        exact ⟨row, between, leased ▸ grant⟩
  | setExpectedOperationCompatibility protocol catalog =>
    obtain ⟨_, _, _, other⟩ := stated_eq_ok.mp leased
    cases other
  | reportOperationProgress deviceID operationID leaseID progress =>
    obtain ⟨_, _, _, other⟩ := stated_eq_ok.mp leased
    cases other
  | _ =>
    obtain ⟨_, _, other⟩ := answered_eq_ok.mp leased
    cases other

theorem exec_report {reply : OperationReply ρ υ}
    (called : input.call = .reportOperationProgress deviceID operationID leaseID progress)
    (accepted : (s.exec contract crypto input).1 = .ok reply) :
    ∃ row ∈ s.operations, row.operationID = operationID ∧ HeldBy input.clock.third leaseID row ∧
      progressed input.clock.third row progress ∈ (s.exec contract crypto input).2.operations := by
  obtain ⟨clock, call⟩ := input
  cases called
  cases made : s.reportOperationProgress clock.third deviceID operationID leaseID progress with
  | error e =>
    simp only [OperationStore.exec, made] at accepted
    cases accepted
  | ok pair =>
    simp only [OperationStore.exec, made]
    exact (reportOperationProgress_cases ⟨clock, .reportOperationProgress deviceID operationID leaseID progress⟩
      made).2

theorem requestOperationCancel_requested {clock : Readings} {op : Operation ρ υ} (sane : ∀ row ∈ s.operations, Sane row)
    (called : s.requestOperationCancel contract clock operationID = (.ok op, s')) :
    ∀ row ∈ s'.operations, row.operationID = operationID → row.cancelRequested = true := by
  intro row member named
  simp only [OperationStore.requestOperationCancel, OperationStore.readBack] at called
  split at called
  · cases called
  split at called
  · cases called
  rename_i found present
  obtain ⟨stored, same⟩ := Table.find_eq_some.mp present
  split at called
  · rename_i cancelled
    simp only [Prod.mk.injEq] at called
    obtain ⟨-, rfl⟩ := called
    cases eq_of_key member stored (named.trans same.symm)
    obtain ⟨old, before, changes⟩ := recovers_of_mem le_rfl stored
    exact (Changes.keeps Sane.move changes (sane old before)).withdrawn cancelled
  split at called
  · cases called
  rename_i active
  split at called
  · cases called
  simp only [Prod.mk.injEq] at called
  obtain ⟨-, rfl⟩ := called
  dsimp only at member
  rcases of_mem_set member with ⟨spared, unselected⟩ | ⟨old, -, -, rfl⟩
  · cases eq_of_key spared stored (named.trans same.symm)
    simp only [bool_iff, not_and, not_not] at active
    by_cases queued : row.state = .queued
    · simp [same, queued] at unselected
    · simp [same, active queued] at unselected
  · simp only [cancelRequest]
    split <;> rfl

theorem exec_request {reply : OperationReply ρ υ} (sane : ∀ row ∈ s.operations, Sane row)
    (called : input.call = .requestOperationCancel operationID)
    (accepted : (s.exec contract crypto input).1 = .ok reply) :
    ∀ row ∈ (s.exec contract crypto input).2.operations, row.operationID = operationID →
      row.cancelRequested = true := by
  obtain ⟨clock, call⟩ := input
  cases called
  obtain ⟨op, found, -⟩ := answered_eq_ok.mp accepted
  exact requestOperationCancel_requested sane (Prod.ext found rfl)

def OperationCall.under : OperationCall ρ υ → Option (String × String)
  | .reportOperationProgress _ operationID leaseID _ => some (operationID, leaseID)
  | .cancelLeasedOperation _ operationID leaseID => some (operationID, leaseID)
  | .completeOperation _ operationID leaseID _ _ => some (operationID, leaseID)
  | _ => none

def Held (s : OperationStore ρ υ) (operationID leaseID : String) (now : Time) : Prop :=
  ∃ row ∈ s.operations, row.operationID = operationID ∧ HeldBy now leaseID row

theorem exec_unheld (called : input.call.under = some (operationID, leaseID))
    (unheld : ¬ Held s operationID leaseID input.clock.third) :
    (∃ e, (s.exec contract crypto input).1 = .error e) ∧ (s.exec contract crypto input).2 = s := by
  obtain ⟨clock, call⟩ := input
  cases call with
  | reportOperationProgress deviceID operationID' leaseID' progress =>
    cases called
    cases made : s.reportOperationProgress clock.third deviceID operationID leaseID progress with
    | error e =>
      simp only [OperationStore.exec, made]
      exact ⟨⟨_, rfl⟩, rfl⟩
    | ok pair =>
      obtain ⟨row, present, named, held, -⟩ := (reportOperationProgress_cases
        ⟨clock, .reportOperationProgress deviceID operationID leaseID progress⟩ made).2
      exact absurd ⟨row, present, named, held⟩ unheld
  | cancelLeasedOperation deviceID operationID' leaseID' =>
    cases called
    rcases (@cancelLeasedOperation_cases _ _ contract s
      ⟨clock, .cancelLeasedOperation deviceID operationID leaseID⟩ deviceID operationID leaseID).2 with
      held | ⟨e, made⟩
    · exact absurd held unheld
    · simp only [OperationStore.exec]
      rw [made]
      exact ⟨⟨_, rfl⟩, rfl⟩
  | completeOperation deviceID operationID' leaseID' result safeCode =>
    cases called
    rcases (@completeOperation_cases _ _ contract s
      ⟨clock, .completeOperation deviceID operationID leaseID result safeCode⟩ deviceID operationID leaseID
      result safeCode).2 with held | ⟨e, made⟩
    · exact absurd held unheld
    · simp only [OperationStore.exec]
      rw [made]
      exact ⟨⟨_, rfl⟩, rfl⟩
  | _ => cases called

end

section

variable {contract : Contract ρ υ} {crypto : Crypto}

abbrev OperationEntry (ρ υ : Type) := Entry (OperationStore ρ υ) (OperationInput ρ υ) (OperationAnswer ρ υ)

def drawnIn (inputs : List (OperationInput ρ υ)) : List String := inputs.filterMap drawn

variable {id : String} {input : OperationInput ρ υ} {inputs : List (OperationInput ρ υ)}
  {s s' : OperationStore ρ υ} {e : OperationEntry ρ υ} {between row : OperationRow ρ υ}
  {lease : OperationLease ρ υ} {now : Time} {n : Nat}

theorem drawnIn_cons : id ∈ drawnIn (input :: inputs) ↔ input.drawn = some id ∨ id ∈ drawnIn inputs := by
  simp [drawnIn, List.mem_filterMap]

theorem drawnIn_nodup (distinct : (drawnIn (input :: inputs)).Nodup) :
    (drawnIn inputs).Nodup ∧ ∀ id, input.drawn = some id → id ∉ drawnIn inputs := by
  unfold drawnIn at distinct ⊢
  cases drawn : input.drawn with
  | none =>
    rw [List.filterMap_cons_none drawn] at distinct
    exact ⟨distinct, nofun⟩
  | some id =>
    rw [List.filterMap_cons_some drawn, List.nodup_cons] at distinct
    refine ⟨distinct.2, ?_⟩
    rintro _ ⟨⟩
    exact distinct.1

structure Ready (s : OperationStore ρ υ) (inputs : List (OperationInput ρ υ)) : Prop where
  sane : ∀ row ∈ s.operations, Sane row
  fresh : ∀ row ∈ s.operations, row.operationID ∉ drawnIn inputs
  distinct : (drawnIn inputs).Nodup

theorem Ready.step (ready : Ready s (input :: inputs)) : Ready (s.exec contract crypto input).2 inputs := by
  obtain ⟨distinct, unseen⟩ := drawnIn_nodup ready.distinct
  refine ⟨?_, ?_, distinct⟩
  · intro row' member
    rcases exec_evolves row' member with ⟨row, present, changes⟩ | inserted
    · exact changes.keeps Sane.move (ready.sane row present)
    · exact inserted.sane
  intro row' member
  rcases exec_evolves row' member with ⟨row, present, changes⟩ | inserted
  · rw [changes.sameOperation.operationID]
    exact fun again => ready.fresh row present (drawnIn_cons.mpr (.inr again))
  · exact unseen _ inserted.drawn

def grants (id : String) (e : OperationEntry ρ υ) : Bool :=
  match e.answer with
  | .ok (.lease lease) => lease.operation.id = id
  | _ => false

theorem grants_iff : grants id e = true ↔ ∃ lease, e.answer = .ok (.lease lease) ∧ lease.operation.id = id := by
  unfold grants
  split
  · rename_i lease answer
    rw [answer]
    simp
  · rename_i other
    simp only [Bool.false_eq_true, false_iff, not_exists, not_and]
    exact fun lease answer => absurd answer (other lease)

structure Room (id : String) (s : OperationStore ρ υ) (inputs : List (OperationInput ρ υ)) (n : Nat) : Prop where
  ready : Ready s inputs
  used : ∀ row ∈ s.operations, row.operationID = id → maxOperationLeaseAttempts ≤ row.leaseAttempts + n
  unused : id ∈ drawnIn inputs → maxOperationLeaseAttempts ≤ n

theorem Grant.id_eq (grant : Grant contract now s lease s' row between) :
    between.operationID = lease.operation.id := by
  rw [grant.told]
  rfl

theorem Room.skips (room : Room id s (input :: inputs) n) :
    Room id (s.exec contract crypto input).2 inputs n := by
  refine ⟨room.ready.step, ?_, fun again => room.unused (drawnIn_cons.mpr (.inr again))⟩
  intro row' member named
  rcases exec_evolves row' member with ⟨row, present, changes⟩ | inserted
  · have same := changes.sameOperation
    have before := room.used row present (same.operationID.symm.trans named)
    have more := same.leaseAttempts
    omega
  · have all := room.unused (drawnIn_cons.mpr (.inl (named ▸ inserted.drawn)))
    omega

theorem Room.spends (room : Room id s (input :: inputs) n)
    (now : grants id (entry (OperationStore.exec contract crypto) s input) = true) :
    ∃ m, n = m + 1 ∧ Room id (s.exec contract crypto input).2 inputs m := by
  obtain ⟨lease, answer, named⟩ := grants_iff.mp now
  obtain ⟨row, between, grant⟩ := exec_grant answer
  have same := grant.swept.sameOperation
  have isRow : row.operationID = id := same.operationID.symm.trans (grant.id_eq.trans named)
  have before := room.used row grant.present isRow
  have more := same.leaseAttempts
  have sane : Sane between := grant.swept.keeps Sane.move (room.ready.sane row grant.present)
  have few := (sane.waiting grant.queued).1
  refine ⟨n - 1, by omega, room.ready.step, ?_, ?_⟩
  · intro row' member named'
    have written : row' = granted input.clock.third between lease.leaseID lease.expiresAt :=
      eq_of_key member grant.written (named'.trans (grant.id_eq.trans named).symm)
    have attempts : row'.leaseAttempts = between.leaseAttempts + 1 := by
      rw [written]
      rfl
    omega
  · intro again
    exact absurd (drawnIn_cons.mpr (.inr again)) (isRow ▸ room.ready.fresh row grant.present)

theorem attempts_le (room : Room id s inputs n) :
    ((transcript (OperationStore.exec contract crypto) s inputs).filter (grants id)).length ≤ n :=
  happens_at_most (fun _ _ _ _ room _ => room.skips) (fun _ _ _ _ room now => room.spends now) room

variable (contract crypto) in
def after (e : OperationEntry ρ υ) : OperationStore ρ υ := (e.state.exec contract crypto e.input).2

/-- The entry reported progress on an operation that is not replayed. -/
structure Started (id : String) (e : OperationEntry ρ υ) : Prop where
  called : ∃ deviceID leaseID progress, e.input.call = .reportOperationProgress deviceID id leaseID progress
  accepted : ∃ reply, e.answer = .ok reply
  kind : ∀ row ∈ e.state.operations, row.operationID = id → row.kind.isRecovery = false

/-- What a row says about the later rows of the same operation. -/
structure Follows (row row' : OperationRow ρ υ) : Prop where
  requested : row.cancelRequested = true → row'.cancelRequested = true
  final : row.state.final = true → row' = row
  spent : Spent row → Spent row'

theorem Follows.refl (row : OperationRow ρ υ) : Follows row row := ⟨id, fun _ => rfl, id⟩

theorem Follows.changes {last : Time} {a b : OperationRow ρ υ} (follows : Follows row a)
    (changes : Changes last a b) : Follows row b := by
  refine ⟨fun requested => changes.sameOperation.cancelRequested (follows.requested requested), ?_,
    fun spent => changes.keeps Spent.move (follows.spent spent)⟩
  intro final
  have same := follows.final final
  subst same
  exact changes.of_final final

structure Trail (contract : Contract ρ υ) (crypto : Crypto) (e : OperationEntry ρ υ) (s : OperationStore ρ υ)
    (inputs : List (OperationInput ρ υ)) : Prop where
  ready : Ready s inputs
  fresh : ∀ row ∈ (after contract crypto e).operations, row.operationID ∉ drawnIn inputs
  follows : ∀ row ∈ (after contract crypto e).operations, ∀ row' ∈ s.operations,
    row'.operationID = row.operationID → Follows row row'
  started : ∀ id, Started id e → ∃ row ∈ (after contract crypto e).operations, row.operationID = id ∧ Spent row

theorem started_spent (started : Started id (entry (OperationStore.exec contract crypto) s input)) :
    ∃ row ∈ (s.exec contract crypto input).2.operations, row.operationID = id ∧ Spent row := by
  obtain ⟨deviceID, leaseID, progress, called⟩ := started.called
  obtain ⟨reply, accepted⟩ := started.accepted
  obtain ⟨row, present, named, held, written⟩ := exec_report called accepted
  refine ⟨_, written, named, .inr ⟨held.leased, ?_⟩⟩
  have kind : row.kind.isRecovery = false := started.kind row present named
  simp [interrupted, progressed, kind]

theorem Trail.start (ready : Ready s (input :: inputs)) :
    Trail contract crypto (entry (OperationStore.exec contract crypto) s input) (s.exec contract crypto input).2
      inputs where
  ready := ready.step
  fresh := ready.step.fresh
  follows := by
    intro row present row' present' same
    cases eq_of_key present' present same
    exact .refl row
  started := fun _ started => started_spent started

theorem Trail.step (trail : Trail contract crypto e s (input :: inputs)) :
    Trail contract crypto e (s.exec contract crypto input).2 inputs where
  ready := trail.ready.step
  fresh := fun row present again => trail.fresh row present (drawnIn_cons.mpr (.inr again))
  follows := by
    intro row present row'' present'' same
    rcases exec_evolves row'' present'' with ⟨row', present', changes⟩ | inserted
    · exact (trail.follows row present row' present' (changes.sameOperation.operationID.symm.trans same)).changes
        changes
    · exact absurd (drawnIn_cons.mpr (.inl (same ▸ inserted.drawn))) (trail.fresh row present)
  started := trail.started

structure Sequel (contract : Contract ρ υ) (crypto : Crypto) (e later : OperationEntry ρ υ) : Prop where
  started : ∀ id, Started id e → grants id later = false
  requested : ∀ row ∈ (after contract crypto e).operations, row.cancelRequested = true →
    ∀ row' ∈ (after contract crypto later).operations, row'.operationID = row.operationID →
      row'.state ≠ .succeeded ∧ row'.state ≠ .failed
  final : ∀ row ∈ (after contract crypto e).operations, row.state.final = true →
    ∀ row' ∈ (after contract crypto later).operations, row'.operationID = row.operationID → row' = row

theorem Sane.not_ended (sane : Sane row) (requested : row.cancelRequested = true) :
    row.state ≠ .succeeded ∧ row.state ≠ .failed := by
  refine ⟨fun ended => ?_, fun ended => ?_⟩
  · rw [sane.ended (.inl ended)] at requested
    cases requested
  · rw [sane.ended (.inr ended)] at requested
    cases requested

theorem Trail.sequel (trail : Trail contract crypto e s (input :: inputs)) :
    Sequel contract crypto e (entry (OperationStore.exec contract crypto) s input) where
  started := by
    intro id started
    cases now : grants id (entry (OperationStore.exec contract crypto) s input) with
    | false => rfl
    | true =>
      -- a granted operation was queued, and a spent one never is
      obtain ⟨lease, answer, named⟩ := grants_iff.mp now
      obtain ⟨row, between, grant⟩ := exec_grant answer
      obtain ⟨marked, present, isMarked, spent⟩ := trail.started id started
      have isRow : row.operationID = marked.operationID :=
        grant.swept.sameOperation.operationID.symm.trans ((grant.id_eq.trans named).trans isMarked.symm)
      have stillSpent := (trail.follows marked present row grant.present isRow).spent spent
      exact absurd grant.queued (grant.swept.keeps Spent.move stillSpent).not_queued
  requested := by
    intro row present requested row' present' same
    have follows := trail.step.follows row present row' present' same
    exact (trail.ready.step.sane row' present').not_ended (follows.requested requested)
  final := by
    intro row present final row' present' same
    exact (trail.step.follows row present row' present' same).final final

structure Disciplined (contract : Contract ρ υ) (crypto : Crypto) (entries : List (OperationEntry ρ υ)) : Prop where
  /-- An operation is leased a bounded number of times. -/
  attempts : ∀ id, (entries.filter (grants id)).length ≤ maxOperationLeaseAttempts
  /-- A lease is granted when no other one runs, and runs for as long as it says. -/
  exclusive : ∀ e ∈ entries, ∀ lease, e.answer = .ok (.lease lease) →
    (∀ leaseID, ¬ Held e.state lease.operation.id leaseID e.input.clock.third) ∧
      ∀ leaseID now, Held (after contract crypto e) lease.operation.id leaseID now ↔
        leaseID = lease.leaseID ∧ now < lease.expiresAt
  /-- While a lease runs it ends with its operation only, and only a heartbeat moves its expiry. -/
  kept : ∀ e ∈ entries, ∀ row ∈ e.state.operations, ∀ leaseID, HeldBy e.input.clock.third leaseID row →
    ∀ row' ∈ (after contract crypto e).operations, row'.operationID = row.operationID →
      row'.state.final = true ∨ row'.state = .leased ∧ row'.leaseID = some leaseID ∧
        (row'.leaseUntil = row.leaseUntil ∨ row'.leaseUntil = some (e.input.clock.third + operationHeartbeatTTL))
  /-- Only the current, unexpired lease reports progress, completes or acknowledges. -/
  current : ∀ e ∈ entries, ∀ id leaseID, e.input.call.under = some (id, leaseID) →
    ¬ Held e.state id leaseID e.input.clock.third →
      (∃ failure, e.answer = .error failure) ∧ after contract crypto e = e.state
  /-- An accepted cancellation request is recorded, and rules out the other endings. -/
  requested : ∀ e ∈ entries,
    (∀ id reply, e.input.call = .requestOperationCancel id → e.answer = .ok reply →
      ∀ row ∈ (after contract crypto e).operations, row.operationID = id → row.cancelRequested = true) ∧
    ∀ row ∈ (after contract crypto e).operations, row.cancelRequested = true →
      row.state ≠ .succeeded ∧ row.state ≠ .failed
  /-- A foreground command is not leased when its client has stopped waiting. -/
  foreground : ∀ e ∈ entries, ∀ lease, e.answer = .ok (.lease lease) → lease.operation.kind = .projectExec →
    e.input.clock.third < lease.operation.createdAt + projectExecQueueTTL
  sequel : entries.Pairwise (Sequel contract crypto)

variable (grant : Grant contract now s lease s' row between)

include grant

theorem Grant.unheld (leaseID : String) : ¬ Held s lease.operation.id leaseID now := by
  rintro ⟨other, present, named, held⟩
  have isRow : other.operationID = row.operationID :=
    named.trans (grant.id_eq.symm.trans grant.swept.sameOperation.operationID)
  cases eq_of_key present grant.present isRow
  rcases grant.swept.of_held held with final | ⟨leased, -⟩
  · simp [grant.queued, OperationState.final] at final
  · exact absurd (grant.queued.symm.trans leased) (by decide)

theorem Grant.held_iff (leaseID : String) (time : Time) :
    Held s' lease.operation.id leaseID time ↔ leaseID = lease.leaseID ∧ time < lease.expiresAt := by
  constructor
  · rintro ⟨other, present, named, held⟩
    cases eq_of_key present grant.written (named.trans grant.id_eq.symm)
    obtain ⟨expiry, same, runs⟩ := held.runs
    cases same
    exact ⟨(Option.some.inj held.named).symm, runs⟩
  · rintro ⟨rfl, runs⟩
    exact ⟨_, grant.written, grant.id_eq, rfl, rfl, _, rfl, runs⟩

theorem Grant.recent
    (kind : lease.operation.kind = .projectExec) : now < lease.operation.createdAt + projectExecQueueTTL := by
  have told := grant.told
  have kind' : between.kind = .projectExec := by
    rw [told] at kind
    exact kind
  have created : lease.operation.createdAt = between.createdAt := by
    rw [told]
    rfl
  by_contra late
  have old : queueExpired now between = true := by
    refine queueExpired_iff.mpr ⟨kind', grant.queued, ?_⟩
    rw [← created]
    simp only [Time, Duration] at late ⊢
    omega
  rw [grant.fresh] at old
  cases old

omit grant

end

def plainContract : Contract Unit Unit := ⟨fun _ => some, fun _ => [], fun _ => "", fun _ _ => true, (), fun _ => 0,
  fun _ => true, fun _ _ _ => true⟩

def readingsAt (now : Time) : Readings := ⟨now, now, now, le_rfl, le_rfl⟩

def sampleOperationID : String := "eo_00000000000000000000000000000000"

def sampleLeaseID : String := "el_00000000000000000000000000000000"

def leaseCalls : List (OperationInput Unit Unit) :=
  [⟨readingsAt 0, .identity (.createPairing minute (some (List.replicate 24 0)))⟩,
    ⟨readingsAt 0, .identity (.pair "ep_000000000000000000000000000000000000000000000000" "laptop"
      (List.replicate 32 0) (some (List.replicate 16 0)))⟩,
    ⟨readingsAt second, .createOperation pairedID .projectExec () (fun _ => some ⟨1, 0, 8192⟩)
      (some (List.replicate 16 0))⟩,
    ⟨readingsAt (2 * second), .leaseOperationCompatible pairedID minute "" "" (some (List.replicate 16 0))⟩,
    ⟨readingsAt (3 * second), .reportOperationProgress pairedID sampleOperationID sampleLeaseID
      ⟨1, "running", 0, 0⟩⟩,
    ⟨readingsAt (4 * second), .completeOperation pairedID sampleOperationID sampleLeaseID () ""⟩]

end Aeontra.Edge
