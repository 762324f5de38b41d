import Aeontra.Library.Update
import Aeontra.Workqueue.Paths

/-!
Development requests over whole runs: every stored request can be read back, and which of
them can still be brought to an end.
-/

namespace Aeontra.Workqueue

open Library JsonText List

theorem identityPattern_keyed : ∀ b ∈ [⟨isAlnum, 1, 1⟩, ⟨keyTail, 0, 127⟩], ∀ c, Block.accepts b c = true →
    keyTail c = true := by
  intro b member c accepted
  simp only [mem_cons, not_mem_nil, or_false] at member
  rcases member with rfl | rfl
  · change isAlnum c = true at accepted
    simp [keyTail, accepted]
  · exact accepted

variable {text conflict oldDigest : String} {r : DevelopmentRequest} {oldRevision : Nat}

theorem byteLength_quote_identity (matched : identityPattern.matchString text = true) :
    byteLength (quote text) ≤ 130 := by
  rw [identityPattern, Pattern.matchString_singleton] at matched
  exact byteLength_quote_blocks identityPattern_keyed matched

theorem isAlnum_of_isLowerAlnum {c : Char} (lower : isLowerAlnum c = true) : isAlnum c = true := by
  simp only [isLowerAlnum, isAlnum, bool_iff] at lower ⊢
  tauto

theorem byteLength_quote_alias {inner : Nat}
    (matched : (aliasPattern inner).matchString text = true) : byteLength (quote text) ≤ inner + 4 := by
  have keyed : ∀ b ∈ [⟨isLowerAlnum, 1, 1⟩, ⟨aliasTail, 0, inner⟩, ⟨isLowerAlnum, 1, 1⟩],
      ∀ c, Block.accepts b c = true → keyTail c = true := by
    intro b member c accepted
    simp only [mem_cons, not_mem_nil, or_false] at member
    have lower : isLowerAlnum c = true ∨ (c == '-') = true := by
      rcases member with rfl | rfl | rfl
      · exact .inl accepted
      · exact Bool.or_eq_true_iff.mp accepted
      · exact .inl accepted
    rcases lower with lower | hyphen
    · simp [keyTail, isAlnum_of_isLowerAlnum lower]
    · simp [keyTail, hyphen]
  simp only [Pattern.matchString, aliasPattern, any_cons, any_nil, Bool.or_false, bool_iff,
    chars_eq_toList] at matched
  rcases matched with long | short
  · have bound := byteLength_quote_blocks keyed long
    simp only [map_cons, map_nil, sum_cons, sum_nil] at bound
    omega
  have bound := byteLength_quote_blocks
    (fun b member => keyed b (by rw [List.mem_singleton.mp member]; exact mem_cons_self)) short
  simp only [map_cons, map_nil, sum_cons, sum_nil] at bound
  omega

structure RequestSound (r : DevelopmentRequest) : Prop where
  name : developmentRequestIDPattern.matchString r.id = true
  positive : r.revision ≠ 0
  bounded : r.revision ≤ maxDevelopmentRequestRevision
  key : developmentRequestDigest.matchString r.keyDigest = true
  project : taskProjectPattern.matchString r.projectAlias = true
  target : taskTargetPattern.matchString r.target = true
  device : developmentRequestDevice.matchString r.deviceID = true
  body : developmentRequestGoal.matchString r.bodyRef = true
  digest : developmentRequestDigest.matchString r.bodyDigest = true
  inspection : r.inspectionOperationID = "" ∨ developmentRequestOp.matchString r.inspectionOperationID = true
  objective : r.objectiveID = "" ∨ validDevelopmentRequestObjectiveID r.objectiveID = true
  operation : r.activeOperationID = "" ∨ developmentRequestOp.matchString r.activeOperationID = true
  process : r.processID = "" ∨ developmentRequestProcess.matchString r.processID = true
  reconciled : ¬ (r.state = .cancelling ∧ r.reason = .reconciliationRequired ∧ r.processID = "")
  reason : validDevelopmentRequestReasonForState r.state r.reason = true

theorem request_valid_iff : r.valid = true ↔ RequestSound r := by
  have untangle : ((¬ r.state = .cancelling ∨ ¬ r.reason = .reconciliationRequired) ∨ ¬ r.processID = "") ↔
      ¬ (r.state = .cancelling ∧ r.reason = .reconciliationRequired ∧ r.processID = "") := by
    rw [not_and_or, not_and_or, or_assoc]
  simp only [DevelopmentRequest.valid, bool_iff, Bool.and_eq_false_iff, untangle]
  constructor
  · rintro ⟨⟨⟨⟨⟨⟨⟨⟨⟨⟨⟨⟨⟨⟨name, positive⟩, bounded⟩, key⟩, project⟩, target⟩, device⟩, body⟩, digest⟩, inspection⟩,
      objective⟩, operation⟩, process⟩, reconciled⟩, reason⟩
    exact ⟨name, positive, bounded, key, project, target, device, body, digest, inspection, objective,
      operation, process, reconciled, reason⟩
  · intro sound
    exact ⟨⟨⟨⟨⟨⟨⟨⟨⟨⟨⟨⟨⟨⟨sound.name, sound.positive⟩, sound.bounded⟩, sound.key⟩, sound.project⟩, sound.target⟩,
      sound.device⟩, sound.body⟩, sound.digest⟩, sound.inspection⟩, sound.objective⟩, sound.operation⟩,
      sound.process⟩, sound.reconciled⟩, sound.reason⟩

theorem byteLength_quote_requestID {lead : String} (known : lead ∈ ["dr_", "ed_", "mb_", "eo_", "pr_"])
    (matched : (hexPattern lead 32 32).matchString text = true) : byteLength (quote text) ≤ 37 := by
  have plain : ∀ lead ∈ ["dr_", "ed_", "mb_", "eo_", "pr_"],
      lead.toList.all isPlain = true ∧ lead.toList.length = 3 := by decide
  obtain ⟨allPlain, three⟩ := plain lead known
  have short := byteLength_quote_hex (all_eq_true.mp allPlain) matched
  omega

theorem byteLength_request_le (sound : RequestSound r) :
    byteLength (Encode.request r) ≤ maxDevelopmentRequestRecordBytes := by
  have states : byteLength (quote r.state.text) ≤ 20 := by
    cases r.state <;> decide
  have reasons : r.reason.text = "" ∨ byteLength (quote r.reason.text) ≤ 29 := by
    right
    cases r.reason <;> decide
  have small : r.revision < 10 ^ 7 := by
    have bounded := sound.bounded
    unfold maxDevelopmentRequestRevision at bounded
    omega
  have objectives : r.objectiveID = "" ∨ byteLength (quote r.objectiveID) ≤ 130 := by
    refine sound.objective.imp_right fun valid => ?_
    simp only [validDevelopmentRequestObjectiveID, validObjectiveID, bool_iff] at valid
    have matched := valid.2
    rw [← valid.1] at matched
    exact byteLength_quote_identity matched
  have front := sum_byteLength_le
    (.cons (byteLength_field_le "request_id" (byteLength_quote_requestID (by decide) sound.name))
    (.cons (byteLength_field_le "revision" (byteLength_nat_le (k := 7) (by decide) small))
    (.cons (byteLength_field_le "key_digest" (byteLength_quote_hash sound.key))
    (.cons (byteLength_field_le "alias" (byteLength_quote_alias sound.project))
    (.cons (byteLength_field_le "target" (byteLength_quote_alias sound.target))
    (.cons (byteLength_field_le "device_id" (byteLength_quote_requestID (by decide) sound.device))
    (.cons (byteLength_field_le "body_ref" (byteLength_quote_requestID (by decide) sound.body))
    (.cons (byteLength_field_le "body_digest" (byteLength_quote_hash sound.digest)) .nil))))))))
  have inspection := sum_unlessEmpty_le "inspection_operation_id"
    (sound.inspection.imp_right (byteLength_quote_requestID (by decide)))
  have objective := sum_unlessEmpty_le "objective_id" objectives
  have operation := sum_unlessEmpty_le "active_operation_id"
    (sound.operation.imp_right (byteLength_quote_requestID (by decide)))
  have process := sum_unlessEmpty_le "process_id"
    (sound.process.imp_right (byteLength_quote_requestID (by decide)))
  have state := sum_byteLength_le (.cons (byteLength_field_le "state" states) .nil)
  have reason := sum_unlessEmpty_le "reason" reasons
  unfold Encode.request
  refine le_trans (byteLength_object_le _) ?_
  simp only [map_append, sum_append]
  exact le_trans (Nat.add_le_add_right (Nat.add_le_add (Nat.add_le_add (Nat.add_le_add (Nat.add_le_add
    (Nat.add_le_add (Nat.add_le_add front inspection) objective) operation) process) state) reason) 2)
    (by decide)

def requestDigest (r : DevelopmentRequest) : String :=
  payloadDigest ("aeontra-development-request-v1\x00" ++ Encode.request r)

theorem marshalDevelopmentRequest_eq_ok {result : String × String} :
    marshalDevelopmentRequest r = .ok result ↔
      RequestSound r ∧ result = (Encode.request r, requestDigest r) := by
  simp only [marshalDevelopmentRequest, ok_iff, bool_iff, not_lt, gt_iff_lt]
  constructor
  · rintro ⟨-, valid, -, -, rfl⟩
    exact ⟨request_valid_iff.mp valid, rfl⟩
  · rintro ⟨sound, rfl⟩
    exact ⟨(), request_valid_iff.mpr sound, (), byteLength_request_le sound, rfl⟩

structure StoredRequest (row : DevelopmentRequestRow) : Prop where
  sound : RequestSound row.record
  name : row.record.id = row.requestID
  revision : row.record.revision = row.revision
  state : row.record.state = row.state
  key : row.record.keyDigest = row.keyDigest
  digest : row.recordDigest = requestDigest row.record

theorem scanDevelopmentRequest_eq_ok {row : DevelopmentRequestRow} :
    scanDevelopmentRequest row = .ok r ↔ StoredRequest row ∧ row.record = r := by
  simp only [scanDevelopmentRequest, ok_iff, bool_iff, not_not, marshalDevelopmentRequest_eq_ok]
  constructor
  · rintro ⟨-, ⟨⟨⟨⟨⟨-, valid⟩, name⟩, revision⟩, state⟩, key⟩, ⟨_, digest⟩, ⟨-, same⟩, -, stored, rfl⟩
    obtain ⟨-, rfl⟩ := Prod.mk.inj same
    exact ⟨⟨request_valid_iff.mp valid, name, revision, state, key, stored.symm⟩, rfl⟩
  rintro ⟨stored, rfl⟩
  have positive := stored.sound.positive
  have bounded := stored.sound.bounded
  rw [stored.revision] at positive bounded
  refine ⟨(), ⟨⟨⟨⟨⟨⟨by omega, by omega⟩, request_valid_iff.mpr stored.sound⟩, stored.name⟩,
    stored.revision⟩, stored.state⟩, stored.key⟩, (_, _), ⟨stored.sound, rfl⟩, (), stored.digest.symm, rfl⟩

variable {db db' : DB} {now updatedAt : UnixNano} {row : DevelopmentRequestRow} {request : DevelopmentRequest}

theorem readDevelopmentRequest_eq_some {found : Option DevelopmentRequestRow}
    (read : readDevelopmentRequest found = .ok (some r)) : ∃ row, found = some row ∧ StoredRequest row ∧
      row.record = r := by
  cases found with
  | none => cases read
  | some row =>
    change (scanDevelopmentRequest row).map some = _ at read
    cases scanned : scanDevelopmentRequest row with
    | error e =>
      rw [scanned] at read
      cases read
    | ok record =>
      rw [scanned] at read
      cases read
      exact ⟨row, rfl, scanDevelopmentRequest_eq_ok.mp scanned⟩

theorem readDevelopmentRequest_stored (stored : StoredRequest row) :
    readDevelopmentRequest (some row) = .ok (some row.record) := by
  have scanned := scanDevelopmentRequest_eq_ok.mpr ⟨stored, rfl⟩
  simp [readDevelopmentRequest, scanned, Except.map]

def DevelopmentRequestRow.write (row : DevelopmentRequestRow) (request : DevelopmentRequest)
    (updatedAt : UnixNano) : DevelopmentRequestRow :=
  { row with
    revision := request.revision, state := request.state, recordDigest := requestDigest request
    record := request, updatedAt := updatedAt }

theorem StoredRequest.write (sound : RequestSound request) (named : request.id = row.requestID)
    (keyed : request.keyDigest = row.keyDigest) (updatedAt : UnixNano) :
    StoredRequest (row.write request updatedAt) :=
  ⟨sound, named, rfl, rfl, keyed, rfl⟩

theorem updateRequest_rows
    (run : db.updateRequest request oldRevision oldDigest (requestDigest request) updatedAt conflict = .ok db') :
    ∃ row, row.requestID = request.id ∧ row.revision = oldRevision ∧
      Table.Replaces db.developmentRequests db'.developmentRequests row (row.write request updatedAt) := by
  simp only [DB.updateRequest, ok_iff, bool_iff, not_not, ne_eq] at run
  obtain ⟨-, once, rfl⟩ := run
  obtain ⟨row, member, picked⟩ := Table.exists_of_count (once ▸ Nat.one_ne_zero)
  have matches' := picked
  simp only [bool_iff] at matches'
  refine ⟨row, matches'.1.1, matches'.1.2, ?_⟩
  refine Table.update_replaces (f := fun row : DevelopmentRequestRow => { row with
    revision := request.revision, state := request.state, recordDigest := requestDigest request
    record := request, updatedAt := updatedAt }) (fun _ => rfl) (fun _ => rfl) member picked ?_
  intro other _ chosen
  simp only [bool_iff] at chosen
  exact chosen.1.1.trans matches'.1.1.symm

theorem updateRequest_replaces (updatedAt : UnixNano) (conflict : String) (member : row ∈ db.developmentRequests)
    (named : row.requestID = request.id) :
    ∃ db', db.updateRequest request row.revision row.recordDigest (requestDigest request) updatedAt conflict =
        .ok db' ∧
      Table.Replaces db.developmentRequests db'.developmentRequests row (row.write request updatedAt) := by
  have only : ∀ other ∈ db.developmentRequests, (decide (other.requestID = request.id) &&
      decide (other.revision = row.revision) && decide (other.recordDigest = row.recordDigest)) = true →
      other.requestID = row.requestID := by
    intro other _ picked
    simp only [bool_iff] at picked
    exact picked.1.1.trans named.symm
  have picked : (decide (row.requestID = request.id) && decide (row.revision = row.revision) &&
      decide (row.recordDigest = row.recordDigest)) = true := by
    simp [named]
  refine ⟨_, bind_eq_ok.mpr ⟨(), ?_, pure_eq_ok.mpr rfl⟩, ?_⟩
  · rw [reject_eq_ok, decide_eq_false_iff_not, not_not]
    exact Table.count_eq_one member picked only
  · exact Table.update_replaces (f := fun row : DevelopmentRequestRow => { row with
      revision := request.revision, state := request.state, recordDigest := requestDigest request
      record := request, updatedAt := updatedAt }) (fun _ => rfl) (fun _ => rfl) member picked only

def StoredRequests (db : DB) : Prop := ∀ row ∈ db.developmentRequests, StoredRequest row

theorem sameBinding_key {left right : DevelopmentRequest}
    (same : sameDevelopmentRequestBinding left right = true) : left.keyDigest = right.keyDigest := by
  simp only [sameDevelopmentRequestBinding, bool_iff] at same
  exact same.1.1.1.1.1

variable (stored : StoredRequests db)

include stored

theorem StoredRequests.prune (now : UnixNano) : StoredRequests (pruneExpiredDevelopmentRequests db now) :=
  fun row member => stored row (Table.mem_delete.mp member).1

theorem StoredRequests.update {old : DevelopmentRequestRow} (member : old ∈ db.developmentRequests)
    (sound : RequestSound request)
    (named : request.id = old.requestID) (keyed : request.keyDigest = old.keyDigest)
    (run : db.updateRequest request oldRevision oldDigest (requestDigest request) updatedAt conflict = .ok db') :
    StoredRequests db' := by
  obtain ⟨row, same, -, replaced⟩ := updateRequest_rows run
  obtain rfl : row = old := Table.eq_of_key replaced.old_mem member (same.trans named)
  intro other inside
  rcases replaced.mem_or_eq inside with kept | rfl
  · exact stored other kept
  · exact .write sound named keyed updatedAt

theorem saveDevelopmentRequestTx_stored {answer : Except String (DevelopmentRequest × Bool)}
    (run : saveDevelopmentRequestTx request now db = .ok (answer, db')) :
    StoredRequests db' := by
  simp only [saveDevelopmentRequestTx, ok_iff, marshalDevelopmentRequest_eq_ok] at run
  obtain ⟨_, ⟨sound, rfl⟩, existing, read, run⟩ := run
  cases existing with
  | none =>
    simp only [ok_iff] at run
    obtain ⟨byKey, -, run⟩ := run
    cases byKey with
    | some original =>
      simp only [ok_iff] at run
      obtain ⟨-, -, -, rfl⟩ := run
      exact stored
    | none =>
      simp only [ok_iff] at run
      obtain ⟨-, -, -, -, requests, inserted, -, rfl⟩ := run
      intro row member
      rcases (Table.mem_insert inserted).mp member with old | rfl
      · exact stored.prune now row old
      · exact ⟨sound, rfl, rfl, rfl, rfl, rfl⟩
  | some old =>
    simp only [ok_iff] at run
    obtain ⟨-, same, ⟨_, oldDigest⟩, -, run⟩ := run
    split at run
    · simp only [ok_iff] at run
      obtain ⟨-, rfl⟩ := run
      exact stored
    simp only [ok_iff] at run
    obtain ⟨-, -, _, -, updatedAt, -, last, updated, -, rfl⟩ := run
    obtain ⟨row, found, readable, rfl⟩ := readDevelopmentRequest_eq_some read
    obtain ⟨member, named⟩ := Table.find_eq_some.mp found
    exact (stored.prune now).update member sound named.symm ((sameBinding_key same).trans readable.key)
      updated

theorem touchDevelopmentRequestTx_stored {requestID : String} {expectedRevision : Nat}
    {answer : Except String DevelopmentRequest}
    (run : touchDevelopmentRequestTx requestID expectedRevision now db = .ok (answer, db')) :
    StoredRequests db' := by
  simp only [touchDevelopmentRequestTx, ok_iff, scanDevelopmentRequest_eq_ok,
    marshalDevelopmentRequest_eq_ok] at run
  obtain ⟨-, -, row, found, _, ⟨readable, rfl⟩, -, -, _, -, _, ⟨sound, rfl⟩, updatedAt, -, last, updated, -,
    rfl⟩ := run
  obtain ⟨member, -⟩ := Table.find_eq_some.mp found
  exact stored.update member sound readable.name readable.key updated

omit stored

section

variable {O : Type} [ObjectiveRecords O]

variable {s : Store}

theorem exec_storedRequests {call : Call O} (stored : StoredRequests s.db) :
    StoredRequests (s.exec call).2.db := by
  by_cases writes : call.writesRequests = true
  · cases call with
    | saveDevelopmentRequest request now =>
      simp only [Store.exec, reply, Store.saveDevelopmentRequest, Store.transact]
      split
      · exact stored
      · rename_i answer db' run
        exact saveDevelopmentRequestTx_stored stored run
    | touchDevelopmentRequest requestID expectedRevision now =>
      simp only [Store.exec, reply, Store.touchDevelopmentRequest, Store.transact]
      split
      · exact stored
      · rename_i answer db' run
        exact touchDevelopmentRequestTx_stored stored run
    | _ => cases writes
  · unfold StoredRequests
    rw [exec_requests s (Bool.eq_false_of_not_eq_true writes)]
    exact stored

theorem run_storedRequests {calls : List (Call O)} (stored : StoredRequests s.db) :
    StoredRequests (s.run calls).db := by
  induction calls generalizing s with
  | nil => exact stored
  | cons call calls ih => exact ih (exec_storedRequests stored)

end

/-- A stored request reaches a terminal state by finitely many successors that are accepted. -/
inductive Finishes (requestID : String) : Store → Prop
  | done {s : Store} {row : DevelopmentRequestRow} (stored : row ∈ s.db.developmentRequests)
      (named : row.requestID = requestID) (finished : developmentRequestTerminal row.state = true) :
      Finishes requestID s
  | next {s : Store} {row : DevelopmentRequestRow} {successor : DevelopmentRequest} {now : UnixNano}
      (stored : row ∈ s.db.developmentRequests) (named : row.requestID = requestID)
      (same : successor.id = requestID) (follows : successor.revision = row.revision + 1)
      (accepted : (s.saveDevelopmentRequest successor now).1 = .ok (successor, false))
      (rest : Finishes requestID (s.saveDevelopmentRequest successor now).2) : Finishes requestID s

theorem nextDevelopmentRequestUpdatedAt_ok {previous observed : UnixNano} :
    (∃ updatedAt, nextDevelopmentRequestUpdatedAt previous observed = .ok updatedAt) ↔
      observed ≤ previous → previous.nanos ≠ 2 ^ 63 - 1 := by
  unfold nextDevelopmentRequestUpdatedAt
  split
  · rename_i late
    simp only [ok_iff, bool_iff]
    constructor
    · rintro ⟨_, -, room, -⟩ -
      exact room
    · intro room
      exact ⟨_, (), room late, rfl⟩
  · rename_i early
    exact iff_of_true ⟨observed, rfl⟩ fun late => absurd late early

theorem find_pruned (member : row ∈ db.developmentRequests)
    (open_ : developmentRequestTerminal row.state = false) (now : UnixNano) :
    (pruneExpiredDevelopmentRequests db now).developmentRequests.find row.requestID = some row := by
  refine Table.find_eq_some.mpr ⟨Table.mem_delete.mpr ⟨member, ?_⟩, rfl⟩
  rw [open_, Bool.false_and]

section

variable {successor : DevelopmentRequest}

theorem sameDevelopmentRequestBinding_comm (left right : DevelopmentRequest) :
    sameDevelopmentRequestBinding left right = sameDevelopmentRequestBinding right left := by
  simp only [sameDevelopmentRequestBinding, eq_comm]

theorem transition_sound {before after : DevelopmentRequest}
    (valid : validDevelopmentRequestTransition before after = true) :
    RequestSound after ∧ sameDevelopmentRequestBinding after before = true := by
  simp only [validDevelopmentRequestTransition, bool_iff] at valid
  refine ⟨request_valid_iff.mp valid.1.1.1.1.1.1.1.1.1.2, ?_⟩
  rw [sameDevelopmentRequestBinding_comm]
  exact valid.1.1.1.1.1.1.2

theorem save_successor_valid {answer : Except String (DevelopmentRequest × Bool)}
    (member : row ∈ db.developmentRequests) (stored : StoredRequest row)
    (open_ : developmentRequestTerminal row.state = false) (named : successor.id = row.requestID)
    (follows : successor.revision = row.revision + 1)
    (run : saveDevelopmentRequestTx successor now db = .ok (answer, db')) :
    RequestSound successor ∧ (now ≤ row.updatedAt → row.updatedAt.nanos ≠ 2 ^ 63 - 1) := by
  simp only [saveDevelopmentRequestTx, named, find_pruned member open_ now,
    readDevelopmentRequest_stored stored, ok_bind, ok_iff, marshalDevelopmentRequest_eq_ok] at run
  obtain ⟨_, ⟨sound, -⟩, -, -, _, -, run⟩ := run
  split at run
  · rename_i replayed
    have revision := stored.revision
    omega
  · simp only [ok_iff, Option.some.injEq] at run
    obtain ⟨-, -, _, rfl, updatedAt, later, -⟩ := run
    exact ⟨sound, nextDevelopmentRequestUpdatedAt_ok.mp ⟨updatedAt, later⟩⟩

theorem save_successor_accepts (member : row ∈ db.developmentRequests) (stored : StoredRequest row)
    (open_ : developmentRequestTerminal row.state = false) (named : successor.id = row.requestID)
    (follows : validDevelopmentRequestTransition row.record successor = true)
    (later : nextDevelopmentRequestUpdatedAt row.updatedAt now = .ok updatedAt) :
    ∃ db', saveDevelopmentRequestTx successor now db = .ok (.ok (successor, false), db') ∧
      row.write successor updatedAt ∈ db'.developmentRequests := by
  obtain ⟨sound, same⟩ := transition_sound follows
  have newer : successor.revision = row.record.revision + 1 := by
    simp only [validDevelopmentRequestTransition, bool_iff] at follows
    exact follows.1.1.1.1.1.2
  have found := find_pruned member open_ now
  obtain ⟨db', written, replaced⟩ := updateRequest_replaces updatedAt
    "workqueue: development request revision conflict" (Table.find_eq_some.mp found).1 named.symm
  refine ⟨db', ?_, replaced.new_mem⟩
  rw [← stored.revision, stored.digest] at written
  have marshalled := marshalDevelopmentRequest_eq_ok.mpr ⟨sound, rfl⟩
  have before := marshalDevelopmentRequest_eq_ok.mpr ⟨stored.sound, rfl⟩
  simp [saveDevelopmentRequestTx, marshalled, before, named, found, readDevelopmentRequest_stored stored,
    same, newer, follows, later, written, orFail, required]

def DevelopmentRequest.giveUp (request : DevelopmentRequest) : DevelopmentRequest :=
  { request with revision := request.revision + 1, state := .cancelled, reason := .none }

theorem giveUp_sound (sound : RequestSound request) (room : request.revision < maxDevelopmentRequestRevision) :
    RequestSound request.giveUp :=
  { sound with
    positive := Nat.succ_ne_zero _
    bounded := room
    reconciled := fun same => nomatch same.1
    reason := rfl }

theorem setOnce_self {value : String} {valid : String → Bool} (sound : value = "" ∨ valid value = true) :
    setOnceDevelopmentRequestID value value valid = true := by
  simp only [setOnceDevelopmentRequestID, bool_iff, true_and]
  exact sound

theorem giveUp_follows (sound : RequestSound request) (open_ : developmentRequestTerminal request.state = false)
    (room : request.revision < maxDevelopmentRequestRevision) :
    validDevelopmentRequestTransition request request.giveUp = true := by
  have states : validDevelopmentRequestStateTransition request.state .cancelled = true := by
    cases state : request.state with
    | preparing | active | cancelling | awaitingReasoning => rfl
    | completed | failed | cancelled => rw [state] at open_; cases open_
  have binding : sameDevelopmentRequestBinding request request.giveUp = true := by
    simp [sameDevelopmentRequestBinding, DevelopmentRequest.giveUp]
  have inspection := setOnce_self sound.inspection
  have objective := setOnce_self sound.objective
  have process := setOnce_self sound.process
  have before := request_valid_iff.mpr sound
  have after := request_valid_iff.mpr (giveUp_sound sound room)
  simp only [validDevelopmentRequestTransition, before, after, open_, binding]
  simp [DevelopmentRequest.giveUp, states, inspection, objective, process]

end

section

variable {s : Store}

theorem Finishes.room (stored : StoredRequests s.db) (member : row ∈ s.db.developmentRequests)
    (open_ : developmentRequestTerminal row.state = false) (finishes : Finishes row.requestID s) :
    row.revision < maxDevelopmentRequestRevision ∧ row.updatedAt.nanos ≠ 2 ^ 63 - 1 := by
  cases finishes with
  | done inside named finished =>
    rw [Table.eq_of_key inside member named, open_] at finished
    cases finished
  | next inside named same follows accepted rest =>
    rename_i found successor now
    obtain rfl := Table.eq_of_key inside member named
    simp only [Store.saveDevelopmentRequest, Store.transact] at accepted
    split at accepted
    · cases accepted
    rename_i answer db' run
    obtain ⟨sound, later⟩ := save_successor_valid member (stored _ member) open_ same follows run
    have bounded := sound.bounded
    refine ⟨by omega, fun last => later ?_ last⟩
    have upper := now.upper
    rw [UnixNano.le_def, last]
    omega

theorem finishes_of_room (stored : StoredRequest row) (member : row ∈ s.db.developmentRequests)
    (open_ : developmentRequestTerminal row.state = false)
    (room : row.revision < maxDevelopmentRequestRevision) (later : row.updatedAt.nanos ≠ 2 ^ 63 - 1) :
    Finishes row.requestID s := by
  rw [← stored.revision] at room
  have open' := open_
  rw [← stored.state] at open'
  obtain ⟨updatedAt, next⟩ := nextDevelopmentRequestUpdatedAt_ok.mpr
    (fun _ : row.updatedAt ≤ row.updatedAt => later)
  have named : row.record.giveUp.id = row.requestID := stored.name
  obtain ⟨db', run, written⟩ := save_successor_accepts member stored open_ named
    (giveUp_follows stored.sound open' room) next
  have saved : s.saveDevelopmentRequest row.record.giveUp row.updatedAt =
      (.ok (row.record.giveUp, false), { s with db := db' }) := by
    simp only [Store.saveDevelopmentRequest, Store.transact, run]
  have follows : row.record.giveUp.revision = row.revision + 1 := congrArg Nat.succ stored.revision
  apply Finishes.next member rfl named follows (congrArg Prod.fst saved)
  rw [saved]
  exact .done written rfl rfl

/-- In every run, the requests that can still be brought to an end are those below the last revision
and the last time. -/
theorem run_finishes {O : Type} [ObjectiveRecords O] {config : Config}
    {validated : validateConfig config = .ok config} {calls : List (Call O)}
    (member : row ∈ ((Store.empty config validated).run calls).db.developmentRequests)
    (open_ : developmentRequestTerminal row.state = false) :
    Finishes row.requestID ((Store.empty config validated).run calls) ↔
      row.revision < maxDevelopmentRequestRevision ∧ row.updatedAt.nanos ≠ 2 ^ 63 - 1 := by
  have stored : StoredRequests ((Store.empty config validated).run calls).db :=
    run_storedRequests fun row inside => absurd inside (Table.not_mem_empty row)
  constructor
  · exact Finishes.room stored member open_
  · rintro ⟨room, later⟩
    exact finishes_of_room (stored row member) member open_ room later

def DevelopmentRequest.touched (request : DevelopmentRequest) : DevelopmentRequest :=
  { request with revision := request.revision + 1 }

theorem touched_sound (sound : RequestSound request) (room : request.revision < maxDevelopmentRequestRevision) :
    RequestSound request.touched :=
  { sound with positive := Nat.succ_ne_zero _, bounded := room }

theorem touch_takes_revision (stored : StoredRequest row) (member : row ∈ s.db.developmentRequests)
    (state : row.state = .preparing) (room : row.revision < maxDevelopmentRequestRevision)
    (later : nextDevelopmentRequestUpdatedAt row.updatedAt now = .ok updatedAt) :
    row.write row.record.touched updatedAt ∈
      (s.touchDevelopmentRequest row.requestID row.revision now).2.db.developmentRequests := by
  obtain ⟨db', written, replaced⟩ := updateRequest_replaces updatedAt
    "workqueue: development request touch conflict" member
    (show row.requestID = row.record.touched.id from stored.name.symm)
  have run : touchDevelopmentRequestTx row.requestID row.revision now s.db = .ok (.ok row.record.touched, db') := by
    have named := stored.name ▸ stored.sound.name
    have positive := stored.revision ▸ stored.sound.positive
    simp only [touchDevelopmentRequestTx, bind_eq_ok, orFail_eq_ok, required_eq_ok, pure_eq_ok, reject_eq_ok,
      scanDevelopmentRequest_eq_ok, marshalDevelopmentRequest_eq_ok]
    refine ⟨(), ?_, row, Table.find_eq_some.mpr ⟨member, rfl⟩, row.record, ⟨stored, rfl⟩, (), ?_, _,
      ⟨stored.sound, rfl⟩, _, ⟨touched_sound stored.sound (stored.revision ▸ room), rfl⟩, updatedAt, later, db',
      ?_, rfl⟩
    · simp [named, positive, room]
    · simp [stored.revision, stored.state, state, developmentRequestTerminal]
    · rw [← stored.digest]
      exact written
  simp only [Store.touchDevelopmentRequest, Store.transact, run]
  exact replaced.new_mem

theorem save_initial {config : Config} {validated : validateConfig config = .ok config}
    (initial : validInitialDevelopmentRequest request = true) :
    ⟨request.id, request.keyDigest, request.revision, request.state, requestDigest request, request, now, now⟩ ∈
      ((Store.empty config validated).saveDevelopmentRequest request now).2.db.developmentRequests := by
  have sound : RequestSound request := by
    simp only [validInitialDevelopmentRequest, bool_iff] at initial
    exact request_valid_iff.mp initial.1.1.1.1.1.1.1
  obtain ⟨requests, inserted⟩ : ∃ requests, DB.empty.developmentRequests.insert
      ⟨request.id, request.keyDigest, request.revision, request.state, requestDigest request, request, now, now⟩ =
        some requests := ⟨_, rfl⟩
  have run : saveDevelopmentRequestTx request now DB.empty =
      .ok (.ok (request, true), { DB.empty with developmentRequests := requests }) := by
    simp only [saveDevelopmentRequestTx, ok_iff, marshalDevelopmentRequest_eq_ok]
    refine ⟨_, ⟨sound, rfl⟩, none, rfl, ?_⟩
    simp only [ok_iff]
    refine ⟨none, rfl, ?_⟩
    simp only [bind_eq_ok, reject_eq_ok, required_eq_ok, pure_eq_ok]
    exact ⟨(), congrArg not initial, (), rfl, requests, inserted, rfl⟩
  change _ ∈ (Store.transact _ _).2.db.developmentRequests
  simp only [Store.empty, Store.transact, run]
  exact (Table.mem_insert inserted).mpr (.inr rfl)

end

def sampleRequest : DevelopmentRequest :=
  ⟨randomID "dr_" 0, 1, sampleHash, "project", "target", randomID "ed_" 0, randomID "mb_" 0, sampleHash,
    "", "", "", "", .preparing, .none⟩

def pollCalls (polls : Nat) : List (Call Empty) :=
  .saveDevelopmentRequest sampleRequest (.ofTime 0) ::
    (range polls).map fun poll => .touchDevelopmentRequest sampleRequest.id (poll + 1) (.ofTime 0)

theorem polled (polls : Nat) (bounded : polls < maxDevelopmentRequestRevision) :
    ∃ row ∈ ((Store.empty smallConfig smallConfig_valid).run (pollCalls polls)).db.developmentRequests,
      row.requestID = sampleRequest.id ∧ row.state = .preparing ∧ row.revision = polls + 1 ∧
        row.updatedAt.nanos = polls := by
  induction polls with
  | zero =>
    have initial : validInitialDevelopmentRequest sampleRequest = true := by decide
    have saved := @save_initial (.ofTime 0) sampleRequest smallConfig smallConfig_valid initial
    simp only [pollCalls, range_zero, map_nil, run_cons, run_nil, Store.exec, reply]
    exact ⟨_, saved, rfl, rfl, rfl, UnixNano.ofTime_nanos (by decide) (by decide)⟩
  | succ polls ih =>
    obtain ⟨row, member, named, state, revision, updated⟩ := ih (by omega)
    have stored := run_storedRequests (fun row inside => absurd inside (Table.not_mem_empty row)) row member
    have small : (polls : Int) + 1 < 2 ^ 63 := by
      unfold maxDevelopmentRequestRevision at bounded
      omega
    have next : nextDevelopmentRequestUpdatedAt row.updatedAt (.ofTime 0) = .ok (.ofTime (polls + 1)) := by
      have late : UnixNano.ofTime 0 ≤ row.updatedAt := by
        rw [UnixNano.le_def, updated, UnixNano.ofTime_nanos (by omega) (by omega)]
        omega
      rw [nextDevelopmentRequestUpdatedAt, if_pos late, updated, UnixNano.time, updated]
      simp only [ok_iff, bool_iff, and_true, exists_const]
      omega
    have taken := touch_takes_revision stored member state (by omega) next
    refine ⟨row.write row.record.touched (.ofTime (polls + 1)), ?_, named, stored.state.trans state, ?_, ?_⟩
    · rw [named, revision] at taken
      simp only [pollCalls, range_succ, map_append, map_cons, map_nil]
      rw [← cons_append, run_append]
      exact taken
    · exact congrArg Nat.succ (stored.revision.trans revision)
    · exact UnixNano.ofTime_nanos (by omega) small

theorem run_finishes_sample :
    ∃ row ∈ ((Store.empty smallConfig smallConfig_valid).run (pollCalls 1)).db.developmentRequests,
      Finishes row.requestID ((Store.empty smallConfig smallConfig_valid).run (pollCalls 1)) := by
  obtain ⟨row, member, -, state, revision, updated⟩ := polled 1 (by decide)
  have room : row.revision < maxDevelopmentRequestRevision ∧ row.updatedAt.nanos ≠ 2 ^ 63 - 1 := by
    rw [revision, updated]
    decide
  have open_ : developmentRequestTerminal row.state = false := by rw [state]; rfl
  exact ⟨row, member, (run_finishes member open_).mpr room⟩

/-- A request that was polled up to the last revision cannot be brought to an end. -/
theorem polled_request_stuck :
    ∃ row ∈ ((Store.empty smallConfig smallConfig_valid).run (pollCalls (2 ^ 20 - 1))).db.developmentRequests,
      developmentRequestTerminal row.state = false ∧
        ¬ Finishes row.requestID ((Store.empty smallConfig smallConfig_valid).run (pollCalls (2 ^ 20 - 1))) := by
  obtain ⟨row, member, -, state, revision, -⟩ := polled (2 ^ 20 - 1) (by decide)
  have open_ : developmentRequestTerminal row.state = false := by rw [state]; rfl
  refine ⟨row, member, open_, fun finishes => ?_⟩
  have stored : StoredRequests ((Store.empty smallConfig smallConfig_valid).run (pollCalls (2 ^ 20 - 1))).db :=
    run_storedRequests fun row inside => absurd inside (Table.not_mem_empty row)
  have room := (finishes.room stored member open_).1
  rw [revision] at room
  exact absurd room (by decide)

/-- Whatever was called, every development request that is stored can be read back as it was saved. -/
theorem run_requests_readable {O : Type} [ObjectiveRecords O] (config : Config)
    (validated : validateConfig config = .ok config) (calls : List (Call O)) :
    ∀ row ∈ ((Store.empty config validated).run calls).db.developmentRequests,
      scanDevelopmentRequest row = .ok row.record := by
  intro row member
  have none : StoredRequests (Store.empty config validated).db := fun row inside =>
    absurd inside (Table.not_mem_empty row)
  exact scanDevelopmentRequest_eq_ok.mpr ⟨run_storedRequests none row member, rfl⟩

theorem run_requests_readable_polled :
    ∃ row ∈ ((Store.empty smallConfig smallConfig_valid).run (pollCalls 1)).db.developmentRequests,
      scanDevelopmentRequest row = .ok row.record := by
  obtain ⟨row, member, -⟩ := polled 1 (by decide)
  exact ⟨row, member, run_requests_readable smallConfig smallConfig_valid (pollCalls 1) row member⟩

end Aeontra.Workqueue
