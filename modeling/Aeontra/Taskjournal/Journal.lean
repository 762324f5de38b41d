import Aeontra.Library.Fallible
import Aeontra.Library.Instant
import Aeontra.Library.Machine
import Aeontra.Library.Pattern
import Aeontra.Library.Table

/-!
The journal of externally visible operations: one row for each task, one for each event,
and what is forgotten of both before every write.

Every call holds the mutex, so the calls of a history follow each other.  How many bytes
the database uses is not modelled: each call is told at which attempts it is over its target.
-/

namespace Aeontra.Taskjournal

open Library List

def maxPageSize : Nat := 200
def maxRecords : Nat := 10000
def maxEvents : Nat := 20000
def terminalRetention : Duration := 30 * 24 * hour
def eventRetention : Duration := 30 * 24 * hour
def storagePruneBatch : Nat := 500
def storagePruneAttempts : Nat := 256

inductive State where
  | requested
  | planned
  | awaitingApproval
  | executing
  | observing
  | validating
  | completed
  | failed
  | cancelled
  | disconnected
  deriving DecidableEq

def isTerminal : State → Bool
  | .completed | .failed | .cancelled => true
  | _ => false

inductive EventType where
  | started
  | heartbeat
  | transition
  deriving DecidableEq

def taskIDPattern : Pattern := [[Pattern.exactly isLowerHex 32]]

def operationPattern : Pattern :=
  [[Pattern.exactly (fun c => 'a' ≤ c && c ≤ 'z') 1, ⟨fun c => isLowerAlnum c || c == '_', 0, 63⟩]]

def scopeIDPattern (lead : String) : Pattern := [Pattern.literal lead ++ [Pattern.exactly isLowerHex 24]]

def validControllers : List String := ["http", "stdio", "internal"]

/-- A reading of the clock that its count of nanoseconds can hold. -/
structure Clock where
  now : Time
  lower : -2 ^ 63 ≤ now
  upper : now < 2 ^ 63

def unixNano (t : Time) : UnixNano := UnixNano.ofTime t

structure TaskRow where
  sequence : Nat
  taskID : String
  controller : String
  operation : String
  safeSummary : String
  projectID : String
  edgeID : String
  state : State
  createdAt : UnixNano
  updatedAt : UnixNano
  heartbeatAt : UnixNano
  terminalAt : Option UnixNano
  version : Nat

structure EventRow where
  eventID : Nat
  taskID : String
  taskVersion : Nat
  sequence : Nat
  occurredAt : UnixNano
  eventType : EventType
  state : State
  operation : String
  deriving DecidableEq

/-- `Entry.validate` on the columns of a row; the texts of a state are the constructors, and
no stored time is the zero time. -/
def TaskRow.validate (t : TaskRow) : Except String Unit := do
  reject (!taskIDPattern.matchString t.taskID) "task journal: invalid task id"
  reject (!operationPattern.matchString t.operation) "task journal: invalid operation"
  reject (t.safeSummary ≠ "MCP tool operation: " ++ t.operation) "task journal: invalid summary"
  reject (t.projectID ≠ "" && !(scopeIDPattern "prj_").matchString t.projectID) "task journal: invalid project scope"
  reject (t.edgeID ≠ "" && !(scopeIDPattern "edge_").matchString t.edgeID) "task journal: invalid edge scope"
  reject (t.version < 1) "task journal: timestamps and version are required"
  reject (!validControllers.contains t.controller) "task journal: invalid controller"

/-- The database: the events lie in the order of their numbers, and every event has its task. -/
@[ext] structure Store where
  tasks : Table TaskRow TaskRow.sequence TaskRow.taskID
  lastSequence : Nat
  sequences : ∀ t ∈ tasks, t.sequence ≤ lastSequence
  events : List EventRow
  lastEvent : Nat
  numbered : ∀ e ∈ events, e.eventID ≤ lastEvent
  ordered : events.Pairwise fun e f => e.eventID < f.eventID
  owned : ∀ e ∈ events, ∃ t ∈ tasks, t.taskID = e.taskID

namespace Store

def new : Store where
  tasks := .empty
  lastSequence := 0
  sequences := by simp
  events := []
  lastEvent := 0
  numbered := by simp
  ordered := .nil
  owned := by simp

variable (s : Store)

def keepEvents (events : List EventRow) (fewer : events.Sublist s.events) : Store :=
  { s with
    events := events
    numbered := fun e member => s.numbered e (fewer.subset member)
    ordered := s.ordered.sublist fewer
    owned := fun e member => s.owned e (fewer.subset member) }

/-- `DELETE FROM tasks`, which takes the events of the deleted tasks along. -/
def deleteTasks (p : TaskRow → Bool) : Store :=
  { s with
    tasks := s.tasks.delete p
    sequences := fun t member => s.sequences t (Table.mem_delete.mp member).1
    events := s.events.filter fun e => !s.tasks.rows.any fun t => p t && t.taskID = e.taskID
    numbered := fun e member => s.numbered e (mem_of_mem_filter member)
    ordered := s.ordered.filter _
    owned := by
      intro e member
      rw [mem_filter] at member
      rcases s.owned e member.1 with ⟨t, present, same⟩
      refine ⟨t, Table.mem_delete.mpr ⟨present, ?_⟩, same⟩
      have kept := member.2
      simp only [Bool.not_eq_true', any_eq_false, bool_iff, not_and] at kept
      by_contra deleted
      exact kept t present (by simpa using deleted) same }

def oldestTerminal (limit : Nat) : List TaskRow :=
  ((s.tasks.rows.filter fun t => t.terminalAt.isSome).mergeSort fun a b =>
    a.updatedAt < b.updatedAt || (a.updatedAt = b.updatedAt && a.sequence ≤ b.sequence)).take limit

def deleteOldest (limit : Nat) : Store :=
  s.deleteTasks fun t => (s.oldestTerminal limit).any fun old => old.taskID = t.taskID

def endedBefore (limit : UnixNano) (t : TaskRow) : Bool := t.terminalAt.any fun ended => ended < limit

def retainTasks (now : Time) : Store := s.deleteTasks (endedBefore (unixNano (now - terminalRetention)))

def limitTasks : Store :=
  if maxRecords < s.tasks.rows.length then s.deleteOldest (s.tasks.rows.length - maxRecords) else s

def retainEvents (now : Time) : Store :=
  s.keepEvents (s.events.filter fun e => !decide (e.occurredAt < unixNano (now - eventRetention))) filter_sublist

def limitEvents : Store := s.keepEvents (s.events.drop (s.events.length - maxEvents)) (drop_sublist ..)

/-- The loop of `pruneBytesLocked`, with the attempts that are left. -/
def pruneBytesFrom (full : Nat → Bool) : Nat → Store → Except String Unit × Store
  | 0, s => (.error "task journal: storage prune did not converge", s)
  | left + 1, s =>
    if !full (storagePruneAttempts - (left + 1)) then (.ok (), s)
    else if s.events ≠ [] then
      pruneBytesFrom full left (s.keepEvents (s.events.drop storagePruneBatch) (drop_sublist ..))
    else if (s.oldestTerminal storagePruneBatch).isEmpty then
      (.error "task journal: storage budget exhausted by active records", s)
    else pruneBytesFrom full left (s.deleteOldest storagePruneBatch)

/-- The four rules by which rows are forgotten, one after the other. -/
def pruneLocked (full : Nat → Bool) (now : Time) : Except String Unit × Store :=
  pruneBytesFrom full storagePruneAttempts (((s.retainTasks now).limitTasks.retainEvents now).limitEvents)

/-- `INSERT INTO task_events` for a task that is there. -/
def insertEvent (t : TaskRow) (present : t ∈ s.tasks) (kind : EventType) : EventRow × Store :=
  let e : EventRow := ⟨s.lastEvent + 1, t.taskID, t.version, t.sequence, t.updatedAt, kind, t.state, t.operation⟩
  (e,
    { s with
      events := s.events ++ [e]
      lastEvent := s.lastEvent + 1
      numbered := by
        intro f member
        rcases List.mem_append.mp member with old | last
        · exact Nat.le_succ_of_le (s.numbered f old)
        · rw [List.mem_singleton.mp last]
      ordered := by
        rw [pairwise_append]
        refine ⟨s.ordered, pairwise_singleton .., ?_⟩
        intro f old g last
        rw [List.mem_singleton.mp last]
        exact Nat.lt_succ_of_le (s.numbered f old)
      owned := by
        intro f member
        rcases List.mem_append.mp member with old | last
        · exact s.owned f old
        · rw [List.mem_singleton.mp last]
          exact ⟨t, present, rfl⟩ })

/-- `INSERT INTO tasks`; the sequence number is the next one. -/
def insertTask (t : TaskRow) : Option { s' : Store // { t with sequence := s.lastSequence + 1 } ∈ s'.tasks } :=
  match inserted : s.tasks.insert { t with sequence := s.lastSequence + 1 } with
  | none => none
  | some tasks =>
    some ⟨{ s with
      tasks := tasks
      lastSequence := s.lastSequence + 1
      sequences := by
        intro u member
        rcases (Table.mem_insert inserted).mp member with old | rfl
        · exact Nat.le_succ_of_le (s.sequences u old)
        · exact Nat.le_refl _
      owned := by
        intro e member
        rcases s.owned e member with ⟨u, present, same⟩
        exact ⟨u, (Table.mem_insert inserted).mpr (.inl present), same⟩ },
      (Table.mem_insert inserted).mpr (.inr rfl)⟩

structure Change where
  state : State
  now : UnixNano
  terminalAt : Option UnixNano
  version : Nat

def Change.set (c : Change) (t : TaskRow) : TaskRow :=
  { t with state := c.state, updatedAt := c.now, heartbeatAt := c.now, terminalAt := c.terminalAt,
           version := c.version }

/-- `UPDATE tasks ... WHERE task_id=?`. -/
def updateTask (taskID : String) (c : Change) : Store :=
  { s with
    tasks := s.tasks.update (fun t => t.taskID = taskID) c.set (fun _ => rfl) (fun _ => rfl)
    sequences := by
      intro t member
      rcases Table.mem_update.mp member with ⟨old, present, rfl⟩
      split
      · exact s.sequences old present
      · exact s.sequences old present
    owned := by
      intro e member
      rcases s.owned e member with ⟨t, present, same⟩
      refine ⟨_, Table.mem_update.mpr ⟨t, present, rfl⟩, ?_⟩
      split
      · exact same
      · exact same }

theorem mem_updateTask {taskID : String} {c : Change} {t : TaskRow} :
    t ∈ (s.updateTask taskID c).tasks ↔ ∃ old ∈ s.tasks,
      (if decide (old.taskID = taskID) then c.set old else old) = t :=
  @Table.mem_update _ _ _ _ _ s.tasks t (fun old => old.taskID = taskID) c.set (fun _ => rfl) (fun _ => rfl)

theorem set_mem_updateTask {taskID : String} {c : Change} {t : TaskRow} (present : t ∈ s.tasks)
    (named : t.taskID = taskID) : c.set t ∈ (s.updateTask taskID c).tasks :=
  s.mem_updateTask.mpr ⟨t, present, by simp [named]⟩

def create (full : Nat → Bool) (t : TaskRow) (now : Time) : Except String EventRow × Store :=
  match t.validate with
  | .error e => (.error e, s)
  | .ok () =>
    match s.pruneLocked full now with
    | (.error e, s) => (.error e, s)
    | (.ok (), s) =>
      match s.insertTask t with
      | none => (.error "task journal: task already exists or storage is full", s)
      | some ⟨s', present⟩ =>
        (.ok (s'.insertEvent _ present .started).1, (s'.insertEvent _ present .started).2)

/-- What an update sets in a task that is not over; a heartbeat names no state. -/
def changeOf (t : TaskRow) (state : Option State) (now : UnixNano) : Change where
  state := state.getD t.state
  now := now
  terminalAt := if state.any isTerminal then some now else t.terminalAt
  version := t.version + 1

def advance (t : TaskRow) (present : t ∈ s.tasks) (state : Option State) (now : UnixNano) : EventRow × Store :=
  (s.updateTask t.taskID (changeOf t state now)).insertEvent ((changeOf t state now).set t)
    (s.set_mem_updateTask present rfl) (if state.isSome then .transition else .heartbeat)

/-- No event stands for the heartbeat of a task that is over. -/
def update (full : Nat → Bool) (taskID : String) (state : Option State) (now : Time) :
    Except String (Option EventRow) × Store :=
  if !taskIDPattern.matchString taskID then (.error "task journal: invalid task id", s)
  else
    match s.pruneLocked full now with
    | (.error e, s) => (.error e, s)
    | (.ok (), s) =>
      match found : s.tasks.findUnique taskID with
      | none => (.error "task journal: task not found", s)
      | some t =>
        match t.validate with
        | .error _ => (.error "task journal: task read failed", s)
        | .ok () =>
          if isTerminal t.state then
            match state with
            | none => (.ok none, s)
            | some _ => (.error "task journal: terminal task cannot transition", s)
          else
            have present := (Table.findUnique_eq_some.mp found).1
            (.ok (some (s.advance t present state (unixNano now)).1), (s.advance t present state (unixNano now)).2)

/-- Events after the cursor are gone, as far as the numbers of the first and the last event show. -/
def hasGap (after : Int) : Bool :=
  0 < after &&
    match s.events.head?, s.events.getLast? with
    | some first, some last => (last.eventID : Int) < after || after < (first.eventID : Int) - 1
    | _, _ => true

/-- The events after a cursor, each with its task, or the report of a gap. -/
def replay (after : Int) (limit : Int) : List EventRow × Bool :=
  let limit := if limit ≤ 0 ∨ (maxPageSize : Int) < limit then maxPageSize else limit.toNat
  if s.hasGap after then ([], true)
  else
    let joined := s.events.filter fun e => s.tasks.rows.any fun t => t.taskID = e.taskID
    ((joined.filter fun e => after < (e.eventID : Int)).take limit, false)

end Store

inductive Call where
  | start (taskID operation controller projectID edgeID : String)
  | transition (taskID : String) (state : State)
  | heartbeat (taskID : String)
  | prune

/-- A call with the reading of the clock and the attempts at which too many bytes are in use. -/
structure Timed where
  clock : Clock
  full : Nat → Bool
  call : Call

def newRow (taskID operation controller projectID edgeID : String) (now : Time) : TaskRow where
  sequence := 0
  taskID := taskID
  controller := controller
  operation := operation
  safeSummary := "MCP tool operation: " ++ operation
  projectID := projectID
  edgeID := edgeID
  state := .executing
  createdAt := unixNano now
  updatedAt := unixNano now
  heartbeatAt := unixNano now
  terminalAt := none
  version := 1

/-- A call of the journal with the event it committed and publishes, if any. -/
def Store.exec (s : Store) (timed : Timed) : Except String (Option EventRow) × Store :=
  match timed.call with
  | .start taskID operation controller projectID edgeID =>
    -- the entry is checked without its scope and then once more with it
    match (newRow taskID operation controller "" "" timed.clock.now).validate with
    | .error e => (.error e, s)
    | .ok () =>
      let created := s.create timed.full (newRow taskID operation controller projectID edgeID timed.clock.now)
        timed.clock.now
      (created.1.map some, created.2)
  | .transition taskID state =>
    if state = .disconnected then (.error "task journal: invalid state", s)
    else s.update timed.full taskID (some state) timed.clock.now
  | .heartbeat taskID => s.update timed.full taskID none timed.clock.now
  | .prune =>
    ((s.pruneLocked timed.full timed.clock.now).1.map fun _ => none, (s.pruneLocked timed.full timed.clock.now).2)

end Aeontra.Taskjournal
