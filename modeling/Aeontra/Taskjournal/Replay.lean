import Aeontra.Library.Sha256
import Aeontra.Taskjournal.Journal

/-!
What a replay may leave out: as long as no task is forgotten to make room, the retained
events are the last of all events ever committed, and a replay without a gap is complete.
-/

namespace Aeontra.Taskjournal

open Library Machine List

structure Shrinks (s s' : Store) : Prop where
  suffix : s'.events <:+ s.events
  tasks : ∀ t ∈ s'.tasks, t ∈ s.tasks
  last : s'.lastEvent = s.lastEvent

theorem Shrinks.refl (s : Store) : Shrinks s s := ⟨suffix_rfl, fun _ member => member, rfl⟩

theorem Shrinks.trans {a b c : Store} (first : Shrinks a b) (again : Shrinks b c) : Shrinks a c :=
  ⟨again.suffix.trans first.suffix, fun t member => first.tasks t (again.tasks t member),
    again.last.trans first.last⟩

variable {events : List EventRow} {s : Store} {after : Int}

theorem shrinks_keepEvents (fewer : events.Sublist s.events)
    (suffix : events <:+ s.events) : Shrinks s (s.keepEvents events fewer) :=
  ⟨suffix, fun _ member => member, rfl⟩

theorem shrinks_deleteTasks {p : TaskRow → Bool} (none : s.events = []) : Shrinks s (s.deleteTasks p) := by
  refine ⟨?_, fun t member => (Table.mem_delete.mp member).1, rfl⟩
  change s.events.filter _ <:+ s.events
  rw [none]
  exact suffix_rfl

theorem shrinks_pruneBytesFrom (full : Nat → Bool) (left : Nat) (s : Store) :
    Shrinks s (Store.pruneBytesFrom full left s).2 := by
  induction left generalizing s with
  | zero => exact Shrinks.refl s
  | succ left ih =>
    rw [Store.pruneBytesFrom]
    split
    · exact Shrinks.refl s
    split
    · exact (shrinks_keepEvents _ (drop_suffix ..)).trans (ih _)
    rename_i none
    split
    · exact Shrinks.refl s
    · exact (shrinks_deleteTasks (not_not.mp none)).trans (ih _)

theorem filter_recent_suffix {cut : UnixNano} (timed : events.Pairwise fun e f => e.occurredAt ≤ f.occurredAt) :
    (events.filter fun e => !decide (e.occurredAt < cut)) <:+ events := by
  induction events with
  | nil => exact suffix_rfl
  | cons e events ih =>
    rw [pairwise_cons] at timed
    by_cases old : e.occurredAt < cut
    · rw [filter_cons_of_neg (by simp [old])]
      exact (ih timed.2).trans (suffix_cons ..)
    have all : ∀ f ∈ e :: events, (!decide (f.occurredAt < cut)) = true := by
      intro f member
      rcases mem_cons.mp member with rfl | later
      · simp [old]
      · have recent : ¬ f.occurredAt < cut := fun early => old ((timed.1 f later).trans_lt early)
        simp [recent]
    rw [filter_eq_self.mpr all]

/-- The retained events are the last of the `past`, whose times the clock has reached. -/
structure Faithful (s : Store) (past : List EventRow) (reached : UnixNano) : Prop where
  suffix : s.events <:+ past
  numbered : ∀ e ∈ past, e.eventID ≤ s.lastEvent
  increasing : past.Pairwise fun e f => e.eventID < f.eventID
  timed : past.Pairwise fun e f => e.occurredAt ≤ f.occurredAt
  recent : ∀ e ∈ past, e.occurredAt ≤ reached
  closed : ∀ t ∈ s.tasks, t.terminalAt.isSome = true → isTerminal t.state = true
  ended : ∀ t ∈ s.tasks, ∀ ended ∈ t.terminalAt, ∀ e ∈ s.events, e.taskID = t.taskID → e.occurredAt ≤ ended

section

variable {s s' : Store} {past : List EventRow} {reached : UnixNano}

theorem faithful_new (reached : UnixNano) : Faithful Store.new [] reached := by
  constructor
  case suffix => exact suffix_rfl
  case increasing => exact Pairwise.nil
  case timed => exact Pairwise.nil
  case closed => exact fun t member => absurd member (Table.not_mem_empty t)
  case ended => exact fun t member => absurd member (Table.not_mem_empty t)
  all_goals simp

theorem Faithful.shrink (faithful : Faithful s past reached) (fewer : Shrinks s s') :
    Faithful s' past reached where
  suffix := fewer.suffix.trans faithful.suffix
  numbered := by
    rw [fewer.last]
    exact faithful.numbered
  increasing := faithful.increasing
  timed := faithful.timed
  recent := faithful.recent
  closed := fun t member => faithful.closed t (fewer.tasks t member)
  ended := fun t member ended is e inside =>
    faithful.ended t (fewer.tasks t member) ended is e (fewer.suffix.subset inside)

/-- The events of a task that ended before the cut-off are older than the cut-off, so they
are the first to go in any case. -/
theorem Faithful.retain (faithful : Faithful s past reached) (now : Time) :
    Shrinks s ((s.retainTasks now).retainEvents now) := by
  refine ⟨?_, fun t member => (Table.mem_delete.mp member).1, rfl⟩
  have timed := faithful.timed.sublist faithful.suffix.sublist
  have same : ((s.retainTasks now).retainEvents now).events =
      s.events.filter fun e => !decide (e.occurredAt < unixNano (now - eventRetention)) := by
    change (s.events.filter _).filter _ = _
    rw [filter_filter]
    apply filter_congr
    intro e member
    by_cases old : e.occurredAt < unixNano (now - eventRetention)
    · simp [old]
    simp only [old, decide_false, Bool.not_false, Bool.true_and, Bool.not_eq_true', any_eq_false, bool_iff,
      not_and]
    intro t present gone same
    simp only [Store.endedBefore, Option.any_eq_true, bool_iff] at gone
    rcases gone with ⟨ended, is, before⟩
    exact old ((faithful.ended t present ended is e member same.symm).trans_lt before)
  rw [same]
  exact filter_recent_suffix timed

theorem limitTasks_of_room (room : s.tasks.rows.length ≤ maxRecords) : s.limitTasks = s :=
  if_neg (not_lt.mpr room)

variable {now : Time} {s₁ : Store} {t : TaskRow}

theorem Faithful.prune (faithful : Faithful s past reached)
    (room : (s.retainTasks now).tasks.rows.length ≤ maxRecords) (full : Nat → Bool) :
    Shrinks s (s.pruneLocked full now).2 := by
  rw [Store.pruneLocked, limitTasks_of_room room]
  have limited : Shrinks ((s.retainTasks now).retainEvents now) ((s.retainTasks now).retainEvents now).limitEvents :=
    shrinks_keepEvents _ (drop_suffix ..)
  exact ((faithful.retain now).trans limited).trans (shrinks_pruneBytesFrom ..)

/-- A committed event is the next one, and a task that is over by then ended now or is
another task than that of the event. -/
structure Records (s : Store) (now : UnixNano) (e : EventRow) (s' : Store) : Prop where
  events : s'.events = s.events ++ [e]
  last : s'.lastEvent = s.lastEvent + 1
  number : e.eventID = s.lastEvent + 1
  time : e.occurredAt = now
  closed : ∀ t ∈ s'.tasks, t.terminalAt.isSome = true → isTerminal t.state = true
  ended : ∀ t ∈ s'.tasks, ∀ ended ∈ t.terminalAt, ended = now ∨ t ∈ s.tasks ∧ t.taskID ≠ e.taskID

theorem Faithful.record {now : UnixNano} {e : EventRow} (faithful : Faithful s past reached)
    (later : reached ≤ now) (recorded : Records s now e s') : Faithful s' (past ++ [e]) now := by
  have recent : ∀ f ∈ past ++ [e], f.occurredAt ≤ now := by
    intro f member
    rcases mem_append.mp member with old | last
    · exact (faithful.recent f old).trans later
    · rw [mem_singleton.mp last, recorded.time]
  constructor
  case suffix =>
    rcases faithful.suffix with ⟨dropped, split⟩
    rw [recorded.events]
    exact ⟨dropped, by rw [← append_assoc, split]⟩
  case numbered =>
    intro f member
    rw [recorded.last]
    rcases mem_append.mp member with old | last
    · exact Nat.le_succ_of_le (faithful.numbered f old)
    · rw [mem_singleton.mp last, recorded.number]
  case increasing =>
    rw [pairwise_append]
    refine ⟨faithful.increasing, pairwise_singleton .., ?_⟩
    intro f old g last
    rw [mem_singleton.mp last, recorded.number]
    exact Nat.lt_succ_of_le (faithful.numbered f old)
  case timed =>
    rw [pairwise_append]
    refine ⟨faithful.timed, pairwise_singleton .., ?_⟩
    intro f old g last
    rw [mem_singleton.mp last, recorded.time]
    exact (faithful.recent f old).trans later
  case recent => exact recent
  case closed => exact recorded.closed
  case ended =>
    intro t member ended is f inside same
    rw [recorded.events] at inside
    rcases recorded.ended t member ended is with rfl | ⟨old, differs⟩
    · apply recent
      rcases mem_append.mp inside with before | last
      · exact mem_append_left _ (faithful.suffix.subset before)
      · exact mem_append_right _ last
    · rcases mem_append.mp inside with before | last
      · exact faithful.ended t old ended is f before same
      · rw [mem_singleton.mp last] at same
        exact absurd same.symm differs

theorem insertTask_eq_some
    {present : { t with sequence := s.lastSequence + 1 } ∈ s₁.tasks} (inserted : s.insertTask t = some ⟨s₁, present⟩) :
    s.tasks.insert { t with sequence := s.lastSequence + 1 } = some s₁.tasks ∧ s₁.events = s.events ∧
      s₁.lastEvent = s.lastEvent := by
  unfold Store.insertTask at inserted
  split at inserted
  · cases inserted
  · rename_i tasks done
    cases inserted
    exact ⟨done, rfl, rfl⟩

theorem records_start {now : UnixNano} {present : { t with sequence := s.lastSequence + 1 } ∈ s₁.tasks}
    (closed : ∀ t ∈ s.tasks, t.terminalAt.isSome = true → isTerminal t.state = true)
    (inserted : s.insertTask t = some ⟨s₁, present⟩) (opened : t.terminalAt = none) (time : t.updatedAt = now) :
    Records s now (s₁.insertEvent _ present .started).1 (s₁.insertEvent _ present .started).2 := by
  have done := insertTask_eq_some inserted
  constructor
  case events => exact congrArg (· ++ [_]) done.2.1
  case last => exact congrArg (· + 1) done.2.2
  case number => exact congrArg (· + 1) done.2.2
  case time => exact time
  case closed =>
    intro u member terminated
    rcases (Table.mem_insert done.1).mp member with old | rfl
    · exact closed u old terminated
    · simp [opened] at terminated
  case ended =>
    intro u member ended is
    rcases (Table.mem_insert done.1).mp member with old | rfl
    · exact .inr ⟨old, (Table.insert_eq_some.mp done.1).2.1 u old⟩
    · simp [opened] at is

theorem records_advance {now : UnixNano} {state : Option State}
    (closed : ∀ t ∈ s.tasks, t.terminalAt.isSome = true → isTerminal t.state = true)
    (present : t ∈ s.tasks) (running : isTerminal t.state = false) :
    Records s now (s.advance t present state now).1 (s.advance t present state now).2 := by
  have opened : t.terminalAt = none := by
    by_contra ended
    have terminal := closed t present (Option.isSome_iff_ne_none.mpr ended)
    rw [running] at terminal
    cases terminal
  -- the task has ended now or is still open
  have ends : (Store.changeOf t state now).terminalAt = some now ∧ isTerminal (state.getD t.state) = true ∨
      (Store.changeOf t state now).terminalAt = none := by
    simp only [Store.changeOf, opened]
    cases state with
    | none => exact .inr rfl
    | some next =>
      cases terminated : isTerminal next with
      | false => exact .inr (by simp [terminated])
      | true => exact .inl ⟨by simp [terminated], terminated⟩
  constructor
  case events => rfl
  case last => rfl
  case number => rfl
  case time => rfl
  case closed =>
    intro u member terminal
    rcases s.mem_updateTask.mp member with ⟨old, held, rfl⟩
    split at terminal
    · rename_i named
      rw [if_pos named]
      rcases ends with ⟨-, terminated⟩ | none
      · exact terminated
      · simp [Store.Change.set, none] at terminal
    · rename_i other
      rw [if_neg other]
      exact closed old held terminal
  case ended =>
    intro u member ended is
    rcases s.mem_updateTask.mp member with ⟨old, held, rfl⟩
    split at is
    · rcases ends with ⟨at_now, -⟩ | none
      · simp only [Store.Change.set, at_now, Option.mem_some_iff] at is
        exact .inl is.symm
      · simp [Store.Change.set, none] at is
    · rename_i other
      rw [if_neg other]
      refine .inr ⟨held, fun same => other ?_⟩
      exact decide_eq_true same

def Pruned (s : Store) (now : Time) (s' : Store) : Prop := s' = s ∨ ∃ full, s' = (s.pruneLocked full now).2

/-- What a call can do: it forgets, and may then record one event. -/
inductive Step (s : Store) (now : Time) : Option EventRow → Store → Prop
  | forget {s' : Store} (pruned : Pruned s now s') : Step s now none s'
  | record {s₁ s' : Store} {e : EventRow} (pruned : Pruned s now s₁)
      (recorded : (∀ t ∈ s₁.tasks, t.terminalAt.isSome = true → isTerminal t.state = true) →
        Records s₁ (unixNano now) e s') : Step s now (some e) s'

def published : Except String (Option EventRow) → Option EventRow
  | .ok e => e
  | .error _ => none

theorem pruned_pruneLocked {full : Nat → Bool} {answer : Except String Unit}
    (pruned : s.pruneLocked full now = (answer, s₁)) : Pruned s now s₁ :=
  .inr ⟨full, by rw [pruned]⟩

theorem create_step (full : Nat → Bool) (opened : t.terminalAt = none) (time : t.updatedAt = unixNano now) :
    Step s now (published ((s.create full t now).1.map some)) (s.create full t now).2 := by
  unfold Store.create
  split
  · exact .forget (.inl rfl)
  split
  · rename_i pruned
    exact .forget (pruned_pruneLocked pruned)
  rename_i pruned
  split
  · exact .forget (pruned_pruneLocked pruned)
  · rename_i inserted
    exact .record (pruned_pruneLocked pruned) fun closed => records_start closed inserted opened time

theorem update_step (full : Nat → Bool) (taskID : String) (state : Option State) (now : Time) :
    Step s now (published (s.update full taskID state now).1) (s.update full taskID state now).2 := by
  unfold Store.update
  split
  · exact .forget (.inl rfl)
  split
  · rename_i pruned
    exact .forget (pruned_pruneLocked pruned)
  rename_i s₁ pruned
  split
  · exact .forget (pruned_pruneLocked pruned)
  rename_i t found
  split
  · exact .forget (pruned_pruneLocked pruned)
  split
  · split
    · exact .forget (pruned_pruneLocked pruned)
    · exact .forget (pruned_pruneLocked pruned)
  · rename_i running
    exact .record (pruned_pruneLocked pruned) fun closed =>
      records_advance closed _ (by simpa using running)

theorem exec_step (timed : Timed) : Step s timed.clock.now (published (s.exec timed).1) (s.exec timed).2 := by
  unfold Store.exec
  split
  · split
    · exact .forget (.inl rfl)
    · exact create_step timed.full rfl rfl
  · split
    · exact .forget (.inl rfl)
    · exact update_step ..
  · exact update_step ..
  have quiet : published ((s.pruneLocked timed.full timed.clock.now).1.map fun _ => none) = none := by
    cases (s.pruneLocked timed.full timed.clock.now).1 with
    | ok u => rfl
    | error e => rfl
  rw [quiet]
  exact .forget (.inr ⟨timed.full, rfl⟩)

def Room (s : Store) (now : Time) : Prop := (s.retainTasks now).tasks.rows.length ≤ maxRecords

theorem Faithful.pruned (faithful : Faithful s past reached) (room : Room s now)
    (pruned : Pruned s now s') : Faithful s' past reached := by
  rcases pruned with rfl | ⟨full, rfl⟩
  · exact faithful
  · exact faithful.shrink (faithful.prune room full)

theorem Faithful.step {timed : Timed} (faithful : Faithful s past reached)
    (later : reached ≤ unixNano timed.clock.now) (room : Room s timed.clock.now) :
    Faithful (s.exec timed).2 (past ++ (published (s.exec timed).1).toList) (unixNano timed.clock.now) := by
  have step := @exec_step s timed
  generalize published (s.exec timed).1 = answer at step
  generalize (s.exec timed).2 = s' at step
  cases step with
  | forget pruned =>
    have kept := faithful.pruned room pruned
    rw [Option.toList_none, append_nil]
    exact { kept with recent := fun e member => (kept.recent e member).trans later }
  | record pruned recorded =>
    have kept := faithful.pruned room pruned
    exact kept.record later (recorded kept.closed)

end

def committed (s : Store) (calls : List Timed) : List EventRow :=
  (transcript Store.exec s calls).filterMap fun e => published e.answer

theorem committed_cons (s : Store) (timed : Timed) (calls : List Timed) :
    committed s (timed :: calls) = (published (s.exec timed).1).toList ++ committed (s.exec timed).2 calls := by
  rw [committed, transcript, filterMap_cons]
  simp only [entry]
  cases published (s.exec timed).1 with
  | none => rfl
  | some e => rfl

theorem unixNano_mono {a b : Clock} (earlier : a.now ≤ b.now) : unixNano a.now ≤ unixNano b.now := by
  rw [UnixNano.le_def, unixNano, unixNano, UnixNano.ofTime_nanos a.lower a.upper,
    UnixNano.ofTime_nanos b.lower b.upper]
  exact earlier

theorem Faithful.run {calls : List Timed} (clock : calls.Pairwise fun a b => a.clock.now ≤ b.clock.now) :
    ∀ {s : Store} {past : List EventRow} {reached : UnixNano}, Faithful s past reached →
      (∀ timed ∈ calls, reached ≤ unixNano timed.clock.now) →
      (∀ e ∈ transcript Store.exec s calls, Room e.state e.input.clock.now) →
        ∃ reached, Faithful (Machine.run Store.exec s calls) (past ++ committed s calls) reached := by
  induction calls with
  | nil =>
    intro s past reached faithful _ _
    exact ⟨reached, by simpa [committed, transcript] using faithful⟩
  | cons timed calls ih =>
    intro s past reached faithful later room
    rw [pairwise_cons] at clock
    have step := faithful.step (later timed mem_cons_self) (room (entry Store.exec s timed) mem_cons_self)
    have reaches : ∀ next ∈ calls, unixNano timed.clock.now ≤ unixNano next.clock.now := by
      intro next member
      exact @unixNano_mono timed.clock next.clock (clock.1 next member)
    rw [committed_cons, ← append_assoc]
    exact ih clock.2 step reaches fun e member => room e (mem_cons_of_mem _ member)

def effectiveLimit (limit : Int) : Nat :=
  if limit ≤ 0 ∨ (maxPageSize : Int) < limit then maxPageSize else limit.toNat

theorem reaches_of_hasGap {first : EventRow} {rest : List EventRow} (cursor : 0 < after)
    (events : s.events = first :: rest) (complete : s.hasGap after = false) : (first.eventID : Int) - 1 ≤ after := by
  rcases Option.isSome_iff_exists.mp (List.getLast?_isSome.mpr (cons_ne_nil first rest)) with ⟨last, is⟩
  simp only [Store.hasGap, cursor, events, List.head?_cons, is, decide_true, Bool.true_and, bool_iff,
    not_lt] at complete
  exact complete.2

theorem events_of_hasGap (cursor : 0 < after) (complete : s.hasGap after = false) : s.events ≠ [] := by
  intro none
  simp [Store.hasGap, cursor, none] at complete

theorem Faithful.replay {past : List EventRow} {reached : UnixNano} {limit : Int}
    (faithful : Faithful s past reached) (cursor : 0 < after) (complete : (s.replay after limit).2 = false) :
    (s.replay after limit).1 = (past.filter fun e => after < (e.eventID : Int)).take (effectiveLimit limit) := by
  have joined : (s.events.filter fun e => s.tasks.rows.any fun t => t.taskID = e.taskID) = s.events := by
    rw [filter_eq_self]
    intro e member
    rcases s.owned e member with ⟨t, present, same⟩
    exact any_eq_true.mpr ⟨t, present, by simp [same]⟩
  cases gap : s.hasGap after with
  | true => simp [Store.replay, gap] at complete
  | false =>
    rcases faithful.suffix with ⟨dropped, split⟩
    -- whatever was dropped lies below the first retained event, which the cursor reaches
    have none : dropped.filter (fun e => after < (e.eventID : Int)) = [] := by
      rw [filter_eq_nil_iff]
      intro e member
      cases events : s.events with
      | nil => exact absurd events (events_of_hasGap cursor gap)
      | cons first rest =>
        have order := faithful.increasing
        rw [← split, events, pairwise_append] at order
        have below := order.2.2 e member first mem_cons_self
        have reaches := reaches_of_hasGap cursor events gap
        simp only [bool_iff, not_lt]
        omega
    simp only [Store.replay, gap, joined]
    rw [← split, filter_append, none, nil_append]
    rfl

/-- No silent loss, as long as the number of tasks does not make one go. -/
theorem replay_complete {calls : List Timed} (clock : calls.Pairwise fun a b => a.clock.now ≤ b.clock.now)
    (room : ∀ e ∈ transcript Store.exec Store.new calls, Room e.state e.input.clock.now) {after limit : Int}
    (cursor : 0 < after) (complete : ((Machine.run Store.exec Store.new calls).replay after limit).2 = false) :
    ((Machine.run Store.exec Store.new calls).replay after limit).1 =
      ((committed Store.new calls).filter fun e => after < (e.eventID : Int)).take (effectiveLimit limit) := by
  have start := faithful_new (unixNano (-2 ^ 63))
  have first : ∀ timed ∈ calls, unixNano (-2 ^ 63) ≤ unixNano timed.clock.now := by
    intro timed _
    exact @unixNano_mono ⟨-2 ^ 63, by decide, by decide⟩ timed.clock timed.clock.lower
  rcases start.run clock first room with ⟨reached, faithful⟩
  exact faithful.replay cursor complete

def epoch : Clock := ⟨0, by decide, by decide⟩

def taskName (n : Nat) : String := String.ofList (hexDigits 32 n)

def atEpoch (call : Call) : Timed := ⟨epoch, fun _ => false, call⟩

def startCall (n : Nat) : Timed := atEpoch (.start (taskName n) "read_file" "http" "" "")

instance (s : Store) (now : Time) : Decidable (Room s now) := inferInstanceAs (Decidable (_ ≤ _))

theorem heartbeat_replayed :
    ((Machine.run Store.exec Store.new [startCall 0, atEpoch (.heartbeat (taskName 0))]).replay 1 10).1 =
      ((committed Store.new [startCall 0, atEpoch (.heartbeat (taskName 0))]).filter fun e =>
        1 < (e.eventID : Int)).take (effectiveLimit 10) :=
  replay_complete (by decide) (by decide) (by decide) (by decide)

section

variable {n : Nat}

theorem taskName_injective {m : Nat} (left : n < 16 ^ 32) (right : m < 16 ^ 32)
    (same : taskName n = taskName m) : n = m :=
  hexDigits_injective left right (String.ofList_injective same)

theorem validate_newRow (n : Nat) (now : Time) :
    (newRow (taskName n) "read_file" "http" "" "" now).validate = .ok () := by
  have named : taskIDPattern.matchString (taskName n) = true := by
    rw [taskIDPattern, Pattern.matchString_singleton, Pattern.matchBlocks_exactly, taskName, String.toList_ofList]
    exact ⟨length_hexDigits 32 n, fun c member => isLowerHex_of_mem_hexDigits member⟩
  have operation : operationPattern.matchString "read_file" = true := by decide
  simp [TaskRow.validate, newRow, named, operation, validControllers]

variable {s : Store}

theorem deleteTasks_of_none {p : TaskRow → Bool} (none : ∀ t ∈ s.tasks, p t = false) : s.deleteTasks p = s := by
  have tasks : s.tasks.delete p = s.tasks := by
    apply Table.ext
    exact List.filter_eq_self.mpr fun t member => by simp [none t member]
  have events : (s.events.filter fun e => !s.tasks.rows.any fun t => p t && t.taskID = e.taskID) = s.events := by
    rw [filter_eq_self]
    intro e _
    simp only [Bool.not_eq_true', any_eq_false, bool_iff, not_and]
    intro t present picked
    rw [none t present] at picked
    cases picked
  exact Store.ext tasks rfl events rfl

/-- Tasks and events of one instant, and no more events than are kept. -/
structure Recent (s : Store) : Prop where
  ended : ∀ t ∈ s.tasks, ∀ ended ∈ t.terminalAt, ended = unixNano 0
  occurred : ∀ e ∈ s.events, e.occurredAt = unixNano 0
  few : s.events.length ≤ maxEvents

theorem Recent.retainTasks (recent : Recent s) : s.retainTasks 0 = s := by
  apply deleteTasks_of_none
  intro t member
  cases ends : t.terminalAt with
  | none => simp [Store.endedBefore, ends]
  | some ended =>
    rw [Store.endedBefore, ends, recent.ended t member ended ends]
    decide

theorem keepEvents_self {events : List EventRow} {fewer : events.Sublist s.events} (same : events = s.events) :
    s.keepEvents events fewer = s := by
  subst same
  rfl

theorem Recent.forgets_none (recent : Recent s) : (s.retainEvents 0).limitEvents = s := by
  have kept : s.retainEvents 0 = s := by
    apply keepEvents_self
    rw [filter_eq_self]
    intro e member
    rw [recent.occurred e member]
    decide
  rw [kept]
  apply keepEvents_self
  rw [Nat.sub_eq_zero_of_le recent.few, drop_zero]

theorem Recent.pruneLocked (recent : Recent s.limitTasks) (same : s.retainTasks 0 = s) :
    s.pruneLocked (fun _ => false) 0 = (.ok (), s.limitTasks) := by
  rw [Store.pruneLocked, same, recent.forgets_none]
  rfl

theorem exists_insertTask {t : TaskRow} (fresh : ∀ u ∈ s.tasks, u.taskID ≠ t.taskID) :
    ∃ s₁ present, s.insertTask t = some ⟨s₁, present⟩ := by
  unfold Store.insertTask
  split
  · rename_i failed
    exfalso
    unfold Table.insert at failed
    rw [dif_pos] at failed
    · cases failed
    simp only [mem_map, not_exists, not_and]
    refine ⟨?_, fresh⟩
    intro u member same
    have bound := s.sequences u member
    omega
  · rename_i tasks inserted
    exact ⟨_, (Table.mem_insert inserted).mpr (.inr rfl), rfl⟩

def firstEvent : EventRow := ⟨1, taskName 0, 1, 1, unixNano 0, .started, .executing, "read_file"⟩

def secondEvent : EventRow := ⟨2, taskName 1, 1, 2, unixNano 0, .started, .executing, "read_file"⟩

/-- The tasks up to `n` were started, and the second one is over. -/
structure Filled (n : Nat) (s : Store) : Prop where
  count : s.tasks.rows.length = n
  names : ∀ t ∈ s.tasks, ∃ k < n, t.taskID = taskName k
  ended : ∀ t ∈ s.tasks, ∀ ended ∈ t.terminalAt, ended = unixNano 0 ∧ t.taskID = taskName 1
  done : ∃ t ∈ s.tasks, t.taskID = taskName 1 ∧ t.terminalAt.isSome = true
  events : ∃ rest, s.events = firstEvent :: secondEvent :: rest
  length : s.events.length = n + 1
  occurred : ∀ e ∈ s.events, e.occurredAt = unixNano 0

theorem Filled.recent (filled : Filled n s) (few : n < maxEvents) : Recent s where
  ended := fun t member ended is => (filled.ended t member ended is).1
  occurred := filled.occurred
  few := by
    rw [filled.length]
    exact few

theorem Filled.start (filled : Filled n s) (few : n ≤ maxRecords) :
    Filled (n + 1) (s.exec (startCall n)).2 := by
  have room : s.limitTasks = s := limitTasks_of_room (by rw [filled.count]; exact few)
  have recent : Recent s := filled.recent (lt_of_le_of_lt few (by decide))
  have quiet : s.pruneLocked (fun _ => false) 0 = (.ok (), s) := by
    have kept := @Recent.pruneLocked s (by rwa [room]) recent.retainTasks
    rwa [room] at kept
  have fresh : ∀ u ∈ s.tasks, u.taskID ≠ (newRow (taskName n) "read_file" "http" "" "" 0).taskID := by
    intro u member same
    rcases filled.names u member with ⟨k, below, named⟩
    have big : maxRecords < 16 ^ 32 := by decide
    have equal := @taskName_injective k n (by omega) (by omega) (named.symm.trans same)
    omega
  rcases exists_insertTask fresh with ⟨s₁, present, inserted⟩
  have result : (s.exec (startCall n)).2 = (s₁.insertEvent _ present .started).2 := by
    simp only [Store.exec, startCall, atEpoch, epoch, validate_newRow, Store.create, quiet, inserted]
  rw [result]
  have done := insertTask_eq_some inserted
  have rows := (Table.insert_eq_some.mp done.1).2.2
  have old_or_new : ∀ t ∈ s₁.tasks, t ∈ s.tasks ∨ t.taskID = taskName n ∧ t.terminalAt = none := by
    intro t member
    rcases (Table.mem_insert done.1).mp member with old | rfl
    · exact .inl old
    · exact .inr ⟨rfl, rfl⟩
  have events : (s₁.insertEvent _ present .started).2.events = s.events ++ [(s₁.insertEvent _ present .started).1] :=
    congrArg (· ++ [_]) done.2.1
  constructor
  case count =>
    change s₁.tasks.rows.length = n + 1
    rw [rows, length_append, filled.count]
    rfl
  case names =>
    intro t member
    rcases old_or_new t member with old | new
    · rcases filled.names t old with ⟨k, below, named⟩
      exact ⟨k, by omega, named⟩
    · exact ⟨n, by omega, new.1⟩
  case ended =>
    intro t member ended is
    rcases old_or_new t member with old | new
    · exact filled.ended t old ended is
    · rw [new.2] at is
      cases is
  case done =>
    rcases filled.done with ⟨t, member, facts⟩
    exact ⟨t, (Table.mem_insert done.1).mpr (.inl member), facts⟩
  case events =>
    rcases filled.events with ⟨rest, split⟩
    rw [events, split]
    exact ⟨_, rfl⟩
  case length => rw [events, length_append, filled.length]; rfl
  case occurred =>
    intro e member
    rw [events] at member
    rcases mem_append.mp member with old | last
    · exact filled.occurred e old
    · rw [mem_singleton.mp last]
      rfl

theorem Filled.starts (count : Nat) (filled : Filled n s) (few : n + count ≤ maxRecords + 1) :
    Filled (n + count) (Machine.run Store.exec s ((range' n count).map startCall)) := by
  induction count generalizing n s with
  | zero => exact filled
  | succ count ih =>
    rw [range'_succ, map_cons, Machine.run_cons]
    have next := ih (filled.start (by omega)) (by omega)
    rwa [Nat.add_right_comm, Nat.add_assoc] at next

theorem deleteTasks_events (p : TaskRow → Bool) :
    (s.deleteTasks p).events = s.events.filter fun e => !s.tasks.rows.any fun t => p t && t.taskID = e.taskID := rfl

theorem Filled.oldest (filled : Filled n s) :
    (∀ t ∈ s.oldestTerminal 1, t.taskID = taskName 1) ∧ s.oldestTerminal 1 ≠ [] := by
  constructor
  · intro t member
    have among := mem_of_mem_take member
    rw [mem_mergeSort, mem_filter, Option.isSome_iff_exists] at among
    rcases among with ⟨present, ended, is⟩
    exact (filled.ended t present ended is).2
  rcases filled.done with ⟨t, present, -, ended⟩
  intro none
  have empty := take_eq_nil_iff.mp none
  rcases empty with zero | nothing
  · cases zero
  · have inside : t ∈ s.tasks.rows.filter fun t => t.terminalAt.isSome := mem_filter.mpr ⟨present, ended⟩
    rw [← mem_mergeSort, nothing] at inside
    cases inside

theorem Filled.limit (filled : Filled (maxRecords + 1) s) :
    Recent s.limitTasks ∧ (∃ rest, s.limitTasks.events = firstEvent :: rest) ∧ secondEvent ∉ s.limitTasks.events := by
  have full : s.limitTasks = s.deleteOldest 1 := by
    rw [Store.limitTasks, filled.count, if_pos (Nat.lt_succ_self _), Nat.add_sub_cancel_left]
  have recent := filled.recent (by decide)
  rcases filled.oldest with ⟨names, some⟩
  rw [full]
  refine ⟨⟨?_, ?_, ?_⟩, ?_, ?_⟩
  · exact fun t member => recent.ended t (Table.mem_delete.mp member).1
  · exact fun e member => recent.occurred e (mem_of_mem_filter member)
  · exact (length_filter_le ..).trans recent.few
  · rcases filled.events with ⟨rest, split⟩
    have stays : (!s.tasks.rows.any fun t =>
        ((s.oldestTerminal 1).any fun old => old.taskID = t.taskID) && t.taskID = firstEvent.taskID) = true := by
      simp only [Bool.not_eq_true', any_eq_false, bool_iff, not_and]
      intro t _ picked same
      rcases List.any_eq_true.mp picked with ⟨old, among, equal⟩
      have named := (of_decide_eq_true equal).symm.trans (names old among)
      have clash := same.symm.trans named
      exact absurd (@taskName_injective 0 1 (by decide) (by decide) clash) (by decide)
    rw [Store.deleteOldest, deleteTasks_events, split, filter_cons, if_pos stays]
    exact ⟨_, rfl⟩
  · intro member
    have kept := (List.mem_filter.mp member).2
    simp only [Bool.not_eq_true', any_eq_false, bool_iff, not_and] at kept
    rcases filled.done with ⟨t, present, named, -⟩
    rcases exists_mem_of_ne_nil _ some with ⟨old, among⟩
    apply kept t present _ named
    exact List.any_eq_true.mpr ⟨old, among, decide_eq_true ((names old among).trans named.symm)⟩

/-- The second of two tasks is completed, tasks are started until there is one too many, and the store is
pruned. -/
def holeCalls : List Timed :=
  [startCall 0, startCall 1, atEpoch (.transition (taskName 1) .completed)] ++
    (range' 2 (maxRecords - 1)).map startCall ++ [atEpoch .prune]

theorem filled_two : Filled 2
    (Machine.run Store.exec Store.new
      [startCall 0, startCall 1, atEpoch (.transition (taskName 1) .completed)]) := by
  constructor
  case count => decide
  case names =>
    change ∀ t ∈ Table.rows _, _
    decide
  case ended =>
    change ∀ t ∈ Table.rows _, _
    decide
  case done =>
    change ∃ t ∈ Table.rows _, _
    decide
  case events => exact ⟨_, rfl⟩
  case length => decide
  case occurred => decide

theorem hole_events :
    (∃ rest, (Machine.run Store.exec Store.new holeCalls).events = firstEvent :: rest) ∧
      secondEvent ∉ (Machine.run Store.exec Store.new holeCalls).events := by
  rw [holeCalls, Machine.run_append, Machine.run_append]
  have filled := filled_two.starts (maxRecords - 1) (by decide)
  generalize Machine.run Store.exec (Machine.run Store.exec Store.new _) _ = s at filled ⊢
  have limited := Filled.limit filled
  have pruned : Machine.run Store.exec s [atEpoch .prune] = s.limitTasks := by
    have result := Recent.pruneLocked limited.1 (filled.recent (by decide)).retainTasks
    rw [Machine.run_cons, Machine.run_nil]
    change (s.pruneLocked (fun _ => false) 0).2 = _
    rw [result]
  rw [pruned]
  exact limited.2

theorem committed_holeCalls : ∃ rest, committed Store.new holeCalls = firstEvent :: secondEvent :: rest := by
  rw [holeCalls, cons_append, cons_append, cons_append, cons_append, committed_cons, committed_cons]
  have first : published (Store.new.exec (startCall 0)).1 = some firstEvent := by decide
  have next : published ((Store.new.exec (startCall 0)).2.exec (startCall 1)).1 = some secondEvent := by decide
  rw [first, next]
  exact ⟨_, rfl⟩

/-- A replay from the first event skips the second without reporting a gap. -/
theorem replay_skips_event : (holeCalls.Pairwise fun a b => a.clock.now ≤ b.clock.now) ∧
    ((Machine.run Store.exec Store.new holeCalls).replay 1 200).2 = false ∧
      ((Machine.run Store.exec Store.new holeCalls).replay 1 200).1 ≠
        ((committed Store.new holeCalls).filter fun e => 1 < (e.eventID : Int)).take (effectiveLimit 200) := by
  have still : ∀ timed ∈ holeCalls, timed.clock.now = 0 := by
    intro timed member
    simp only [holeCalls, mem_append, mem_cons, mem_map, not_mem_nil, or_false] at member
    rcases member with ((rfl | rfl | rfl) | ⟨n, -, rfl⟩) | rfl
    all_goals rfl
  rcases hole_events with ⟨⟨rest, events⟩, gone⟩
  rcases committed_holeCalls with ⟨more, all⟩
  generalize Machine.run Store.exec Store.new holeCalls = s at events gone ⊢
  have gap : s.hasGap 1 = false := by
    rcases Option.isSome_iff_exists.mp (List.getLast?_isSome.mpr (cons_ne_nil firstEvent rest)) with ⟨last, is⟩
    have order := s.ordered
    rw [events, pairwise_cons] at order
    have reached : 1 ≤ last.eventID := by
      rcases List.mem_cons.mp (mem_of_getLast? is) with rfl | later
      · decide
      · exact Nat.le_of_lt (order.1 last later)
    simp only [Store.hasGap, events, List.head?_cons, is, Bool.and_eq_false_iff, bool_iff, not_lt]
    right
    exact ⟨by omega, by decide⟩
  refine ⟨?_, ?_, ?_⟩
  · rw [pairwise_iff_forall_sublist]
    intro a b both
    rw [still a (both.subset (by simp)), still b (both.subset (by simp))]
  · simp [Store.replay, gap]
  intro same
  have expected : secondEvent ∈ (s.replay 1 200).1 := by
    rw [same, all]
    exact mem_cons_self
  simp only [Store.replay, gap] at expected
  exact gone (mem_of_mem_filter (mem_of_mem_filter (mem_of_mem_take expected)))

end

end Aeontra.Taskjournal
