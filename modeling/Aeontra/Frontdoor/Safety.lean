import Aeontra.Frontdoor.Transition

/-!
The safety of front-door transitions over whole histories: any number of runs of one
request, each cut off anywhere, against any behaviour of the platform.
-/

namespace Aeontra.Frontdoor

open Library Process AtMost

def isMutation : Call → Bool
  | .mutate _ => true
  | _ => false

section

theorem atMost_publishLoop (status : Status) (attempts : Nat) :
    (publishLoop status attempts).AtMost isMutation 0 := by
  induction attempts with
  | zero => exact atMost_pure
  | succ attempts ih =>
    refine andThen (atMost_perform (by simp [isMutation])) fun published => ?_
    split
    · exact atMost_pure
    split
    · exact atMost_pure
    refine andThen (atMost_perform (by decide)) fun stopped => ?_
    split
    · exact atMost_pure
    · exact ih

theorem atMost_persist (r : Runner) (status : Status) : (persist r status).AtMost isMutation 0 := by
  refine andThen (atMost_perform (by simp [isMutation])) fun persisted => ?_
  cases persisted with
  | none => exact atMost_pure
  | some persisted =>
    refine andThen (atMost_publishLoop _ _) fun published => ?_
    split
    · exact atMost_pure
    · exact atMost_pure

theorem atMost_persist_then {r : Runner} {status : Status} {rest : Except Problem Status → Program Outcome} {n : Nat}
    (fails : ∀ problem, ∃ out, rest (.error problem) = pure out)
    (goes : ∀ persisted, (rest (.ok persisted)).AtMost isMutation n) :
    (persist r status >>= rest).AtMost isMutation n := by
  refine andThen (atMost_persist r status) fun persisted => ?_
  cases persisted with
  | error problem =>
    obtain ⟨out, same⟩ := fails problem
    exact same ▸ atMost_pure
  | ok persisted => exact goes persisted

theorem atMost_settle (r : Runner) (status : Status) (cause : List Problem) (n : Nat) :
    (settle r status cause).AtMost isMutation n :=
  atMost_persist_then (fun _ => ⟨_, rfl⟩) fun _ => atMost_pure

theorem atMost_execute (target : Target) (phase : Phase) : (execute target phase).AtMost isMutation 1 := by
  unfold execute
  split
  · exact atMost_pure
  refine AtMost.bind (n := 1) (m := 0) (atMost_perform fun _ => Nat.one_pos) fun answer => ?_
  split
  · exact andThen (atMost_perform (by simp [isMutation])) fun healthy => atMost_pure
  · exact atMost_pure

theorem atMost_unless {ask : Program Bool} (free : ask.AtMost isMutation 0) {current : Status}
    {rest : Program Outcome} {n : Nat} (bounded : rest.AtMost isMutation n) :
    (ask >>= fun stopped => if stopped then interruptedTransition current else rest).AtMost isMutation n := by
  refine andThen free fun stopped => ?_
  split
  · exact atMost_pure
  · exact bounded

theorem atMost_contextDone : contextDone.AtMost isMutation 0 := atMost_perform (by decide)

theorem atMost_waitRetry : waitRetry.AtMost isMutation 0 := atMost_perform (by decide)

theorem atMost_readTopology : readTopology.AtMost isMutation 0 := atMost_perform (by decide)

theorem atMost_runCompensation (r : Runner) (cause : List Problem) (attempts : Nat) (current : Status)
    (last : Problem) : (runCompensation r cause attempts current last).AtMost isMutation attempts := by
  induction attempts generalizing current last with
  | zero => exact atMost_settle _ _ _ _
  | succ attempts ih =>
    have retry : ∀ current last, (waitRetry >>= fun stopped => if stopped then interruptedTransition current
        else runCompensation r cause attempts current last).AtMost isMutation attempts := fun current last =>
      atMost_unless atMost_waitRetry (ih current last)
    unfold runCompensation
    refine atMost_unless atMost_contextDone (andThen atMost_readTopology fun read => ?_)
    cases read with
    | none => exact (atMost_unless atMost_contextDone (retry _ _)).mono (Nat.le_succ attempts)
    | some topology =>
      dsimp only
      split
      · exact atMost_settle _ _ _ _
      · exact atMost_settle _ _ _ _
      refine atMost_persist_then (fun _ => ⟨_, rfl⟩) fun current => ?_
      rw [Nat.add_comm]
      refine AtMost.bind (atMost_execute _ _) fun done => ?_
      split
      · refine andThen atMost_readTopology fun read => ?_
        cases read with
        | none => exact atMost_unless atMost_contextDone (retry _ _)
        | some topology =>
          refine atMost_persist_then (fun _ => ⟨_, rfl⟩) fun current => ?_
          exact ih _ _
      · refine atMost_unless atMost_contextDone (andThen atMost_readTopology fun read => ?_)
        cases read with
        | none => exact atMost_unless atMost_contextDone (retry _ _)
        | some observed =>
          refine atMost_persist_then (fun _ => ⟨_, rfl⟩) fun current => ?_
          exact retry _ _

theorem atMost_compensate (r : Runner) (current : Status) (reason : String) (cause : Problem) :
    (compensate r current reason cause).AtMost isMutation compensationPhaseBudget := by
  unfold compensate
  split
  · exact atMost_settle _ _ _ _
  refine atMost_persist_then (fun _ => ⟨_, rfl⟩) fun compensating => ?_
  exact atMost_runCompensation _ _ _ _ _

theorem atMost_transition (r : Runner) (target : Target) (attempts : Nat) (current : Status) :
    (transition r target attempts current).AtMost isMutation (attempts + compensationPhaseBudget) := by
  induction attempts generalizing current with
  | zero =>
    unfold transition
    split
    · exact atMost_settle _ _ _ _
    · exact (atMost_compensate _ _ _ _).mono (Nat.le_add_left _ _)
  | succ attempts ih =>
    have compensates : ∀ current reason cause, (compensate r current reason cause).AtMost isMutation
        (attempts + compensationPhaseBudget) := fun current reason cause =>
      (atMost_compensate r current reason cause).mono (Nat.le_add_left _ _)
    have wider : attempts + compensationPhaseBudget ≤ attempts + 1 + compensationPhaseBudget := by omega
    unfold transition
    refine atMost_unless atMost_contextDone (andThen atMost_readTopology fun read => ?_)
    cases read with
    | none =>
      exact (atMost_unless atMost_contextDone (atMost_unless atMost_waitRetry (ih _))).mono wider
    | some topology =>
      dsimp only
      split
      · split
        · exact atMost_settle _ _ _ _
        · exact (compensates _ _ _).mono wider
      · exact atMost_settle _ _ _ _
      refine atMost_persist_then (fun _ => ⟨_, rfl⟩) fun current => ?_
      rw [Nat.add_comm attempts 1, Nat.add_assoc]
      refine AtMost.bind (atMost_execute _ _) fun done => ?_
      split
      · refine andThen atMost_readTopology fun read => ?_
        cases read with
        | none => exact atMost_unless atMost_contextDone (compensates _ _ _)
        | some topology =>
          refine atMost_persist_then (fun _ => ⟨_, rfl⟩) fun current => ?_
          exact ih _
      · exact atMost_unless atMost_contextDone (compensates _ _ _)

theorem atMost_run (r : Runner) (target : Target) : (run r target).AtMost isMutation 24 := by
  have goes : ∀ current, (transition r target transitionBudget current).AtMost isMutation 24 := fun current =>
    atMost_transition r target transitionBudget current
  have republishes : ∀ current cause, (republish r current cause).AtMost isMutation 24 := by
    intro current cause
    refine andThen (atMost_publishLoop _ _) fun published => ?_
    split
    · exact atMost_pure
    · exact atMost_pure
  unfold run
  split
  · exact atMost_pure
  split
  · exact atMost_pure
  refine andThen (atMost_perform (by decide)) fun read => ?_
  cases read with
  | none => exact atMost_pure
  | some current =>
    dsimp only
    split
    · split
      · exact atMost_pure
      · split
        · exact goes _
        · exact goes _
        · unfold resumeCompensation
          split
          · exact atMost_pure
          · split
            · exact atMost_pure
            · exact (atMost_runCompensation _ _ _ _ _).mono (by decide)
        · exact republishes _ _
        · exact republishes _ _
        · exact atMost_pure
        · exact atMost_pure
    · split
      · exact atMost_pure
      · refine andThen (atMost_persist _ _) fun persisted => ?_
        cases persisted with
        | error problem => exact atMost_pure
        | ok current => exact goes _

end

/-- Runs of one request, each for a target and with the choices of the environment up to the
point where it was cut off. -/
abbrev History := List (Target × List Choice)

def History.session (r : Runner) (history : History) : List (Program Outcome × List Choice) :=
  history.map fun entry => (run r entry.1, entry.2)

def History.events (r : Runner) (w : World) (history : History) : List (Event Call World) :=
  sessionEvents environment (history.session r) w

structure History.Safe (r : Runner) (w : World) (history : History) : Prop where
  managed : ∀ e ∈ history.events r w, e.before.topology.Managed ∧ e.after.topology.Managed
  consistent : ∀ e ∈ history.events r w, e.before.topology.Consistent ∧ e.after.topology.Consistent
  readable : ∀ e ∈ history.events r w,
    validateStatus e.before.journal = .ok () ∧ validateStatus e.after.journal = .ok ()
  journaled : ∀ e ∈ history.events r w, e.after.journal ≠ e.before.journal →
    Journaled e.after.journal e.after.topology
  recovering : (history.events r w).Pairwise fun e later =>
    e.after.journal.requestID = r.requestID → e.after.journal.state = .compensating →
      ∀ mutation, later.op = .mutate mutation → ∃ recovery,
        oppositeTarget e.after.journal.target = .ok recovery ∧ Executes recovery later.before.topology mutation
  bounded : ∀ target choices before,
    (((run r target).events environment choices before).filter fun e => isMutation e.op).length ≤ 24

/-- From any managed topology and any valid journal of other requests, every history of runs
of a request is safe. -/
theorem history_safe (r : Runner) (w : World) (history : History) (managed : w.topology.Managed)
    (valid : validateStatus w.journal = .ok ()) (other : w.journal.requestID ≠ r.requestID) :
    history.Safe r w := by
  have start : Sound r.requestID w := ⟨managed, valid, fun same => absurd same other⟩
  have permitted : SessionPermitted environment (rules r.requestID) (history.session r) w :=
    sessionPermitted_of_choices (fun _ _ _ (_ : True) => trivial) (fun _ _ _ _ => trivial) _
  have each : ∀ entry ∈ history.session r, ∀ w, Sound r.requestID w →
      entry.1.Ensures environment (rules r.requestID) (fun _ after => Sound r.requestID after) w := by
    intro entry member w sound
    obtain ⟨input, -, rfl⟩ := List.mem_map.mp member
    exact ensures_run r input.1 sound
  have allowed : ∀ e ∈ history.events r w, Allowed r.requestID e := (session_keeps each start permitted).1
  refine ⟨fun e member => ⟨(allowed e member).before.managed, (allowed e member).after.managed⟩,
    fun e member => ⟨(allowed e member).before.managed.consistent, (allowed e member).after.managed.consistent⟩,
    fun e member => ⟨(allowed e member).before.valid, (allowed e member).after.valid⟩,
    fun e member => (allowed e member).journaled, ?_, fun target choices before => (atMost_run r target).events _ _⟩
  have chained := sessionEvents_chained environment (history.session r) w
  have settles := chained.pairwise fun target e member => (allowed e member).settling target
  refine settles.imp_of_mem fun {e later} _ laterMember settles request state mutation executes => ?_
  have settling := settles e.after.journal.target ⟨request, rfl, .inl state⟩
  obtain ⟨target, executed, recovers⟩ := (allowed later laterMember).executed mutation executes
  exact ⟨target, recovers _ settling, executed⟩

def sampleRunner : Runner := ⟨"abcdefghijklmnopqrstuvwxyzABCDEFGHIJKLMNOPQ", 1⟩

def sampleWorld : World := ⟨⟨frontTemporaryOrigin, frontPublicOrigin, frontPublicOrigin⟩, idleStatus⟩

def fine : Choice := {}

/-- A cutover whose second mutation takes effect but is reported as a failure, cut off in the
middle of its compensation and run again. -/
def sampleHistory : History :=
  [(.cutover, List.replicate 16 fine ++ { fine with reported := false } :: List.replicate 6 fine),
    (.cutover, List.replicate 60 fine)]

theorem history_safe_sample :
    sampleHistory.Safe sampleRunner sampleWorld ∧
      (sessionState environment (sampleHistory.session sampleRunner) sampleWorld).journal.reason =
        "switch-front-backend_failed_compensated" :=
  ⟨history_safe sampleRunner sampleWorld sampleHistory ⟨.initial, trimmed_temporary, trimmed_public, normalize_public⟩
    (by rfl) (by decide), by rfl⟩

end Aeontra.Frontdoor
