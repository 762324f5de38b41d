import Aeontra.Frontdoor.Runner
import Aeontra.Frontdoor.Stages

/-!
What holds of a front-door transition however the platform behaves, wherever it is
interrupted and however often the same request is run again.
-/

namespace Aeontra.Frontdoor

open Library Process

def Compensated (reason : String) : Prop := chars "_compensated" <:+ chars reason

/-- What the world satisfies whenever the runner of a request asks for something. -/
structure Sound (id : String) (w : World) : Prop where
  managed : w.topology.Managed
  valid : validateStatus w.journal = .ok ()
  pending : w.journal.requestID = id → w.journal.state = .compensating → ¬ Compensated w.journal.reason

structure Settling (id : String) (target : Target) (w : World) : Prop where
  request : w.journal.requestID = id
  target : w.journal.target = target
  state : w.journal.state = .compensating ∨ w.journal.state = .failed

/-- A status that may be journaled while the platform holds a topology. -/
structure Journaled (status : Status) (t : Topology) : Prop where
  valid : validateStatus status = .ok ()
  succeeded : status.state = .succeeded → t.Reads (Stage.final status.target)
  compensated : Compensated status.reason →
    ∃ recovery, oppositeTarget status.target = .ok recovery ∧ t.Reads (Stage.final recovery)

/-- The mutation is that of the phase which leads from a topology towards a target. -/
def Executes (target : Target) (t : Topology) (mutation : Mutation) : Prop :=
  ∃ phase found, nextPhase target t = .ok (phase, false) ∧ step target phase = some found ∧
    found.mutation = mutation

structure Allowed (id : String) (e : Event Call World) : Prop where
  before : Sound id e.before
  after : Sound id e.after
  journaled : e.after.journal ≠ e.before.journal → Journaled e.after.journal e.after.topology
  executed : ∀ mutation, e.op = .mutate mutation → ∃ target, Executes target e.before.topology mutation ∧
    ∀ settled, Settling id settled e.before → oppositeTarget settled = .ok target
  settling : ∀ target, Settling id target e.before → Settling id target e.after

def rules (id : String) : Rules Call World Choice where
  may := fun _ _ _ => True
  holds := Sound id
  allows := Allowed id

abbrev Safe {α : Type} (id : String) (p : Program α) (w : World) : Prop :=
  p.Ensures environment (rules id) (fun _ after => Sound id after) w

section

variable {status current next : Status} {now : Time}

theorem valid_target (valid : validateStatus status = .ok ()) (active : status.state ≠ .idle) :
    status.target.Moving ∧ ∃ recovery, oppositeTarget status.target = .ok recovery ∧
      validateState status recovery = .ok () := by
  unfold validateStatus at valid
  rw [if_neg active] at valid
  simp only [ok_iff] at valid
  obtain ⟨-, -, -, -, -, -, -, moving, recovery, opposite, checked⟩ := valid
  refine ⟨?_, recovery, opposite, checked⟩
  cases target : status.target with
  | cutover => exact .inl rfl
  | rollback => exact .inr rfl
  | unset => rw [target] at opposite; cases opposite
  | idle => rw [target] at opposite; cases opposite

theorem valid_compensating (valid : validateStatus status = .ok ()) (state : status.state = .compensating) :
    status.target.Moving ∧ oppositeTarget status.target = .ok status.recoveryTarget := by
  obtain ⟨moving, recovery, opposite, checked⟩ := valid_target valid (by rw [state]; decide)
  unfold validateState at checked
  rw [state] at checked
  simp only [ok_iff, bool_iff, bne_eq_false_iff_eq] at checked
  exact ⟨moving, by rw [checked.1.1, opposite]⟩

theorem opposite_moving {target recovery : Target} (opposite : oppositeTarget target = .ok recovery) :
    recovery.Moving := by
  cases target with
  | cutover => cases opposite; exact .inr rfl
  | rollback => cases opposite; exact .inl rfl
  | unset => cases opposite
  | idle => cases opposite

end

section

theorem not_compensated_append (front back : String)
    (long : (chars "_compensated").length ≤ (chars back).length) (other : ¬ Compensated back) :
    ¬ Compensated (front ++ back) := by
  intro ends
  refine other (List.suffix_of_suffix_length_le ends ?_ long)
  simp only [chars_eq_toList, String.toList_append]
  exact List.suffix_append _ _

instance (reason : String) : Decidable (Compensated reason) := by
  unfold Compensated
  infer_instance

theorem not_compensated_empty : ¬ Compensated "" := by decide

theorem phase_not_compensated (phase : Phase) : ¬ Compensated (phase.text ++ "_failed") := by
  cases phase <;> decide

end

structure Fit (id : String) (w : World) (next : Status) : Prop where
  succeeded : next.state = .succeeded → w.topology.Reads (Stage.final next.target)
  compensated : Compensated next.reason →
    ∃ recovery, oppositeTarget next.target = .ok recovery ∧ w.topology.Reads (Stage.final recovery)
  pending : next.state = .compensating → ¬ Compensated next.reason
  settling : ∀ target, Settling id target w →
    next.requestID = id ∧ next.target = target ∧ (next.state = .compensating ∨ next.state = .failed)

section

variable {id : String} {w : World}

theorem allowed_unchanged {call : Call} (still : ∀ mutation, call ≠ .mutate mutation) (sound : Sound id w) :
    Allowed id ⟨call, w, w⟩ where
  before := sound
  after := sound
  journaled := fun changed => absurd rfl changed
  executed := fun mutation same => absurd same (still mutation)
  settling := fun _ settling => settling

theorem ensures_readTopology (sound : Sound id w) :
    readTopology.Ensures environment (rules id)
      (fun answer after => after = w ∧ ∀ t, answer = some t → t = w.topology) w := by
  refine ensures_perform sound fun choice _ => ⟨allowed_unchanged (by simp) sound, rfl, ?_⟩
  intro t read
  change (if choice.reported then some w.topology else none) = some t at read
  split at read
  · exact (Option.some.inj read).symm
  · cases read

theorem ensures_readJournal (sound : Sound id w) :
    readJournal.Ensures environment (rules id)
      (fun answer after => after = w ∧ ∀ status, answer = some status → status = w.journal) w := by
  have unchanged : ∀ choice, react .readJournal choice w =
      (if choice.reported then some w.journal else none, w) := by
    intro choice
    simp only [react, sound.valid]
  refine ensures_perform sound fun choice _ => ?_
  change Allowed id ⟨.readJournal, w, (react .readJournal choice w).2⟩ ∧
    (react .readJournal choice w).2 = w ∧ ∀ status, (react .readJournal choice w).1 = some status → _
  rw [unchanged]
  refine ⟨allowed_unchanged (by simp) sound, rfl, ?_⟩
  intro status read
  dsimp only at read
  split at read
  · exact (Option.some.inj read).symm
  · cases read

theorem ensures_contextDone (sound : Sound id w) :
    contextDone.Ensures environment (rules id) (fun _ after => after = w) w :=
  ensures_perform sound fun _ _ => ⟨allowed_unchanged (by simp) sound, rfl⟩

theorem ensures_waitRetry (sound : Sound id w) :
    waitRetry.Ensures environment (rules id) (fun _ after => after = w) w :=
  ensures_perform sound fun _ _ => ⟨allowed_unchanged (by simp) sound, rfl⟩

theorem ensures_publishOnce (status : Status) (sound : Sound id w) :
    (publishOnce status).Ensures environment (rules id) (fun _ after => after = w) w :=
  ensures_perform sound fun _ _ => ⟨allowed_unchanged (by simp) sound, rfl⟩

theorem ensures_runProbe (probe : Probe) (sound : Sound id w) :
    (runProbe probe).Ensures environment (rules id) (fun _ after => after = w) w :=
  ensures_perform sound fun _ _ => ⟨allowed_unchanged (by simp) sound, rfl⟩

theorem ensures_publishLoop (status : Status) (attempts : Nat) (sound : Sound id w) :
    (publishLoop status attempts).Ensures environment (rules id) (fun _ after => after = w) w := by
  induction attempts with
  | zero => exact ensures_pure rfl
  | succ attempts ih =>
    refine (ensures_publishOnce status sound).bind fun published after same => ?_
    subst same
    split
    · exact ensures_pure rfl
    split
    · exact ensures_pure rfl
    refine (ensures_waitRetry sound).bind fun stopped after same => ?_
    subst same
    split
    · exact ensures_pure rfl
    · exact ih

structure Offered (id : String) (w : World) (next : Status) (answer : Option Status) (after : World) : Prop where
  sound : Sound id after
  topology : after.topology = w.topology
  written : ∀ status, answer = some status →
    after.journal = status ∧ ∃ now, status = stamp w.journal next now

variable {next : Status} {r : Runner}

theorem ensures_advanceJournal (sound : Sound id w) (fit : Fit id w next) :
    (advanceJournal next).Ensures environment (rules id) (Offered id w next) w := by
  refine ensures_perform sound fun choice _ => ?_
  change Allowed id ⟨.advance next, w, (advance next choice w).2⟩ ∧
    Offered id w next (advance next choice w).1 (advance next choice w).2
  have refused : Allowed id ⟨.advance next, w, w⟩ ∧ Offered id w next none w :=
    ⟨allowed_unchanged (by simp) sound, sound, rfl, fun _ none => by cases none⟩
  unfold advance
  rw [sound.valid]
  cases valid : validateStatus (stamp w.journal next choice.now) with
  | error message => exact refused
  | ok checked =>
    dsimp only
    split
    · have kept : Sound id { w with journal := stamp w.journal next choice.now } :=
        ⟨sound.managed, valid, fun _ state => fit.pending state⟩
      refine ⟨⟨sound, kept, fun _ => ⟨valid, fit.succeeded, fit.compensated⟩, by simp, ?_⟩, kept, rfl, ?_⟩
      · intro target settling
        obtain ⟨request, same, state⟩ := fit.settling target settling
        exact ⟨request, same, state⟩
      intro status answered
      dsimp only at answered
      split at answered
      · exact ⟨Option.some.inj answered, choice.now, (Option.some.inj answered).symm⟩
      · cases answered
    · exact refused

theorem ensures_persist (sound : Sound id w) (fit : Fit id w next) :
    (persist r next).Ensures environment (rules id)
      (fun answer after => Offered id w next answer.toOption after) w := by
  refine (ensures_advanceJournal sound fit).bind fun answer after offered => ?_
  cases answer with
  | none => exact ensures_pure offered
  | some status =>
    refine (ensures_publishLoop _ _ offered.sound).bind fun published later same => ?_
    subst same
    split
    · exact ensures_pure offered
    · exact ensures_pure ⟨offered.sound, offered.topology, fun _ none => by cases none⟩

theorem ensures_persist_then {α : Type} {rest : Except Problem Status → Program α} (sound : Sound id w)
    (fit : Fit id w next) (fails : ∀ problem, ∃ out, rest (.error problem) = pure out)
    (goes : ∀ status after, Offered id w next (some status) after → Safe id (rest (.ok status)) after) :
    Safe id (persist r next >>= rest) w := by
  refine (ensures_persist sound fit).bind fun answer after offered => ?_
  cases answer with
  | error problem =>
    obtain ⟨out, same⟩ := fails problem
    rw [same]
    exact ensures_pure offered.sound
  | ok status => exact goes status after offered

theorem ensures_settle {cause : List Problem} (sound : Sound id w) (fit : Fit id w next) :
    Safe id (settle r next cause) w := by
  exact ensures_persist_then sound fit (fun _ => ⟨_, rfl⟩) fun _ _ offered => ensures_pure offered.sound

end

theorem Topology.Reads.step {t : Topology} {stage : Stage} (reads : t.Reads stage) {target : Target}
    (moving : target.Moving) (more : stage ≠ Stage.final target) :
    ∃ found, Frontdoor.step target (stage.phase target) = some found ∧
      (found.mutation.apply t).Reads (stage.advance target) := by
  rcases moving with rfl | rfl
  · cases stage with
    | initial => exact ⟨_, rfl, reads.front, reads.backendURL, normalize_both⟩
    | added => exact ⟨_, rfl, trimmed_temporary, trimmed_backend, reads.backend⟩
    | switched => exact ⟨_, rfl, reads.front, reads.backendURL, normalize_backend⟩
    | released => exact ⟨_, rfl, trimmed_public, trimmed_backend, reads.backend⟩
    | assigned => exact absurd rfl more
  · cases stage with
    | initial => exact absurd rfl more
    | added => exact ⟨_, rfl, reads.front, reads.backendURL, normalize_public⟩
    | switched => exact ⟨_, rfl, trimmed_temporary, trimmed_public, reads.backend⟩
    | released => exact ⟨_, rfl, reads.front, reads.backendURL, normalize_swapped⟩
    | assigned => exact ⟨_, rfl, trimmed_temporary, trimmed_backend, reads.backend⟩

section

variable {id : String} {w : World}

variable {target : Target} {cause : List Problem} {current : Status} {r : Runner} {rest : Program Outcome}
  {reason : String}

theorem ensures_execute {stage : Stage} (sound : Sound id w) (reads : w.topology.Reads stage)
    (moving : target.Moving) (more : stage ≠ Stage.final target)
    (recovers : ∀ settled, Settling id settled w → oppositeTarget settled = .ok target) :
    (execute target (stage.phase target)).Ensures environment (rules id)
      (fun _ after => Sound id after ∧ after.journal = w.journal) w := by
  obtain ⟨found, isStep, leads⟩ := reads.step moving more
  have accepted := reads.nextPhase moving
  rw [decide_eq_false more] at accepted
  have moved : Sound id { w with topology := found.mutation.apply w.topology } :=
    ⟨⟨_, leads⟩, sound.valid, sound.pending⟩
  unfold execute
  rw [isStep]
  refine ensures_via (fun _ after => Sound id after ∧ after.journal = w.journal) ?_ ?_
  · refine ensures_perform sound fun choice _ => ?_
    have executed : ∀ mutation, Call.mutate found.mutation = .mutate mutation →
        ∃ target, Executes target w.topology mutation ∧
          ∀ settled, Settling id settled w → oppositeTarget settled = .ok target := by
      intro mutation same
      cases same
      exact ⟨target, ⟨_, found, accepted, isStep, rfl⟩, recovers⟩
    change Allowed id ⟨.mutate found.mutation, w,
        if choice.applied then { w with topology := found.mutation.apply w.topology } else w⟩ ∧
      Sound id (if choice.applied then { w with topology := found.mutation.apply w.topology } else w) ∧
      (if choice.applied then { w with topology := found.mutation.apply w.topology } else w).journal = w.journal
    cases choice.applied with
    | true =>
      exact ⟨⟨sound, moved, fun changed => absurd rfl changed, executed,
        fun _ settling => ⟨settling.request, settling.target, settling.state⟩⟩, moved, rfl⟩
    | false =>
      exact ⟨⟨sound, sound, fun changed => absurd rfl changed, executed, fun _ settling => settling⟩, sound, rfl⟩
  · rintro answer after ⟨sound, same⟩
    split
    · refine (ensures_runProbe _ sound).bind fun healthy later unchanged => ?_
      subst unchanged
      exact ensures_pure ⟨sound, same⟩
    · exact ensures_pure ⟨sound, same⟩

/-- The journal holds the status the loop works with, and that status is compensating. -/
structure Recovering (id : String) (current : Status) (w : World) : Prop where
  sound : Sound id w
  journal : w.journal = current
  request : current.requestID = id
  state : current.state = .compensating

namespace Recovering

variable {current : Status}

variable (recovering : Recovering id current w)

include recovering

theorem opposite : oppositeTarget current.target = .ok current.recoveryTarget := by
  have valid := recovering.sound.valid
  rw [recovering.journal] at valid
  exact (valid_compensating valid recovering.state).2

theorem moving : current.recoveryTarget.Moving := opposite_moving recovering.opposite

theorem pending : ¬ Compensated current.reason := by
  have pending := recovering.sound.pending
  rw [recovering.journal] at pending
  exact pending recovering.request recovering.state

theorem settled {target : Target} (settling : Settling id target w) : current.target = target := by
  rw [← recovering.journal]
  exact settling.target

theorem recovers : ∀ settled, Settling id settled w → oppositeTarget settled = .ok current.recoveryTarget := by
  intro settled settling
  rw [← recovering.settled settling]
  exact recovering.opposite

theorem fit_compensating (phase : Phase) (topology : Topology)
    (deploymentID : String) : Fit id w (compensatingStatus current phase topology deploymentID) where
  succeeded := nofun
  compensated := fun ends => absurd ends recovering.pending
  pending := fun _ => recovering.pending
  settling := fun _ settling => ⟨recovering.request, recovering.settled settling, .inl rfl⟩

theorem next {after : World} {status : Status} {phase : Phase} {topology : Topology} {deploymentID : String}
    (offered : Offered id w (compensatingStatus current phase topology deploymentID) (some status) after) :
    Recovering id status after ∧ status.recoveryTarget = current.recoveryTarget := by
  obtain ⟨journal, now, rfl⟩ := offered.written status rfl
  exact ⟨⟨offered.sound, journal, recovering.request, rfl⟩, rfl⟩

end Recovering

theorem ensures_interrupted (current : Status) (sound : Sound id w) :
    Safe id (interruptedTransition current) w :=
  ensures_pure sound

theorem ensures_compensationFailed {suffix : String} {problem : Problem} (recovering : Recovering id current w)
    (long : (chars "_compensated").length ≤ (chars suffix).length) (other : ¬ Compensated suffix) :
    Safe id (compensationFailed r current cause suffix problem) w := by
  refine ensures_settle recovering.sound ⟨nofun, fun ends => ?_,
    nofun, fun _ settling => ⟨recovering.request, recovering.settled settling, .inr rfl⟩⟩
  exact absurd ends (not_compensated_append _ _ long other)

theorem ensures_retry (sound : Sound id w) (goes : Safe id rest w) :
    Safe id (waitRetry >>= fun stopped => if stopped then interruptedTransition current else rest) w := by
  refine (ensures_waitRetry sound).bind fun stopped after same => ?_
  subst same
  split
  · exact ensures_interrupted current sound
  · exact goes

theorem ensures_unless_done (sound : Sound id w) (goes : Safe id rest w) :
    Safe id (contextDone >>= fun stopped => if stopped then interruptedTransition current else rest) w := by
  refine (ensures_contextDone sound).bind fun stopped after same => ?_
  subst same
  split
  · exact ensures_interrupted current sound
  · exact goes

theorem ensures_runCompensation (attempts : Nat) {last : Problem} (recovering : Recovering id current w) :
    Safe id (runCompensation r cause attempts current last) w := by
  induction attempts generalizing w current last with
  | zero => exact ensures_compensationFailed recovering (by decide) (by decide)
  | succ attempts ih =>
    unfold runCompensation
    refine ensures_unless_done recovering.sound ?_
    refine (ensures_readTopology recovering.sound).bind ?_
    rintro read _ ⟨rfl, seen⟩
    cases read with
    | none => exact ensures_unless_done recovering.sound (ensures_retry recovering.sound (ih recovering))
    | some topology =>
      rw [seen topology rfl]
      obtain ⟨stage, reads⟩ := recovering.sound.managed
      dsimp only
      rw [reads.nextPhase recovering.moving]
      by_cases reached : stage = Stage.final current.recoveryTarget
      · -- the recovery target is reached: the compensation is reported here and only here
        rw [decide_eq_true reached]
        subst reached
        exact ensures_settle recovering.sound ⟨nofun,
          fun _ => ⟨_, recovering.opposite, reads⟩, nofun,
          fun _ settling => ⟨recovering.request, recovering.settled settling, .inr rfl⟩⟩
      rw [decide_eq_false reached]
      refine ensures_persist_then recovering.sound (recovering.fit_compensating _ _ _) (fun _ => ⟨_, rfl⟩)
        fun status written offered => ?_
      obtain ⟨continuing, same⟩ := recovering.next offered
      rw [← same] at reached
      have readsNow : written.topology.Reads stage := by rw [offered.topology]; exact reads
      refine ensures_via (fun _ after => Recovering id status after) ?_ ?_
      · rw [← same]
        refine (ensures_execute continuing.sound readsNow continuing.moving reached continuing.recovers).mono ?_
        rintro _ after ⟨sound, kept⟩
        exact ⟨sound, kept.trans continuing.journal, continuing.request, continuing.state⟩
      intro done after recovering
      split
      · refine (ensures_readTopology recovering.sound).bind ?_
        rintro read _ ⟨rfl, -⟩
        cases read with
        | none =>
          exact ensures_unless_done recovering.sound
            (ensures_retry recovering.sound (ih recovering))
        | some topology =>
          refine ensures_persist_then recovering.sound (recovering.fit_compensating _ _ _) (fun _ => ⟨_, rfl⟩)
            fun status written offered => ?_
          exact ih (recovering.next offered).1
      · refine ensures_unless_done recovering.sound ?_
        refine (ensures_readTopology recovering.sound).bind ?_
        rintro read _ ⟨rfl, -⟩
        cases read with
        | none =>
          exact ensures_unless_done recovering.sound
            (ensures_retry recovering.sound (ih recovering))
        | some observed =>
          refine ensures_persist_then recovering.sound (recovering.fit_compensating _ _ _) (fun _ => ⟨_, rfl⟩)
            fun status written offered => ?_
          have continuing := (recovering.next offered).1
          exact ensures_retry continuing.sound (ih continuing)

/-- The journal holds the status the loop works with, and the request is still going forward. -/
structure Working (id : String) (current : Status) (w : World) : Prop where
  sound : Sound id w
  journal : w.journal = current
  request : current.requestID = id
  state : current.state = .queued ∨ current.state = .running

namespace Working

variable {current : Status}

theorem not_settling (working : Working id current w) {target : Target} : ¬ Settling id target w := by
  intro settling
  have state := settling.state
  rw [working.journal] at state
  rcases working.state with queued | running
  · rw [queued] at state
    rcases state with state | state <;> cases state
  · rw [running] at state
    rcases state with state | state <;> cases state

theorem opposite (working : Working id current w) : ∃ recovery, oppositeTarget current.target = .ok recovery := by
  have valid := working.sound.valid
  rw [working.journal] at valid
  have active : current.state ≠ .idle := by
    rcases working.state with state | state <;> rw [state] <;> decide
  obtain ⟨-, recovery, opposite, -⟩ := valid_target valid active
  exact ⟨recovery, opposite⟩

theorem fit {next : Status} (working : Working id current w)
    (succeeded : next.state = .succeeded → w.topology.Reads (Stage.final next.target))
    (reason : ¬ Compensated next.reason) : Fit id w next :=
  ⟨succeeded, fun ends => absurd ends reason, fun _ => reason,
    fun _ settling => absurd settling working.not_settling⟩

end Working

theorem ensures_fail (working : Working id current w) (other : ¬ Compensated reason) :
    Safe id (fail r current reason cause) w :=
  ensures_settle working.sound (working.fit nofun other)

theorem ensures_compensate {cause : Problem} (working : Working id current w) (other : ¬ Compensated reason) :
    Safe id (compensate r current reason cause) w := by
  obtain ⟨recovery, opposite⟩ := working.opposite
  unfold compensate
  rw [opposite]
  refine ensures_persist_then working.sound (working.fit nofun other) (fun _ => ⟨_, rfl⟩)
    fun status written offered => ?_
  obtain ⟨journal, now, rfl⟩ := offered.written status rfl
  exact ensures_runCompensation _ ⟨offered.sound, journal, working.request, rfl⟩

theorem Offered.working {phase : Phase} {topology : Topology}
    {deploymentID : String} {status : Status} {after : World}
    (offered : Offered r.requestID w (runningStatus r target phase topology deploymentID) (some status) after) :
    Working r.requestID status after := by
  obtain ⟨journal, now, rfl⟩ := offered.written status rfl
  exact ⟨offered.sound, journal, rfl, .inr rfl⟩

theorem ensures_transition (moving : target.Moving) (attempts : Nat) (working : Working r.requestID current w) :
    Safe r.requestID (transition r target attempts current) w := by
  induction attempts generalizing w current with
  | zero =>
    unfold transition
    split
    · exact ensures_fail working (by decide)
    · exact ensures_compensate working (by decide)
  | succ attempts ih =>
    unfold transition
    refine ensures_unless_done working.sound ?_
    refine (ensures_readTopology working.sound).bind ?_
    rintro read _ ⟨rfl, seen⟩
    cases read with
    | none => exact ensures_unless_done working.sound (ensures_retry working.sound (ih working))
    | some topology =>
      rw [seen topology rfl]
      obtain ⟨stage, reads⟩ := working.sound.managed
      dsimp only
      rw [reads.nextPhase moving]
      by_cases reached : stage = Stage.final target
      · rw [decide_eq_true reached]
        subst reached
        exact ensures_settle working.sound (working.fit (fun _ => reads) not_compensated_empty)
      rw [decide_eq_false reached]
      refine ensures_persist_then working.sound (working.fit nofun not_compensated_empty) (fun _ => ⟨_, rfl⟩)
        fun status written offered => ?_
      have going := offered.working
      have readsNow : written.topology.Reads stage := by rw [offered.topology]; exact reads
      refine ensures_via (fun _ after => Working r.requestID status after) ?_ ?_
      · refine (ensures_execute going.sound readsNow moving reached
          (fun _ settling => absurd settling going.not_settling)).mono ?_
        rintro _ after ⟨sound, kept⟩
        exact ⟨sound, kept.trans going.journal, going.request, going.state⟩
      intro done after working
      split
      · refine (ensures_readTopology working.sound).bind ?_
        rintro read _ ⟨rfl, -⟩
        cases read with
        | none =>
          exact ensures_unless_done working.sound (ensures_compensate working (by decide))
        | some topology =>
          refine ensures_persist_then working.sound (working.fit nofun not_compensated_empty) (fun _ => ⟨_, rfl⟩)
            fun status written offered => ?_
          exact ih offered.working
      · exact ensures_unless_done working.sound
          (ensures_compensate working (phase_not_compensated _))

theorem ensures_republish (sound : Sound id w) : Safe id (republish r current cause) w := by
  refine (ensures_publishLoop _ _ sound).bind fun published after same => ?_
  subst same
  split
  · exact ensures_pure sound
  · exact ensures_pure sound

theorem ensures_run (r : Runner) (target : Target) (sound : Sound r.requestID w) :
    Safe r.requestID (run r target) w := by
  unfold run
  split
  · exact ensures_pure sound
  next allowed =>
  have moving : target.Moving := by
    by_contra other
    exact allowed ⟨fun same => other (.inl same), fun same => other (.inr same)⟩
  cases validateRequestID r.requestID with
  | error message => exact ensures_pure sound
  | ok checked =>
    refine (ensures_readJournal sound).bind ?_
    rintro read _ ⟨rfl, seen⟩
    cases read with
    | none => exact ensures_pure sound
    | some current =>
      have journal := seen current rfl
      dsimp only
      split
      · next request =>
        split
        · exact ensures_pure sound
        split
        · next state => exact ensures_transition moving _ ⟨sound, journal.symm, request, .inl state⟩
        · next state => exact ensures_transition moving _ ⟨sound, journal.symm, request, .inr state⟩
        · next state =>
          unfold resumeCompensation
          split
          · exact ensures_pure sound
          · split
            · exact ensures_pure sound
            · exact ensures_runCompensation _ ⟨sound, journal.symm, request, state⟩
        · exact ensures_republish sound
        · exact ensures_republish sound
        · exact ensures_pure sound
        · exact ensures_pure sound
      · next request =>
        split
        · exact ensures_pure sound
        have fresh : Fit r.requestID _ { requestID := r.requestID, target := target, state := .queued } :=
          ⟨nofun, fun ends => absurd ends not_compensated_empty, nofun,
            fun _ settling => absurd (journal ▸ settling.request) request⟩
        refine ensures_persist_then sound fresh (fun _ => ⟨_, rfl⟩) fun status written offered => ?_
        obtain ⟨same, now, rfl⟩ := offered.written status rfl
        exact ensures_transition moving _ ⟨offered.sound, same, rfl, .inl rfl⟩

end

end Aeontra.Frontdoor
