import Aeontra.Development.Moves
import Aeontra.Library.Update

/-!
Runs of an objective: what terminal objectives leave unfinished, and how long a failure that
asks for reconciliation is visible.
-/

namespace Aeontra.Development

open Library Workqueue List

/-- The objectives reached from a new one by operations that each meet a condition. -/
inductive Reachable (admits : Objective → Operation → Bool) : Objective → Prop
  | created {objectiveID policy specs o} (new : newObjective objectiveID policy specs = .ok o) :
      Reachable admits o
  | within {objectiveID scope policy specs o}
      (new : newScopedObjective objectiveID scope policy specs = .ok o) : Reachable admits o
  | step {o op o'} (reached : Reachable admits o) (meets : admits o op = true)
      (run : o.apply op = .ok o') : Reachable admits o'

structure FreshStep (step : ObjectiveStep) : Prop where
  attempts : step.attempts = []
  provisioning : step.provisioning = []
  state : step.state = .planned

variable {policy : ResolutionPolicy} {step step' : ObjectiveStep} {o o' : Objective}
  {attempt next : ExecutionAttempt} {attemptID sourceDigest : String} {index : Nat} {op : Operation}
  {state : ObjectiveState}

theorem newStep_fresh {seen : List String} {spec : StepSpec} (new : newStep policy seen spec = .ok step) :
    FreshStep step ∧ step.stepID ∉ seen := by
  simp only [newStep, ok_iff] at new
  obtain ⟨-, -, -, unseen, requirements, -, -, -, rfl⟩ := new
  refine ⟨⟨rfl, rfl, rfl⟩, ?_⟩
  simpa using unseen

theorem newObjective_fresh {objectiveID : String} {specs : List StepSpec}
    (new : newObjective objectiveID policy specs = .ok o) :
    o.state = .planned ∧ (∀ step ∈ o.steps, FreshStep step) ∧
      (o.steps.map ObjectiveStep.stepID).Nodup := by
  simp only [newObjective, ok_iff] at new
  obtain ⟨-, -, steps, built, -, -, rfl⟩ := new
  refine ⟨rfl, ?_⟩
  have kept := foldlM_induction
    (R := fun before after : List ObjectiveStep =>
      ((∀ step ∈ before, FreshStep step) ∧ (before.map ObjectiveStep.stepID).Nodup) →
        (∀ step ∈ after, FreshStep step) ∧ (after.map ObjectiveStep.stepID).Nodup)
    (fun _ => id) (fun first second start => second (first start)) ?_ built
  · exact kept ⟨by simp, by simp⟩
  rintro before spec after step ⟨fresh, distinct⟩
  simp only [ok_iff] at step
  obtain ⟨added, new, rfl⟩ := step
  obtain ⟨addedFresh, unseen⟩ := newStep_fresh new
  constructor
  · intro step member
    rcases mem_append.mp member with earlier | last
    · exact fresh step earlier
    · rw [mem_singleton.mp last]
      exact addedFresh
  · rw [map_append, nodup_append]
    refine ⟨distinct, by simp, ?_⟩
    intro name member other last same
    rw [map_singleton, mem_singleton] at last
    exact unseen (last ▸ same ▸ member)

theorem newScopedObjective_eq_ok {objectiveID : String} {scope : ObjectiveScope} {specs : List StepSpec}
    (new : newScopedObjective objectiveID scope policy specs = .ok o) :
    ∃ plain, newObjective objectiveID policy specs = .ok plain ∧ o = { plain with scope := scope } := by
  simp only [newScopedObjective, ok_iff] at new
  obtain ⟨-, -, plain, new, rfl⟩ := new
  exact ⟨plain, new, rfl⟩

/-- What holds of every new objective and is kept by every allowed move holds of every reached one. -/
theorem Reachable.always {admits : Objective → Operation → Bool} {P : Objective → Prop} (reached : Reachable admits o)
    (fresh : ∀ o : Objective, o.state = .planned → (∀ step ∈ o.steps, FreshStep step) →
      (o.steps.map ObjectiveStep.stepID).Nodup → P o)
    (kept : ∀ {o o' op}, admits o op = true → Move o op o' → P o → P o') : P o := by
  induction reached with
  | created new =>
    obtain ⟨planned, steps, named⟩ := newObjective_fresh new
    exact fresh _ planned steps named
  | within new =>
    obtain ⟨plain, unscoped, rfl⟩ := newScopedObjective_eq_ok new
    obtain ⟨planned, steps, named⟩ := newObjective_fresh unscoped
    exact fresh _ planned steps named
  | step reached meets run ih =>
    rcases apply_move run with rfl | move
    · exact ih
    · exact kept meets move ih

theorem transition_state {state : AttemptState}
    (moved : attempt.transition state = .ok next) : next.state = state := by
  simp only [ExecutionAttempt.transition, ok_iff] at moved
  obtain ⟨-, -, moved⟩ := moved
  split at moved
  · rename_i same
    rw [pure_eq_ok] at moved
    rw [← moved, same]
  · simp only [ok_iff] at moved
    obtain ⟨-, -, rfl⟩ := moved
    rfl

theorem newExecutionAttempt_state {stepID : String} {environment : EnvironmentAttestation}
    (new : newExecutionAttempt attemptID stepID sourceDigest environment = .ok attempt) :
    attempt.state = .planned := by
  simp only [newExecutionAttempt, ok_iff] at new
  obtain ⟨-, -, rfl⟩ := new
  rfl

theorem nextAttempt_state {candidates : List EnvironmentAttestation} {resolution : Resolution}
    (resolved : Objective.nextAttempt policy step attemptID sourceDigest candidates =
      .ok (attempt, resolution)) :
    attempt.state = .planned := by
  unfold Objective.nextAttempt at resolved
  split at resolved
  · simp only [ok_iff] at resolved
    obtain ⟨_, -, _, new, rfl, -⟩ := resolved
    exact newExecutionAttempt_state new
  simp only [ok_iff, continueExecutionAttempt] at resolved
  obtain ⟨-, -, _, -, _, ⟨-, -, _, -, -, -, -, -, _, new, rfl⟩, rfl, -⟩ := resolved
  have planned := newExecutionAttempt_state new
  exact planned

@[simp] theorem replaceLast_append {α : Type} (earlier : List α) (last next : α) :
    replaceLast (earlier ++ [last]) next = earlier ++ [next] := by
  simp [replaceLast]

@[simp] theorem dropLast_replaceLast {α : Type} (items : List α) (next : α) :
    (replaceLast items next).dropLast = items.dropLast := by
  simp [replaceLast]

@[simp] theorem getLast?_replaceLast {α : Type} (items : List α) (next : α) :
    (replaceLast items next).getLast? = some next := by
  simp [replaceLast]

def sampleSource : String := "sha256:0000000000000000000000000000000000000000000000000000000000000000"

def sampleAttempt (attemptID stepID : String) (state : AttemptState) (failure : Option FailureClass) :
    ExecutionAttempt :=
  ⟨attemptID, stepID, "", sampleSource, "env", sampleEnvironment.digest, 1, .l3Sandbox, 1, state, failure⟩

def sampleStep (stepID : String) (attempts : List ExecutionAttempt) (state : StepState) : ObjectiveStep :=
  ⟨stepID, [], none, none, attempts, [], state⟩

def sampleObjective (revision : Nat) (state : ObjectiveState) (steps : List ObjectiveStep) : Objective :=
  ⟨1, "objective", revision, state, .empty, ⟨1, [.l3Sandbox]⟩, steps⟩

def sampleWorking : Objective :=
  sampleObjective 4 .running [sampleStep "a" [sampleAttempt "a1" "a" .running none] .running,
    sampleStep "b" [sampleAttempt "b1" "b" .planned none] .planned]

def sampleAsking : Objective :=
  sampleObjective 5 .reconciliationRequired
    [sampleStep "a" [sampleAttempt "a1" "a" .failed (some .reconciliationNeeded)] .failed,
      sampleStep "b" [sampleAttempt "b1" "b" .planned none] .planned]

theorem sample_created : newObjective "objective" ⟨1, [.l3Sandbox]⟩ [⟨"a", [], none⟩, ⟨"b", [], none⟩] =
    .ok (sampleObjective 1 .planned [sampleStep "a" [] .planned, sampleStep "b" [] .planned]) := by
  decide +kernel

theorem sample_planned_first :
    (sampleObjective 1 .planned [sampleStep "a" [] .planned, sampleStep "b" [] .planned]).apply
        (.planAttempt "a" "a1" sampleSource [sampleEnvironment]) =
      .ok (sampleObjective 2 .running
        [sampleStep "a" [sampleAttempt "a1" "a" .planned none] .planned, sampleStep "b" [] .planned]) := by
  decide +kernel

theorem sample_started :
    (sampleObjective 2 .running
        [sampleStep "a" [sampleAttempt "a1" "a" .planned none] .planned, sampleStep "b" [] .planned]).apply
        (.startAttempt "a") =
      .ok (sampleObjective 3 .running
        [sampleStep "a" [sampleAttempt "a1" "a" .running none] .running, sampleStep "b" [] .planned]) := by
  decide +kernel

theorem sample_planned_second :
    (sampleObjective 3 .running
        [sampleStep "a" [sampleAttempt "a1" "a" .running none] .running, sampleStep "b" [] .planned]).apply
        (.planAttempt "b" "b1" sampleSource [sampleEnvironment]) = .ok sampleWorking := by
  decide +kernel

theorem sample_reachable {admits : Objective → Operation → Bool}
    (plans : ∀ o stepID attemptID sourceDigest candidates, o.state ≠ .reconciliationRequired →
      admits o (.planAttempt stepID attemptID sourceDigest candidates) = true)
    (starts : ∀ o stepID, o.state ≠ .reconciliationRequired → admits o (.startAttempt stepID) = true) :
    Reachable admits sampleWorking := by
  have first := Reachable.step (.created sample_created) (plans _ _ _ _ _ (by decide)) sample_planned_first
  have second := Reachable.step first (starts _ _ (by decide)) sample_started
  exact .step second (plans _ _ _ _ _ (by decide)) sample_planned_second

def ObjectiveStep.unreconciled (step : ObjectiveStep) : Bool :=
  step.attempts.getLast?.any fun last =>
    last.state = .failed && last.failure = some .reconciliationNeeded

/-- While the objective asks for reconciliation, nothing is applied that would set it running. -/
def Operation.keepsReconciliation (o : Objective) : Operation → Bool
  | .planAttempt .. | .startAttempt _ | .completeAttempt _ | .planProvisioning .. =>
    o.state ≠ .reconciliationRequired
  | .rejectAttempt _ failure | .failAttempt _ failure =>
    o.state ≠ .reconciliationRequired || failure.action = .reconcile || failure.action = .stopPolicy
  | _ => true

theorem unreconciled_of_latest {last : ExecutionAttempt} (latest : step.attempts.getLast? = some last) :
    step.unreconciled = true ↔ last.state = .failed ∧ last.failure = some .reconciliationNeeded := by
  simp [ObjectiveStep.unreconciled, latest]

theorem failureState_reconciliation {failure : FailureClass} :
    Objective.failureState failure.action = .reconciliationRequired ↔ failure = .reconciliationNeeded := by
  cases failure <;> decide

theorem canPlanProvisioning_reconciled (authorized : canPlanProvisioning step = true) :
    step.unreconciled = false := by
  unfold canPlanProvisioning at authorized
  unfold ObjectiveStep.unreconciled
  cases latest : step.attempts.getLast? with
  | none => rfl
  | some last =>
    rw [latest] at authorized
    simp only [bool_iff] at authorized
    have action := authorized.1.2.2
    by_contra still
    simp only [Option.any_some, Bool.not_eq_false, bool_iff] at still
    rw [still.2] at action
    simp [continuationForFailure, FailureClass.action] at action

theorem failure_reconciliation {failure : FailureClass} {last : ExecutionAttempt}
    (latest : step'.attempts.getLast? = some last) (failed : last.state = .failed) (why : last.failure = some failure)
    (admitted : (o.state ≠ .reconciliationRequired || failure.action = .reconcile ||
      failure.action = .stopPolicy) = true)
    (live : (Objective.failureState failure.action).settled = false) :
    (o.state ≠ .reconciliationRequired ∧
      (Objective.failureState failure.action = .reconciliationRequired ↔ step'.unreconciled = true)) ∨
      (Objective.failureState failure.action = .reconciliationRequired ∧ step'.unreconciled = true) := by
  rw [failureState_reconciliation, unreconciled_of_latest latest, failed, why]
  by_cases asked : failure = .reconciliationNeeded
  · exact .inr ⟨asked, rfl, congrArg some asked⟩
  refine .inl ⟨?_, by simp⟩
  cases failure <;> simp_all [FailureClass.action, Objective.failureState, ObjectiveState.settled]

theorem stepMove_unreconciled (move : StepMove o index step op step' state)
    (admitted : op.keepsReconciliation o = true) (live : state.settled = false) :
    (step'.unreconciled = step.unreconciled ∧ state = o.state) ∨
      (o.state ≠ .reconciliationRequired ∧ (state = .reconciliationRequired ↔ step'.unreconciled = true)) ∨
      (state = .reconciliationRequired ∧ step'.unreconciled = true) := by
  cases move with
  | refined => exact .inl ⟨rfl, rfl⟩
  | advanced => exact .inl ⟨rfl, rfl⟩
  | planned _ _ _ _ resolved =>
    refine .inr (.inl ⟨by simpa [Operation.keepsReconciliation] using admitted, ?_⟩)
    rw [unreconciled_of_latest getLast?_concat, nextAttempt_state resolved]
    simp
  | started latest moved =>
    refine .inr (.inl ⟨by simpa [Operation.keepsReconciliation] using admitted, ?_⟩)
    rw [unreconciled_of_latest (getLast?_replaceLast _ _), transition_state moved]
    simp
  | completed latest moved =>
    refine .inr (.inl ⟨by simpa [Operation.keepsReconciliation] using admitted, ?_⟩)
    rw [unreconciled_of_latest (getLast?_replaceLast _ _), transition_state moved]
    split <;> simp
  | provisioned authorized new sound =>
    refine .inr (.inl ⟨by simpa [Operation.keepsReconciliation] using admitted, ?_⟩)
    have reconciled := canPlanProvisioning_reconciled authorized
    change _ ↔ step.unreconciled = true
    simp [reconciled]
  | rejected => exact .inr (failure_reconciliation (getLast?_replaceLast _ _) rfl rfl admitted live)
  | failed => exact .inr (failure_reconciliation (getLast?_replaceLast _ _) rfl rfl admitted live)

theorem settlement_terminal (settled : Settlement o op o') : o'.terminal = true := by
  cases settled with
  | accepted => rfl
  | evidenced => rfl
  | cancelled => rfl

theorem move_reconciliation (move : Move o op o') (admitted : op.keepsReconciliation o = true)
    (holds : o.terminal = false →
      (o.state = .reconciliationRequired ↔ ∃ step ∈ o.steps, step.unreconciled = true))
    (live' : o'.terminal = false) :
    o'.state = .reconciliationRequired ↔ ∃ step ∈ o'.steps, step.unreconciled = true := by
  cases move with
  | settle settled =>
    rw [settlement_terminal settled] at live'
    cases live'
  | @step index step step' state live located found move =>
    obtain ⟨before, after, whole, -, replaced⟩ := split_at found
    have old := holds live
    rw [whole] at old
    change state = .reconciliationRequired ↔ ∃ step ∈ o.steps.set index step', _
    rw [replaced]
    rcases stepMove_unreconciled move admitted live' with ⟨same, kept⟩ | ⟨calm, exact'⟩ | ⟨asks, open'⟩
    · rw [kept, old]
      simp only [mem_append, mem_cons, or_and_right, exists_or, exists_eq_left, same]
    · have none : ¬ ∃ other ∈ before ++ step :: after, other.unreconciled = true :=
        fun asking => calm (old.mpr asking)
      rw [exact']
      constructor
      · intro now
        exact ⟨step', by simp, now⟩
      rintro ⟨other, member, asking⟩
      rw [mem_append, mem_cons] at member
      rcases member with left | rfl | right
      · exact absurd ⟨other, by simp [left], asking⟩ none
      · exact asking
      · exact absurd ⟨other, by simp [right], asking⟩ none
    · exact iff_of_true asks ⟨step', by simp, open'⟩

/-- As long as no operation sets an objective running that asks for reconciliation, it asks for
it exactly while the last attempt of some step failed for that reason. -/
theorem reachable_reconciliation {o : Objective} (reached : Reachable (fun o op => op.keepsReconciliation o) o)
    (live : o.terminal = false) :
    o.state = .reconciliationRequired ↔
      ∃ step ∈ o.steps, ∃ last, step.attempts.getLast? = some last ∧ last.state = .failed ∧
        last.failure = some .reconciliationNeeded := by
  have spelled : ∀ step : ObjectiveStep, step.unreconciled = true ↔
      ∃ last, step.attempts.getLast? = some last ∧ last.state = .failed ∧
        last.failure = some .reconciliationNeeded := by
    intro step
    simp [ObjectiveStep.unreconciled, Option.any_eq_true]
  simp only [← spelled]
  refine reached.always (P := fun o => o.terminal = false →
    (o.state = .reconciliationRequired ↔ ∃ step ∈ o.steps, step.unreconciled = true)) ?_ ?_ live
  · intro o planned steps _ _
    refine iff_of_false (by simp [planned]) ?_
    rintro ⟨step, member, asking⟩
    simp [ObjectiveStep.unreconciled, (steps step member).attempts] at asking
  · intro o o' op meets move before
    exact move_reconciliation move meets before

theorem sample_unreconciled :
    sampleWorking.apply (.failAttempt "a" .reconciliationNeeded) = .ok sampleAsking := by
  decide +kernel

/-- The sample run with one step left for reconciliation. -/
theorem reachable_reconciliation_sample : ∃ o : Objective, o.state = .reconciliationRequired ∧
    (o.state = .reconciliationRequired ↔
      ∃ step ∈ o.steps, ∃ last, step.attempts.getLast? = some last ∧ last.state = .failed ∧
        last.failure = some .reconciliationNeeded) := by
  refine ⟨_, rfl, reachable_reconciliation (o := sampleAsking) ?_ rfl⟩
  refine .step (sample_reachable ?_ ?_) (by decide) sample_unreconciled
  · intro o _ _ _ _ calm
    exact decide_eq_true calm
  · intro o _ calm
    exact decide_eq_true calm

/-- Starting another step hides a failure that still asks for reconciliation. -/
theorem reconciliation_hidden : ¬ ∀ o : Objective, Reachable (fun _ _ => true) o → o.terminal = false →
    (o.state = .reconciliationRequired ↔
      ∃ step ∈ o.steps, ∃ last, step.attempts.getLast? = some last ∧ last.state = .failed ∧
        last.failure = some .reconciliationNeeded) := by
  intro always
  have started : sampleAsking.apply (.startAttempt "b") =
      .ok (sampleObjective 6 .running
        [sampleStep "a" [sampleAttempt "a1" "a" .failed (some .reconciliationNeeded)] .failed,
          sampleStep "b" [sampleAttempt "b1" "b" .running none] .running]) := by
    decide +kernel
  have start : Reachable (fun _ _ => true) _ := sample_reachable (fun _ _ _ _ _ _ => rfl) fun _ _ _ => rfl
  have reached := (start.step rfl sample_unreconciled).step rfl started
  have asks := (always _ reached rfl).mpr ⟨_, mem_cons_self, _, rfl, rfl, rfl⟩
  cases asks

def ObjectiveStep.busy (step : ObjectiveStep) : Bool :=
  (step.attempts.any fun attempt => attempt.state = .running) ||
    step.provisioning.any fun provision => provision.state.active

/-- A failure that stops the objective comes only when no other step has work in flight. -/
def Operation.stopsAlone (o : Objective) : Operation → Bool
  | .rejectAttempt stepID .policyDenied | .failAttempt stepID .policyDenied =>
    o.steps.all fun step => step.stepID = Text.trimSpace stepID || !step.busy
  | _ => true

/-- The attempts before the last have failed, and one that has not failed excludes active provisioning. -/
structure StepShape (step : ObjectiveStep) : Prop where
  history : ∀ attempt ∈ step.attempts.dropLast, attempt.state = .failed
  fits : stepStateMatchesAttempts step = true
  exclusive : ∀ last, step.attempts.getLast? = some last → last.state ≠ .failed →
    activeProvisioning step = false
  settled : ∀ provision ∈ step.provisioning.dropLast, provision.state.active = false

theorem last_inactive (inactive : activeProvisioning step = false) (provision : ProvisioningAttempt)
    (latest : step.provisioning.getLast? = some provision) : provision.state.active = false := by
  simpa [activeProvisioning, latest] using inactive

theorem FreshStep.shape (fresh : FreshStep step) : StepShape step := by
  refine ⟨?_, ?_, ?_, ?_⟩
  · simp [fresh.attempts]
  · simp [stepStateMatchesAttempts, fresh.attempts, fresh.state]
  · simp [fresh.attempts]
  · simp [fresh.provisioning]

theorem StepShape.idle (shape : StepShape step)
    (still : ∀ last, step.attempts.getLast? = some last → last.state ≠ .running)
    (inactive : activeProvisioning step = false) : step.busy = false := by
  simp only [ObjectiveStep.busy, bool_iff, any_eq_false, Bool.not_eq_true]
  constructor
  · refine forall_mem_of_last (fun attempt member => ?_) still
    simp [shape.history attempt member]
  · exact forall_mem_of_last shape.settled (last_inactive inactive)

theorem transition_from {state : AttemptState} (moved : attempt.transition state = .ok next) :
    state = attempt.state ∨ attemptTransitionAllowed attempt.state state = true := by
  simp only [ExecutionAttempt.transition, ok_iff] at moved
  obtain ⟨-, -, moved⟩ := moved
  split at moved
  · rename_i same
    exact .inl same
  · simp only [ok_iff] at moved
    exact .inr moved.choose_spec.1

theorem transition_not_failed {state : AttemptState}
    (moved : attempt.transition state = .ok next) (target : state ≠ .failed) : attempt.state ≠ .failed := by
  intro failed
  rcases transition_from moved with same | allowed
  · exact target (same.trans failed)
  · rw [failed] at allowed
    cases allowed

theorem nextAttempt_follows {candidates : List EnvironmentAttestation}
    {pair : ExecutionAttempt × Resolution} {previous : ExecutionAttempt}
    (resolved : Objective.nextAttempt policy step attemptID sourceDigest candidates = .ok pair)
    (latest : step.attempts.getLast? = some previous) : previous.state = .failed := by
  simp only [Objective.nextAttempt, latest, ok_iff, bool_iff, not_not] at resolved
  exact resolved.choose_spec.1

theorem StepShape.replaceAttempt {state : StepState} (shape : StepShape step)
    (inactive : activeProvisioning step = false)
    (fits : stepStateMatchesAttempts
      { step with attempts := replaceLast step.attempts next, state := state } = true) :
    StepShape { step with attempts := replaceLast step.attempts next, state := state } := by
  refine ⟨?_, fits, fun _ _ _ => inactive, shape.settled⟩
  rw [dropLast_replaceLast]
  exact shape.history

theorem provisionRevision_active {before after : ProvisioningAttempt}
    (revision : validProvisionRevision before after = true)
    (different : sameProvisionAttempt before after = false) : before.state.active = true := by
  simp only [validProvisionRevision, different, Bool.false_or, bool_iff] at revision
  cases state : before.state with
  | planned => rfl
  | queued => rfl
  | succeeded => simp [state] at revision
  | failed => simp [state] at revision
  | cancelled => simp [state] at revision

theorem stepMove_shape (move : StepMove o index step op step' state) (shape : StepShape step) :
    StepShape step' := by
  cases move with
  | refined => exact ⟨shape.history, shape.fits, shape.exclusive, shape.settled⟩
  | planned _ inactive _ _ resolved =>
    refine ⟨?_, ?_, fun _ _ _ => inactive, shape.settled⟩
    · rw [dropLast_concat]
      exact forall_mem_of_last shape.history fun _ latest => nextAttempt_follows resolved latest
    · simp [stepStateMatchesAttempts, nextAttempt_state resolved]
  | started latest moved =>
    have inactive := shape.exclusive _ latest (transition_not_failed moved (by decide))
    refine shape.replaceAttempt inactive ?_
    simp [stepStateMatchesAttempts, transition_state moved]
  | completed latest moved =>
    have inactive := shape.exclusive _ latest (transition_not_failed moved (by decide))
    refine shape.replaceAttempt inactive ?_
    simp [stepStateMatchesAttempts, transition_state moved]
  | rejected latest before _ =>
    refine shape.replaceAttempt (shape.exclusive _ latest (by simp [before])) ?_
    simp [stepStateMatchesAttempts]
  | failed latest before =>
    refine shape.replaceAttempt (shape.exclusive _ latest (by simp [before])) ?_
    simp [stepStateMatchesAttempts]
  | provisioned authorized new _ =>
    simp only [canPlanProvisioning, bool_iff] at authorized
    obtain ⟨⟨⟨-, inactive⟩, attempts⟩, -⟩ := authorized
    refine ⟨shape.history, shape.fits, ?_, ?_⟩
    · intro last latest unfailed
      dsimp only at latest
      rw [latest] at attempts
      simp only [bool_iff] at attempts
      exact absurd attempts.1 unfailed
    rw [dropLast_concat]
    exact forall_mem_of_last shape.settled (last_inactive inactive)
  | advanced latest _ _ revision different _ =>
    have active := provisionRevision_active revision different
    refine ⟨shape.history, shape.fits, ?_, ?_⟩
    · intro attempt held unfailed
      have inactive := shape.exclusive attempt held unfailed
      simp [activeProvisioning, latest, active] at inactive
    rw [dropLast_replaceLast]
    exact shape.settled

structure OnTrack (o : Objective) : Prop where
  shapes : o.terminal = false → ∀ step ∈ o.steps, StepShape step
  pending : o.state = .acceptancePending → ∀ step ∈ o.steps, step.state = .succeeded

structure Orderly (o : Objective) : Prop extends OnTrack o where
  named : (o.steps.map ObjectiveStep.stepID).Nodup
  quiet : o.terminal = true → ∀ step ∈ o.steps, step.busy = false

def AttemptState.stepState : AttemptState → StepState
  | .planned => .planned
  | .running => .running
  | .succeeded => .succeeded
  | .failed => .failed
  | .cancelled => .cancelled

theorem state_of_latest {last : ExecutionAttempt} (fits : stepStateMatchesAttempts step = true)
    (latest : step.attempts.getLast? = some last) : step.state = last.state.stepState := by
  simp only [stepStateMatchesAttempts, latest] at fits
  cases state : last.state <;> simpa [state, AttemptState.stepState] using fits

theorem live_cases {o : Objective} (live : o.terminal = false) :
    o.state = .planned ∨ o.state = .running ∨ o.state = .acceptancePending ∨
      o.state = .reconciliationRequired := by
  cases state : o.state <;> simp [Objective.terminal, state, ObjectiveState.settled] at live ⊢

theorem StepShape.succeeded (shape : StepShape step) (done : step.state = .succeeded) : step.busy = false := by
  have fits := shape.fits
  unfold stepStateMatchesAttempts at fits
  cases latest : step.attempts.getLast? with
  | none => simp [latest, done] at fits
  | some last =>
    have state : last.state = .succeeded := by
      rw [latest] at fits
      cases state : last.state <;> simp [state, done] at fits ⊢
    refine shape.idle ?_ (shape.exclusive last latest (by simp [state]))
    intro other same
    rw [latest, Option.some.injEq] at same
    simp [← same, state]

theorem cancelProvisioning_spec (run : Objective.cancelProvisioning step = .ok step') :
    activeProvisioning step' = false ∧
      step' = { step with provisioning := step'.provisioning } ∧
      step'.provisioning.dropLast = step.provisioning.dropLast := by
  unfold Objective.cancelProvisioning at run
  split at run
  · rename_i latest
    cases run
    exact ⟨by simp [activeProvisioning, latest], rfl, rfl⟩
  rename_i last latest
  split at run
  · simp only [ProvisioningAttempt.cancel, ok_iff] at run
    obtain ⟨_, ⟨-, -, rfl⟩, rfl⟩ := run
    exact ⟨by simp [activeProvisioning, ProvisioningState.active], rfl, dropLast_replaceLast _ _⟩
  · rename_i inactive
    cases run
    exact ⟨by simpa [activeProvisioning, latest] using inactive, rfl, rfl⟩

theorem cancelStep_quiet (run : Objective.cancelStep step = .ok step')
    (shape : StepShape step) : step'.stepID = step.stepID ∧ step'.busy = false := by
  simp only [Objective.cancelStep, ok_iff] at run
  obtain ⟨middle, released, run⟩ := run
  obtain ⟨inactive, same, earlier⟩ := cancelProvisioning_spec released
  have shaped : StepShape middle := by
    rw [same]
    refine ⟨shape.history, shape.fits, ?_, ?_⟩
    · intro _ _ _
      rw [← same]
      exact inactive
    · rw [← same, earlier]
      exact shape.settled
  have name : middle.stepID = step.stepID := by rw [same]
  split at run
  · rename_i finished
    rw [pure_eq_ok] at run
    subst run
    refine ⟨name, shaped.idle ?_ inactive⟩
    intro last latest running
    simp [state_of_latest shaped.fits latest, running, AttemptState.stepState] at finished
  · split at run
    · rename_i latest
      rw [pure_eq_ok] at run
      subst run
      have empty := getLast?_eq_none_iff.mp latest
      refine ⟨name, ?_⟩
      have idle := shaped.idle (by simp [latest]) inactive
      exact idle
    · rename_i last latest
      simp only [ok_iff] at run
      obtain ⟨-, -, next, moved, rfl⟩ := run
      refine ⟨name, StepShape.idle (shaped.replaceAttempt inactive ?_) ?_ inactive⟩
      · simp [stepStateMatchesAttempts, transition_state moved]
      · simp [transition_state moved]

theorem mapM_cancelStep {steps steps' : List ObjectiveStep} (shapes : ∀ step ∈ steps, StepShape step)
    (each : steps.mapM Objective.cancelStep = .ok steps') :
    steps'.map ObjectiveStep.stepID = steps.map ObjectiveStep.stepID ∧
      ∀ step ∈ steps', step.busy = false := by
  have related : List.Forall₂ (fun step step' => step'.stepID = step.stepID ∧ step'.busy = false)
      steps steps' :=
    mapM_forall₂ (fun step member _ run => cancelStep_quiet run (shapes step member)) each
  exact ⟨forall₂_map_eq (fun _ _ quiet => quiet.1) related, forall₂_right (fun _ _ quiet => quiet.2) related⟩

def ObjectiveStep.unreceipted (step : ObjectiveStep) : ObjectiveStep :=
  { step with acceptanceReceipt := none }

theorem attachReceipts_same {receipts : List CommandAcceptanceReceipt}
    {scan scan' : List String × List ObjectiveStep}
    (attached : receipts.foldlM o.attachReceipt scan = .ok scan') :
    scan'.2.map ObjectiveStep.unreceipted = scan.2.map ObjectiveStep.unreceipted := by
  refine foldlM_induction
    (R := fun before after : List String × List ObjectiveStep =>
      after.2.map ObjectiveStep.unreceipted = before.2.map ObjectiveStep.unreceipted)
    (fun _ => rfl) (fun first second => second.trans first) ?_ attached
  intro before receipt after step
  simp only [Objective.attachReceipt, ok_iff] at step
  obtain ⟨index, -, -, -, -, -, rfl⟩ := step
  apply map_modify_of_eq
  intro step
  rfl

theorem settlement_onTrack (settled : Settlement o op o') : OnTrack o' := by
  have ended := settlement_terminal settled
  refine ⟨fun live => absurd (ended.symm.trans live) (by decide), fun pending => ?_⟩
  simp [Objective.terminal, pending, ObjectiveState.settled] at ended

theorem settlement_orderly (settled : Settlement o op o') (orderly : Orderly o) : Orderly o' := by
  have track := settlement_onTrack settled
  have done : ∀ pending : o.state = .acceptancePending, ∀ step ∈ o.steps, step.busy = false := by
    intro pending step member
    have live : o.terminal = false := by simp [Objective.terminal, pending, ObjectiveState.settled]
    exact (orderly.shapes live step member).succeeded (orderly.pending pending step member)
  cases settled with
  | accepted pending _ =>
    exact ⟨track, orderly.named, fun _ => done pending⟩
  | @evidenced receipts scan pending attached _ =>
    have same := attachReceipts_same attached
    have names : scan.2.map ObjectiveStep.stepID = o.steps.map ObjectiveStep.stepID := by
      have both := congrArg (List.map ObjectiveStep.stepID) same
      rw [map_map, map_map] at both
      exact both
    refine ⟨track, names ▸ orderly.named, ?_⟩
    intro _ step member
    have image : step.unreceipted ∈ o.steps.map ObjectiveStep.unreceipted := same ▸ mem_map_of_mem member
    obtain ⟨original, inside, equal⟩ := List.mem_map.mp image
    have quiet := done pending original inside
    change original.unreceipted.busy = false at quiet
    rw [equal] at quiet
    exact quiet
  | cancelled live each =>
    obtain ⟨names, quiet⟩ := mapM_cancelStep (orderly.shapes live) each
    exact ⟨track, names ▸ orderly.named, fun _ => quiet⟩

theorem stepIndex_named {stepID : String}
    (located : o.stepIndex stepID = some index) (found : o.steps[index]? = some step) :
    step.stepID = Text.trimSpace stepID := by
  rw [Objective.stepIndex, findIdx?_eq_some_iff_getElem] at located
  obtain ⟨inside, named, -⟩ := located
  rw [getElem?_eq_getElem inside, Option.some.injEq] at found
  rw [← found]
  simpa using named

variable (move : StepMove o index step op step' state)

include move

theorem stepMove_stepID : step'.stepID = step.stepID := by
  cases move <;> rfl

theorem stepMove_settled (live : o.terminal = false) (shape : StepShape step) (settled : state.settled = true) :
    step'.busy = false ∧
      (op = .rejectAttempt op.stepID .policyDenied ∨ op = .failAttempt op.stepID .policyDenied) := by
  have shape' := stepMove_shape move shape
  cases move with
  | refined => exact absurd (live.symm.trans settled) (by decide)
  | advanced => exact absurd (live.symm.trans settled) (by decide)
  | planned => cases settled
  | started => cases settled
  | provisioned => cases settled
  | completed =>
    split at settled
    · cases settled
    · cases settled
  | @rejected stepID failure last latest before allowed =>
    have inactive := shape.exclusive _ latest (by simp [before])
    refine ⟨shape'.idle (by simp) inactive, .inl ?_⟩
    cases failure <;> first | rfl | cases settled
  | @failed stepID failure last latest before =>
    have inactive := shape.exclusive _ latest (by simp [before])
    refine ⟨shape'.idle (by simp) inactive, .inr ?_⟩
    cases failure <;> first | rfl | cases settled

theorem stepMove_pending (found : o.steps[index]? = some step)
    (pending : o.state = .acceptancePending → ∀ step ∈ o.steps, step.state = .succeeded)
    (now : state = .acceptancePending) : ∀ other ∈ o.steps.set index step', other.state = .succeeded := by
  have member := mem_of_getElem? found
  cases move with
  | refined _ unfinished _ _ _ => exact absurd (pending now step member) unfinished
  | advanced =>
    intro other inside
    rcases mem_or_eq_of_mem_set inside with old | rfl
    · exact pending now other old
    · exact pending now step member
  | planned => cases now
  | started => cases now
  | provisioned => cases now
  | completed latest moved =>
    split at now
    · rename_i all
      simpa [all_eq_true] using all
    · cases now
  | @rejected _ failure => cases failure <;> cases now
  | @failed _ failure => cases failure <;> cases now

omit move

theorem OnTrack.advance (track : OnTrack o) (move : Move o op o') : OnTrack o' := by
  cases move with
  | settle settled => exact settlement_onTrack settled
  | @step index step step' state live located found move =>
    have shapes := track.shapes live
    refine ⟨fun _ other inside => ?_, stepMove_pending move found track.pending⟩
    rcases mem_or_eq_of_mem_set inside with old | rfl
    · exact shapes other old
    · exact stepMove_shape move (shapes step (mem_of_getElem? found))

theorem move_orderly (move : Move o op o')
    (admitted : op.stopsAlone o = true) (orderly : Orderly o) : Orderly o' := by
  have track := orderly.toOnTrack.advance move
  cases move with
  | settle settled => exact settlement_orderly settled orderly
  | @step index step step' state live located found move =>
    obtain ⟨before, after, whole, -, replaced⟩ := split_at found
    have named := orderly.named
    have shape := orderly.shapes live step (mem_of_getElem? found)
    refine ⟨track, ?_, ?_⟩
    · change ((o.steps.set index step').map ObjectiveStep.stepID).Nodup
      rw [whole] at named
      rw [replaced, map_append, map_cons, stepMove_stepID move]
      simpa using named
    intro terminal other inside
    obtain ⟨idle, stops⟩ := stepMove_settled move live shape terminal
    have alone : (o.steps.all fun other =>
        other.stepID = Text.trimSpace op.stepID || !other.busy) = true := by
      rcases stops with same | same <;> (rw [same] at admitted; exact admitted)
    change other ∈ o.steps.set index step' at inside
    rw [replaced, mem_append, mem_cons] at inside
    have name := stepIndex_named located found
    rw [whole] at alone named
    simp only [all_append, all_cons, bool_iff, all_eq_true] at alone
    simp only [map_append, map_cons, nodup_append, nodup_cons, mem_map, mem_cons] at named
    rcases inside with left | rfl | right
    · rcases alone.1 other left with clash | quiet
      · exact absurd (clash.trans name.symm)
          (named.2.2 _ ⟨other, left, rfl⟩ _ (.inl rfl))
      · exact quiet
    · exact idle
    · rcases alone.2.2 other right with clash | quiet
      · exact absurd ⟨other, right, clash.trans name.symm⟩ named.2.1.1
      · exact quiet

theorem reachable_orderly (reached : Reachable (fun o op => op.stopsAlone o) o) : Orderly o := by
  refine reached.always ?_ fun meets move before => move_orderly move meets before
  intro o planned steps named
  refine ⟨⟨fun _ step member => (steps step member).shape, ?_⟩, named, ?_⟩
  · simp [planned]
  · simp [Objective.terminal, planned, ObjectiveState.settled]

/-- As long as every failure that stops the objective finds the other steps idle, a terminal
objective has no running attempt and no active provisioning. -/
theorem reachable_terminal_idle {o : Objective} (reached : Reachable (fun o op => op.stopsAlone o) o)
    (terminal : o.terminal = true) :
    ∀ step ∈ o.steps, (∀ attempt ∈ step.attempts, attempt.state ≠ .running) ∧
      ∀ provision ∈ step.provisioning, provision.state.active = false := by
  intro step member
  have quiet := (reachable_orderly reached).quiet terminal step member
  simpa [ObjectiveStep.busy] using quiet

/-- The sample run, where the one step is denied by policy when the other has succeeded. -/
theorem reachable_terminal_idle_sample : ∃ o : Objective, o.state = .failed ∧
    ∀ step ∈ o.steps, (∀ attempt ∈ step.attempts, attempt.state ≠ .running) ∧
      ∀ provision ∈ step.provisioning, provision.state.active = false := by
  have completed : sampleWorking.apply (.completeAttempt "a") =
      .ok (sampleObjective 5 .running
        [sampleStep "a" [sampleAttempt "a1" "a" .succeeded none] .succeeded,
          sampleStep "b" [sampleAttempt "b1" "b" .planned none] .planned]) := by
    decide +kernel
  have denied : (sampleObjective 5 .running
        [sampleStep "a" [sampleAttempt "a1" "a" .succeeded none] .succeeded,
          sampleStep "b" [sampleAttempt "b1" "b" .planned none] .planned]).apply (.rejectAttempt "b" .policyDenied) =
      .ok (sampleObjective 6 .failed
        [sampleStep "a" [sampleAttempt "a1" "a" .succeeded none] .succeeded,
          sampleStep "b" [sampleAttempt "b1" "b" .failed (some .policyDenied)] .failed]) := by
    decide +kernel
  have start : Reachable (fun o op => op.stopsAlone o) _ :=
    sample_reachable (fun _ _ _ _ _ _ => rfl) fun _ _ _ => rfl
  exact ⟨_, rfl, reachable_terminal_idle ((start.step rfl completed).step (by decide +kernel) denied) rfl⟩

/-- A policy failure of one step ends the objective while another still runs. -/
theorem terminal_leaves_running : ¬ ∀ o : Objective, Reachable (fun _ _ => true) o → o.terminal = true →
    ∀ step ∈ o.steps, (∀ attempt ∈ step.attempts, attempt.state ≠ .running) ∧
      ∀ provision ∈ step.provisioning, provision.state.active = false := by
  intro always
  have stopped : sampleWorking.apply (.rejectAttempt "b" .policyDenied) =
      .ok (sampleObjective 5 .failed
        [sampleStep "a" [sampleAttempt "a1" "a" .running none] .running,
          sampleStep "b" [sampleAttempt "b1" "b" .failed (some .policyDenied)] .failed]) := by
    decide +kernel
  have start : Reachable (fun _ _ => true) _ := sample_reachable (fun _ _ _ _ _ _ => rfl) fun _ _ _ => rfl
  exact ((always _ (start.step rfl stopped) rfl) _ mem_cons_self).1 _ mem_cons_self rfl

/-- The last attempt of the step succeeded, and it is the only one that did. -/
def ObjectiveStep.Earned (step : ObjectiveStep) : Prop :=
  (∃ last, step.attempts.getLast? = some last ∧ last.state = .succeeded) ∧
    ∀ attempt ∈ step.attempts.dropLast, attempt.state = .failed

theorem StepShape.earned (shape : StepShape step) (done : step.state = .succeeded) : step.Earned := by
  refine ⟨?_, shape.history⟩
  cases latest : step.attempts.getLast? with
  | none =>
    have fits := shape.fits
    simp [stepStateMatchesAttempts, latest, done] at fits
  | some last =>
    have same := state_of_latest shape.fits latest
    refine ⟨last, rfl, ?_⟩
    cases state : last.state <;> simp [state, done, AttemptState.stepState] at same ⊢

structure Earning (o : Objective) : Prop extends OnTrack o where
  accepted : o.state = .accepted → ∀ step ∈ o.steps, step.Earned

theorem OnTrack.earned (track : OnTrack o) (pending : o.state = .acceptancePending) :
    ∀ step ∈ o.steps, step.Earned := by
  intro step member
  have live : o.terminal = false := by simp [Objective.terminal, pending, ObjectiveState.settled]
  exact (track.shapes live step member).earned (track.pending pending step member)

theorem Earning.settle (earning : Earning o) (settled : Settlement o op o') : Earning o' := by
  have track := earning.toOnTrack
  refine ⟨settlement_onTrack settled, fun accepted => ?_⟩
  cases settled with
  | accepted pending => exact track.earned pending
  | @evidenced receipts scan pending attached =>
    intro step member
    have image : step.unreceipted ∈ o.steps.map ObjectiveStep.unreceipted :=
      attachReceipts_same attached ▸ mem_map_of_mem member
    obtain ⟨original, inside, equal⟩ := List.mem_map.mp image
    have earned := track.earned pending original inside
    change original.unreceipted.Earned at earned
    rw [equal] at earned
    exact earned
  | cancelled => cases accepted

theorem stepMove_unaccepted (move : StepMove o index step op step' state) (live : o.terminal = false) :
    state ≠ .accepted := by
  intro accepted
  cases move with
  | refined | advanced => simp [Objective.terminal, accepted, ObjectiveState.settled] at live
  | planned | started | provisioned => cases accepted
  | completed => split at accepted <;> cases accepted
  | @rejected _ failure | @failed _ failure => cases failure <;> cases accepted

theorem Earning.advance (earning : Earning o) (move : Move o op o') : Earning o' := by
  have track := earning.toOnTrack.advance move
  cases move with
  | settle settled => exact earning.settle settled
  | step live _ _ move => exact ⟨track, fun accepted => absurd accepted (stepMove_unaccepted move live)⟩

/-- However the operations are ordered, an objective waits for acceptance or is accepted only
when every step of it has ended in the one attempt that succeeded. -/
theorem reachable_accepted_earned {o : Objective} (reached : Reachable (fun _ _ => true) o)
    (done : o.state = .acceptancePending ∨ o.state = .accepted) : ∀ step ∈ o.steps, step.Earned := by
  have earning : Earning o := by
    refine reached.always (fun o planned steps _ => ?_) fun _ move before => before.advance move
    exact ⟨⟨fun _ step member => (steps step member).shape, by simp [planned]⟩, by simp [planned]⟩
  exact done.elim earning.earned earning.accepted

theorem reachable_accepted_earned_sample : ∃ o : Objective, o.state = .accepted ∧ ∀ step ∈ o.steps, step.Earned := by
  let rest : List Operation := [.completeAttempt "a", .startAttempt "b", .completeAttempt "b", .accept]
  have ends : ((rest.foldlM Objective.apply sampleWorking).toOption.map Objective.state) = some .accepted := by
    decide +kernel
  cases run : rest.foldlM Objective.apply sampleWorking with
  | error message =>
    rw [run] at ends
    cases ends
  | ok o =>
    rw [run] at ends
    have accepted : o.state = .accepted := Option.some.inj ends
    have reached : Reachable (fun _ _ => true) o :=
      foldlM_keeps (fun _ held step => held.step rfl step)
        (sample_reachable (fun _ _ _ _ _ _ => rfl) fun _ _ _ => rfl) run
    exact ⟨o, accepted, reachable_accepted_earned reached (.inr accepted)⟩

end Aeontra.Development
