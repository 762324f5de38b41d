import Aeontra.Development.Transition

/-!
What each operation does to an objective: one step replaced, or the whole objective settled.
-/

namespace Aeontra.Development

open Library Workqueue

def Operation.stepID : Operation → String
  | .refineRequirements stepID _ | .planAttempt stepID _ _ _ | .startAttempt stepID
  | .rejectAttempt stepID _ | .failAttempt stepID _ | .completeAttempt stepID
  | .planProvisioning stepID _ _ _ | .bindProvisionJob stepID _ _ | .bindProvisionFence stepID _ _
  | .completeProvision stepID _ _ | .failProvision stepID _ _ => stepID
  | .accept | .acceptWithEvidence _ | .cancel => ""

def Operation.provisionChange : Operation → Option (ProvisioningAttempt → Except String ProvisioningAttempt)
  | .bindProvisionJob _ _ jobID => some fun last => last.bindJob jobID
  | .bindProvisionFence _ _ fence => some fun last => last.bindFence fence
  | .completeProvision _ _ receiptDigest => some fun last => last.succeed receiptDigest
  | .failProvision _ _ failure => some fun last => last.fail failure
  | _ => none

/-- How an operation replaces one step, and the state it leaves the objective in. -/
inductive StepMove (o : Objective) (index : Nat) (step : ObjectiveStep) :
    Operation → ObjectiveStep → ObjectiveState → Prop
  | refined {stepID additional normalized} (idle : step.state ≠ .running)
      (unfinished : step.state ≠ .succeeded) (inactive : activeProvisioning step = false)
      (free : step.acceptanceContract = none)
      (normal : normalizeRequirementList (step.requirements ++ additional) = .ok normalized) :
      StepMove o index step (.refineRequirements stepID additional)
        { step with requirements := normalized } o.state
  | planned {stepID attemptID sourceDigest candidates attempt resolution}
      (contracted : ∀ contract, step.acceptanceContract = some contract →
        Text.trimSpace sourceDigest = contract.sourceDigest)
      (inactive : activeProvisioning step = false) (unfinished : step.state ≠ .succeeded)
      (room : step.attempts.length < maxAttemptsPerStep)
      (resolved : Objective.nextAttempt o.policy step attemptID sourceDigest candidates =
        .ok (attempt, resolution)) :
      StepMove o index step (.planAttempt stepID attemptID sourceDigest candidates)
        { step with attempts := step.attempts ++ [attempt], state := .planned } .running
  | started {stepID last next} (latest : step.attempts.getLast? = some last)
      (moved : last.transition .running = .ok next) :
      StepMove o index step (.startAttempt stepID)
        { step with attempts := replaceLast step.attempts next, state := .running } .running
  | rejected {stepID failure last} (latest : step.attempts.getLast? = some last)
      (before : last.state = .planned) (allowed : preflightFailureAllowed (some failure) = true) :
      StepMove o index step (.rejectAttempt stepID failure)
        { step with
          attempts := replaceLast step.attempts { last with state := .failed, failure := some failure }
          state := .failed } (Objective.failureState failure.action)
  | failed {stepID failure last} (latest : step.attempts.getLast? = some last)
      (before : last.state = .running) :
      StepMove o index step (.failAttempt stepID failure)
        { step with
          attempts := replaceLast step.attempts { last with state := .failed, failure := some failure }
          state := .failed } (Objective.failureState failure.action)
  | completed {stepID last next} (latest : step.attempts.getLast? = some last)
      (moved : last.transition .succeeded = .ok next) :
      StepMove o index step (.completeAttempt stepID)
        { step with attempts := replaceLast step.attempts next, state := .succeeded }
        (if ((o.steps.set index
            { step with attempts := replaceLast step.attempts next, state := .succeeded }).all
              fun candidate => candidate.state = .succeeded) = true
          then .acceptancePending else .running)
  | provisioned {stepID provisionID sourceDigest plan provision}
      (authorized : canPlanProvisioning step = true)
      (new : newProvisioningAttempt provisionID sourceDigest plan = .ok provision)
      (sound : (o.revise index { step with provisioning := step.provisioning ++ [provision] }
        .running).valid = true) :
      StepMove o index step (.planProvisioning stepID provisionID sourceDigest plan)
        { step with provisioning := step.provisioning ++ [provision] } .running
  | advanced {op change last next} (latest : step.provisioning.getLast? = some last)
      (changes : op.provisionChange = some change) (changed : change last = .ok next)
      (revision : validProvisionRevision last next = true)
      (different : sameProvisionAttempt last next = false)
      (sound : (o.revise index { step with provisioning := replaceLast step.provisioning next }
        o.state).valid = true) :
      StepMove o index step op
        { step with provisioning := replaceLast step.provisioning next } o.state

inductive Settlement (o : Objective) : Operation → Objective → Prop
  | accepted (pending : o.state = .acceptancePending)
      (free : o.steps.head?.any (fun step => step.acceptanceContract.isSome) = false) :
      Settlement o .accept (o.settle o.steps .accepted)
  | evidenced {receipts scan} (pending : o.state = .acceptancePending)
      (attached : receipts.foldlM o.attachReceipt ([], o.steps) = .ok scan)
      (sound : (o.settle scan.2 .accepted).valid = true) :
      Settlement o (.acceptWithEvidence receipts) (o.settle scan.2 .accepted)
  | cancelled {steps} (live : o.terminal = false) (each : o.steps.mapM Objective.cancelStep = .ok steps) :
      Settlement o .cancel (o.settle steps .cancelled)

inductive Move (o : Objective) (op : Operation) : Objective → Prop
  | step {index step step' state} (live : o.terminal = false)
      (located : o.stepIndex op.stepID = some index) (at_ : o.steps[index]? = some step)
      (move : StepMove o index step op step' state) : Move o op (o.revise index step' state)
  | settle {o'} (settled : Settlement o op o') : Move o op o'

theorem openStep_eq_ok {o : Objective} {stepID message : String} {entry : Nat × ObjectiveStep} :
    o.openStep stepID message = .ok entry ↔
      o.stepIndex stepID = some entry.1 ∧ o.terminal = false ∧ o.steps[entry.1]? = some entry.2 := by
  simp only [Objective.openStep, ok_iff]
  constructor
  · rintro ⟨index, located, -, live, step, found, rfl⟩
    exact ⟨located, live, found⟩
  · rintro ⟨located, live, found⟩
    exact ⟨entry.1, located, (), live, entry.2, found, rfl⟩

theorem changeAttempt_eq_ok {step step' : ObjectiveStep} {state : StepState}
    {change : ExecutionAttempt → Except String ExecutionAttempt} :
    Objective.changeAttempt step state change = .ok step' ↔
      ∃ last next, step.attempts.getLast? = some last ∧ change last = .ok next ∧
        step' = { step with attempts := replaceLast step.attempts next, state := state } := by
  simp only [Objective.changeAttempt, ok_iff]
  constructor
  · rintro ⟨last, latest, next, changed, rfl⟩
    exact ⟨last, next, latest, changed, rfl⟩
  · rintro ⟨last, next, latest, changed, rfl⟩
    exact ⟨last, latest, next, changed, rfl⟩

theorem map_fst_eq_ok {α β : Type} {x : Except String (α × β)} {a : α} :
    x.map Prod.fst = .ok a ↔ ∃ b, x = .ok (a, b) := by
  cases x with
  | error e => simp [Except.map]
  | ok pair =>
    obtain ⟨a', b⟩ := pair
    simp [Except.map]

section

variable {o o' : Objective} {op : Operation}

variable {stepID sourceDigest provisionID : String} {action : ContinuationAction} {failure : FailureClass}

theorem refineRequirements_move {additional : List Requirement}
    (run : o.refineRequirements stepID additional = .ok o') :
    o' = o ∨ Move o (.refineRequirements stepID additional) o' := by
  simp only [Objective.refineRequirements, ok_iff, openStep_eq_ok, bool_iff] at run
  obtain ⟨⟨index, step⟩, ⟨located, live, found⟩, -, ⟨⟨⟨idle, unfinished⟩, inactive⟩, free⟩,
    normalized, normal, run⟩ := run
  split at run
  · rw [pure_eq_ok] at run
    exact .inl run.symm
  rw [pure_eq_ok] at run
  subst run
  have none : step.acceptanceContract = none := by simpa using free
  exact .inr (.step live located found (.refined idle unfinished inactive none normal))

theorem planAttempt_move {attemptID : String} {resolution : Resolution}
    {candidates : List EnvironmentAttestation}
    (run : o.planAttempt stepID attemptID sourceDigest candidates = .ok (o', resolution)) :
    Move o (.planAttempt stepID attemptID sourceDigest candidates) o' := by
  simp only [Objective.planAttempt, ok_iff, openStep_eq_ok, bool_iff, ge_iff_le, not_le] at run
  obtain ⟨⟨index, step⟩, ⟨located, live, found⟩, -, contracted, -, inactive, -, unfinished, -, room,
    ⟨attempt, resolution'⟩, resolved, rfl, -⟩ := run
  refine .step live located found (.planned ?_ inactive unfinished room resolved)
  intro contract has
  dsimp only at has contracted
  rw [has] at contracted
  simpa using contracted

theorem startAttempt_move (run : o.startAttempt stepID = .ok o') : Move o (.startAttempt stepID) o' := by
  simp only [Objective.startAttempt, ok_iff, openStep_eq_ok, changeAttempt_eq_ok] at run
  obtain ⟨⟨index, step⟩, ⟨located, live, found⟩, _, ⟨last, next, latest, moved, rfl⟩, rfl⟩ := run
  exact .step live located found (.started latest moved)

theorem rejectAttempt_move (run : o.rejectAttempt stepID failure = .ok (o', action)) :
    Move o (.rejectAttempt stepID failure) o' := by
  simp only [Objective.rejectAttempt, ok_iff, openStep_eq_ok, changeAttempt_eq_ok,
    ExecutionAttempt.rejectPreflight, bool_iff, not_not] at run
  obtain ⟨⟨index, step⟩, ⟨located, live, found⟩, -, allowed, _,
    ⟨last, next, latest, ⟨-, ⟨before, -⟩, rfl⟩, rfl⟩, rfl, -⟩ := run
  exact .step live located found (.rejected latest before allowed)

theorem failAttempt_move
    (run : o.failAttempt stepID failure = .ok (o', action)) : Move o (.failAttempt stepID failure) o' := by
  simp only [Objective.failAttempt, ok_iff, openStep_eq_ok, changeAttempt_eq_ok, ExecutionAttempt.fail,
    bool_iff, not_not] at run
  obtain ⟨⟨index, step⟩, ⟨located, live, found⟩, _, ⟨last, next, latest, ⟨-, before, rfl⟩, rfl⟩, rfl, -⟩ := run
  exact .step live located found (.failed latest before)

theorem completeAttempt_move (run : o.completeAttempt stepID = .ok o') :
    Move o (.completeAttempt stepID) o' := by
  simp only [Objective.completeAttempt, ok_iff, openStep_eq_ok, changeAttempt_eq_ok] at run
  obtain ⟨⟨index, step⟩, ⟨located, live, found⟩, _, ⟨last, next, latest, moved, rfl⟩, rfl⟩ := run
  exact .step live located found (.completed latest moved)

theorem planProvisioning_move {plan : ProvisionPlan}
    (run : o.planProvisioning stepID provisionID sourceDigest plan = .ok o') :
    Move o (.planProvisioning stepID provisionID sourceDigest plan) o' := by
  simp only [Objective.planProvisioning, ok_iff, openStep_eq_ok] at run
  obtain ⟨-, -, ⟨index, step⟩, ⟨located, live, found⟩, -, -, -, -, -, authorized, provision, new, -,
    sound, rfl⟩ := run
  exact .step live located found (.provisioned authorized new sound)

theorem advanceProvision_move {change : ProvisioningAttempt → Except String ProvisioningAttempt}
    (changes : op.provisionChange = some change)
    (run : o.advanceProvision op.stepID provisionID change = .ok o') : o' = o ∨ Move o op o' := by
  simp only [Objective.advanceProvision, ok_iff, openStep_eq_ok] at run
  obtain ⟨-, -, ⟨index, step⟩, ⟨located, live, found⟩, last, latest, -, -, next, changed, -, revision,
    run⟩ := run
  split at run
  · rw [pure_eq_ok] at run
    exact .inl run.symm
  rename_i different
  simp only [ok_iff] at run
  obtain ⟨-, sound, rfl⟩ := run
  exact .inr (.step live located found
    (.advanced latest changes changed revision (Bool.eq_false_iff.mpr different) sound))

theorem accept_move (run : o.accept = .ok o') : Move o .accept o' := by
  simp only [Objective.accept, ok_iff, bool_iff, not_not] at run
  obtain ⟨-, ⟨⟨⟨pending, -⟩, -⟩, free⟩, rfl⟩ := run
  exact .settle (.accepted pending free)

theorem acceptWithEvidence_move {receipts : List CommandAcceptanceReceipt}
    (run : o.acceptWithEvidence receipts = .ok o') : Move o (.acceptWithEvidence receipts) o' := by
  simp only [Objective.acceptWithEvidence, ok_iff, bool_iff, not_not] at run
  obtain ⟨-, ⟨⟨⟨⟨-, pending⟩, -⟩, -⟩, -⟩, -, -, scan, attached, -, sound, rfl⟩ := run
  exact .settle (.evidenced pending attached sound)

theorem cancel_move (run : o.cancel = .ok o') : Move o .cancel o' := by
  simp only [Objective.cancel, ok_iff] at run
  obtain ⟨-, live, steps, each, rfl⟩ := run
  exact .settle (.cancelled live each)

/-- An operation that succeeds left the objective alone or made one of the moves. -/
theorem apply_move (run : o.apply op = .ok o') : o' = o ∨ Move o op o' := by
  cases op with
  | refineRequirements stepID additional => exact refineRequirements_move run
  | planAttempt stepID attemptID sourceDigest candidates =>
    obtain ⟨resolution, run⟩ := map_fst_eq_ok.mp run
    exact .inr (planAttempt_move run)
  | startAttempt stepID => exact .inr (startAttempt_move run)
  | rejectAttempt stepID failure =>
    obtain ⟨action, run⟩ := map_fst_eq_ok.mp run
    exact .inr (rejectAttempt_move run)
  | failAttempt stepID failure =>
    obtain ⟨action, run⟩ := map_fst_eq_ok.mp run
    exact .inr (failAttempt_move run)
  | completeAttempt stepID => exact .inr (completeAttempt_move run)
  | accept => exact .inr (accept_move run)
  | acceptWithEvidence receipts => exact .inr (acceptWithEvidence_move run)
  | cancel => exact .inr (cancel_move run)
  | planProvisioning stepID provisionID sourceDigest plan => exact .inr (planProvisioning_move run)
  | bindProvisionJob stepID provisionID jobID => exact advanceProvision_move rfl run
  | bindProvisionFence stepID provisionID fence => exact advanceProvision_move rfl run
  | completeProvision stepID provisionID receiptDigest => exact advanceProvision_move rfl run
  | failProvision stepID provisionID failure => exact advanceProvision_move rfl run

end

end Aeontra.Development
