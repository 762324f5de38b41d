import Aeontra.Development.Extension
import Aeontra.Development.Lifecycle
import Aeontra.Library.Visible
import Aeontra.Workqueue.Contracts

/-!
How a valid objective survives the change of one attempt or of one step.
-/

namespace Aeontra.Development

open Library Workqueue List

variable {o : Objective} {step : ObjectiveStep}

theorem ne_accepted_of_live (live : o.terminal = false) : o.state ≠ .accepted := by
  intro accepted
  simp [Objective.terminal, accepted, ObjectiveState.settled] at live

theorem StepSound.unreceipted (sound : StepSound o step) (live : o.terminal = false) :
    step.acceptanceReceipt = none := by
  cases held : step.acceptanceReceipt with
  | none => rfl
  | some receipt => exact absurd (sound.receipt receipt held).2.1 (ne_accepted_of_live live)

variable {o' : Objective} {attempt next last : ExecutionAttempt} {attempts : List ExecutionAttempt}
  {state : StepState} {text attemptID sourceDigest : String} {environment : EnvironmentAttestation}
  {after before : ObjectiveState}

theorem StepSound.transfer (sound : StepSound o step)
    (none : step.acceptanceReceipt = none) (policy : o'.policy = o.policy) : StepSound o' step := by
  refine ⟨sound.named, sound.few, sound.normal, sound.attempts, sound.chain, ?_, ?_, ?_,
    sound.fewProvisions, ?_, sound.settled, sound.exclusive, sound.covered, sound.fits⟩
  · rw [policy]
    exact sound.contract
  · simp [none]
  · rw [policy]
    exact sound.classes
  · rw [policy]
    exact sound.provisions

variable {previous : Option ExecutionAttempt} {stepID : String} {candidates : List EnvironmentAttestation}
  {policy : ResolutionPolicy} {provisioning : List ProvisioningAttempt}

theorem chained_concat :
    chained previous (attempts ++ [attempt]) =
      (chained previous attempts && follows (attempts.getLast?.or previous) attempt) := by
  induction attempts generalizing previous with
  | nil => simp [chained]
  | cons first attempts ih =>
    rw [cons_append, chained, ih, chained, Bool.and_assoc, List.getLast?_cons]
    cases attempts.getLast? with
    | none => rfl
    | some last => rfl

theorem follows_congr {left right : ExecutionAttempt}
    (same : left.identity = right.identity) : follows previous left = follows previous right := by
  have parent : left.parentAttemptID = right.parentAttemptID := congrArg (·.parentAttemptID) same
  have source : left.sourceDigest = right.sourceDigest := congrArg (·.sourceDigest) same
  have environment : left.environmentDigest = right.environmentDigest := congrArg (·.environmentDigest) same
  unfold follows validAttemptContinuation
  rw [parent, source, environment]

theorem AttemptSound.revise {before after : ExecutionAttempt}
    (sound : AttemptSound stepID before) (same : before.identity = after.identity)
    (fits : after.failureFits = true) : AttemptSound stepID after := by
  refine ⟨?_, ?_, fits⟩
  · have identity := sound.identity
    change before.identity.validIdentity = true at identity
    rw [same] at identity
    exact identity
  · have owner := sound.owner
    change before.identity.stepID = stepID at owner
    rw [same] at owner
    exact owner

theorem transition_identity {state : AttemptState}
    (moved : attempt.transition state = .ok next) : attempt.identity = next.identity := by
  simp only [ExecutionAttempt.transition, ok_iff] at moved
  obtain ⟨-, -, moved⟩ := moved
  split at moved
  · rw [pure_eq_ok] at moved
    rw [moved]
  · simp only [ok_iff] at moved
    obtain ⟨-, -, rfl⟩ := moved
    rfl

theorem transition_failureFits {state : AttemptState}
    (moved : attempt.transition state = .ok next) (fits : attempt.failureFits = true)
    (target : state ≠ .failed) : next.failureFits = true := by
  have reached := transition_state moved
  simp only [ExecutionAttempt.transition, ok_iff] at moved
  obtain ⟨-, -, moved⟩ := moved
  split at moved
  · rw [pure_eq_ok] at moved
    rw [← moved]
    exact fits
  · simp only [ok_iff] at moved
    obtain ⟨-, -, rfl⟩ := moved
    simp [ExecutionAttempt.failureFits, target]

structure Revision (step : ObjectiveStep) (last next : ExecutionAttempt) : Prop where
  latest : step.attempts.getLast? = some last
  same : last.identity = next.identity
  fits : next.failureFits = true

theorem Revision.attemptIDs (revision : Revision step last next) :
    (replaceLast step.attempts next).map ExecutionAttempt.attemptID =
      step.attempts.map ExecutionAttempt.attemptID := by
  obtain ⟨earlier, whole⟩ := split_last revision.latest
  have name : last.attemptID = next.attemptID := congrArg (·.attemptID) revision.same
  rw [whole, replaceLast_append, map_append, map_append]
  simp [name]

theorem Revision.forall (revision : Revision step last next)
    {holds : ExecutionAttempt → Prop} (carries : holds last → holds next)
    (each : ∀ attempt ∈ step.attempts, holds attempt) :
    ∀ attempt ∈ replaceLast step.attempts next, holds attempt := by
  obtain ⟨earlier, whole⟩ := split_last revision.latest
  rw [whole] at each
  rw [whole, replaceLast_append]
  intro attempt member
  rcases mem_append.mp member with old | new
  · exact each attempt (mem_append_left _ old)
  · rw [mem_singleton.mp new]
    exact carries (each last (by simp))

theorem StepSound.reviseAttempt (sound : StepSound o step) (none : step.acceptanceReceipt = none)
    (policy : o'.policy = o.policy) (revision : Revision step last next)
    (exclusive : activeProvisioning step = true → state ≠ .running ∧ state ≠ .succeeded ∧ state ≠ .cancelled)
    (fits : stepStateMatchesAttempts
      { step with attempts := replaceLast step.attempts next, state := state } = true) :
    StepSound o' { step with attempts := replaceLast step.attempts next, state := state } := by
  have length : (replaceLast step.attempts next).length = step.attempts.length := by
    have ids := congrArg length revision.attemptIDs
    simpa using ids
  refine ⟨sound.named, ?_, sound.normal, ?_, ?_, ?_, by simp [none], ?_, sound.fewProvisions, ?_,
    sound.settled, exclusive, sound.covered, fits⟩
  · rw [length]
    exact sound.few
  · exact revision.forall (fun held => held.revise revision.same revision.fits) sound.attempts
  · obtain ⟨earlier, whole⟩ := split_last revision.latest
    have chain := sound.chain
    dsimp only
    rw [whole, chained_concat] at chain
    rw [whole, replaceLast_append, chained_concat, ← follows_congr revision.same]
    exact chain
  · intro contract held
    obtain ⟨valid, sources⟩ := sound.contract contract held
    rw [policy]
    have source : last.sourceDigest = next.sourceDigest := congrArg (·.sourceDigest) revision.same
    exact ⟨valid, revision.forall (fun held => source ▸ held) sources⟩
  · rw [policy]
    have class' : last.executionClass = next.executionClass := congrArg (·.executionClass) revision.same
    exact revision.forall (fun held => class' ▸ held) sound.classes
  · rw [policy]
    exact sound.provisions

structure Planned (policy : ResolutionPolicy) (step : ObjectiveStep) (attemptID sourceDigest : String)
    (attempt : ExecutionAttempt) : Prop where
  identity : attempt.validIdentity = true
  owner : attempt.stepID = Text.trimSpace step.stepID
  name : attempt.attemptID = Text.trimSpace attemptID
  source : attempt.sourceDigest = Text.lowerText (Text.trimSpace sourceDigest)
  allowed : policy.allowsClass attempt.executionClass = true
  state : attempt.state = .planned
  failure : attempt.failure = none
  follows : follows step.attempts.getLast? attempt = true
  parent : ∀ previous, step.attempts.getLast? = some previous →
    previous.state = .failed ∧ attempt.parentAttemptID = previous.attemptID

theorem identity_visible (matched : identityPattern.matchString text = true) :
    ∀ c ∈ text.toList, isVisible c = true := by
  rw [identityPattern, Pattern.matchString_singleton] at matched
  refine Pattern.forall_of_matchBlocks ?_ matched
  intro b member c inside
  simp only [mem_cons, not_mem_nil, or_false] at member
  rcases member with rfl | rfl
  · exact isVisible_of_isAlnum inside
  simp only [keyTail, bool_iff, beq_iff_eq] at inside
  rcases inside with (((alnum | rfl) | rfl) | rfl) | rfl
  · exact isVisible_of_isAlnum alnum
  all_goals decide

theorem digest_lower (matched : sourceDigestPattern.matchString text = true) :
    ∀ c ∈ text.toList, isLowerVisible c = true := by
  have leads : ∀ c ∈ "sha256:".toList, isLowerVisible c = true := all_eq_true.mp (by decide)
  obtain ⟨digits, whole, -, -, hex⟩ := hexPattern_chars matched
  rw [whole]
  intro c member
  rcases mem_append.mp member with lead | digit
  · exact leads c lead
  · exact isLowerVisible_of_isLowerHex (hex c digit)

theorem trimSpace_identity (matched : identityPattern.matchString text = true) : Text.trimSpace text = text :=
  trimSpace_of_visible (identity_visible matched)

theorem lower_trimSpace_digest (matched : sourceDigestPattern.matchString text = true) :
    Text.lowerText (Text.trimSpace text) = text := by
  have lower := digest_lower matched
  rw [trimSpace_of_visible fun c member => isVisible_of_isLowerVisible (lower c member),
    lowerText_of_lower lower]

theorem newExecutionAttempt_spec
    (new : newExecutionAttempt attemptID stepID sourceDigest environment = .ok attempt) :
    attempt.validIdentity = true ∧ attempt.stepID = Text.trimSpace stepID ∧
      attempt.attemptID = Text.trimSpace attemptID ∧
      attempt.sourceDigest = Text.lowerText (Text.trimSpace sourceDigest) ∧
      attempt.environmentDigest = environment.digest ∧
      attempt.executionClass = environment.executionClass ∧ attempt.parentAttemptID = "" ∧
      attempt.state = .planned ∧ attempt.failure = none := by
  simp only [newExecutionAttempt, ok_iff, bool_iff] at new
  obtain ⟨-, ⟨⟨⟨name, owner⟩, source⟩, valid⟩, rfl⟩ := new
  refine ⟨?_, rfl, rfl, rfl, rfl, rfl, rfl, rfl, rfl⟩
  simp only [EnvironmentAttestation.valid, bool_iff] at valid
  obtain ⟨⟨⟨environmentName, generation⟩, -⟩, digest⟩ := valid
  have hashed : sourceDigestPattern.matchString environment.digest = true := by
    rw [digest]
    exact payloadDigest_matches _
  simp only [ExecutionAttempt.validIdentity, name, owner, source, environmentName, hashed, Bool.and_true,
    Bool.true_and, decide_true]
  exact decide_eq_true generation

theorem continuationEnvironment_allowed {previous : ExecutionAttempt}
    (run : Objective.continuationEnvironment policy step previous candidates = .ok environment) :
    policy.allows environment = true := by
  simp only [Objective.continuationEnvironment, ok_iff] at run
  obtain ⟨action, -, run⟩ := run
  have exact' : ∀ {message message' message'' : String} {found : Option EnvironmentAttestation}
      {bad : EnvironmentAttestation → Bool}, (do
        let environment ← required message found
        reject (!policy.allows environment) message'
        reject (bad environment) message''
        pure environment) = .ok environment → policy.allows environment = true := by
    intro message message' message'' found bad run
    simp only [ok_iff] at run
    obtain ⟨_, -, -, allowed, -, -, rfl⟩ := run
    exact allowed
  cases action with
  | stopPolicy => cases run
  | reconcile => cases run
  | fixCode => exact exact' run
  | retrySameEnvironment => exact exact' run
  | provisionOrMigrate =>
    simp only [ok_iff] at run
    obtain ⟨resolution, resolved, rfl⟩ := run
    exact resolve_allowed resolved

theorem allowsClass_of_allows (allowed : policy.allows environment = true) :
    policy.allowsClass environment.executionClass = true := by
  simp only [ResolutionPolicy.allows, bool_iff] at allowed
  exact allowed.2

theorem nextAttempt_planned {resolution : Resolution} (sound : StepSound o step)
    (resolved : Objective.nextAttempt o.policy step attemptID sourceDigest candidates =
      .ok (attempt, resolution)) :
    Planned o.policy step attemptID sourceDigest attempt := by
  unfold Objective.nextAttempt at resolved
  cases latest : step.attempts.getLast? with
  | none =>
    rw [latest] at resolved
    simp only [ok_iff] at resolved
    obtain ⟨chosen, found, _, new, rfl, -⟩ := resolved
    obtain ⟨identity, owner, name, source, -, sameClass, parent, state, failure⟩ := newExecutionAttempt_spec new
    refine ⟨identity, owner, name, source, ?_, state, failure, ?_, ?_⟩
    · rw [sameClass]
      exact allowsClass_of_allows (resolve_allowed found)
    · simp [latest, follows, parent]
    · simp [latest]
  | some previous =>
    rw [latest] at resolved
    simp only [ok_iff, bool_iff, not_not, continueExecutionAttempt] at resolved
    obtain ⟨-, failed, environment, chosen, _, ⟨-, -, action, known, -, digest, -, continued, fresh, new,
      rfl⟩, rfl, -⟩ := resolved
    obtain ⟨identity, owner, name, source, environmentDigest, sameClass, -, state, failure⟩ :=
      newExecutionAttempt_spec new
    rw [lower_trimSpace_digest digest] at source
    have held := sound.attempts previous (mem_of_getLast? latest)
    refine ⟨identity, owner.trans (by rw [held.owner]), name, source, ?_, state, failure, ?_, ?_⟩
    · change o.policy.allowsClass fresh.executionClass = true
      rw [sameClass]
      exact allowsClass_of_allows (continuationEnvironment_allowed chosen)
    · rw [latest]
      simp only [follows, validAttemptContinuation, failed, known, source, environmentDigest, continued,
        decide_true, Option.any_some, Bool.and_self]
    intro other same
    rw [latest, Option.some.injEq] at same
    rw [← same]
    exact ⟨failed, rfl⟩

theorem StepSound.addAttempt
    (sound : StepSound o step) (none : step.acceptanceReceipt = none) (policy : o'.policy = o.policy)
    (planned : Planned o.policy step attemptID sourceDigest attempt)
    (room : step.attempts.length < maxAttemptsPerStep) (inactive : activeProvisioning step = false)
    (contracted : ∀ contract, step.acceptanceContract = some contract →
      Text.trimSpace sourceDigest = contract.sourceDigest) :
    StepSound o' { step with attempts := step.attempts ++ [attempt], state := .planned } := by
  have added : ∀ {holds : ExecutionAttempt → Prop}, (∀ other ∈ step.attempts, holds other) →
      holds attempt → ∀ other ∈ step.attempts ++ [attempt], holds other := by
    intro holds each new other member
    rcases mem_append.mp member with old | last
    · exact each other old
    · rw [mem_singleton.mp last]
      exact new
  have owner : attempt.stepID = step.stepID := planned.owner.trans (trimSpace_identity sound.named)
  have fits : attempt.failureFits = true := by
    simp [ExecutionAttempt.failureFits, planned.state, planned.failure]
  refine ⟨sound.named, ?_, sound.normal, added sound.attempts ⟨planned.identity, owner, fits⟩, ?_, ?_,
    by simp [none], ?_, sound.fewProvisions, ?_, sound.settled, ?_, sound.covered, ?_⟩
  · rw [length_append, length_singleton]
    exact room
  · dsimp only
    rw [chained_concat, sound.chain, Option.or_none, planned.follows]
    rfl
  · intro contract held
    obtain ⟨valid, sources⟩ := sound.contract contract held
    have pattern : sourceDigestPattern.matchString contract.sourceDigest = true := by
      simp only [CommandAcceptanceContract.validFor, CommandAcceptanceContract.valid, bool_iff] at valid
      exact valid.1.1.1.1.1.1.1.1.2
    rw [policy]
    refine ⟨valid, added sources ?_⟩
    rw [planned.source, contracted contract held, lowerText_of_lower (digest_lower pattern)]
  · rw [policy]
    exact added sound.classes planned.allowed
  · rw [policy]
    exact sound.provisions
  · intro active
    change activeProvisioning step = true at active
    rw [inactive] at active
    cases active
  · simp [stepStateMatchesAttempts, planned.state]

section

variable {index : Nat} {step' : ObjectiveStep} {state : ObjectiveState}

theorem SnapshotSound.receipts_none (sound : SnapshotSound o) (live : o.terminal = false) :
    ∀ step ∈ o.steps, step.acceptanceReceipt = none :=
  fun step member => (sound.steps step member).unreceipted live

variable {α : Type} {steps : List ObjectiveStep} {items : List α} {old : α} {last : ExecutionAttempt}

theorem operationIDs_of_none
    (none : ∀ step ∈ steps, step.acceptanceReceipt = none) : operationIDs steps = [] := by
  rw [operationIDs, filterMap_eq_nil_iff]
  intro step member
  simp [none step member]

theorem countP_of_none (none : ∀ step ∈ steps, step.acceptanceReceipt = none) :
    (steps.countP fun step => step.acceptanceReceipt.isSome) = 0 := by
  rw [countP_eq_zero]
  intro step member
  simp [none step member]

theorem contractMode_of_map {steps' : List ObjectiveStep}
    (same : steps'.map ObjectiveStep.acceptanceContract = steps.map ObjectiveStep.acceptanceContract) :
    sameCommandAcceptanceContractMode steps' = sameCommandAcceptanceContractMode steps := by
  have mode : ∀ steps : List ObjectiveStep, sameCommandAcceptanceContractMode steps =
      (decide ((steps.map ObjectiveStep.acceptanceContract).countP Option.isSome = 0) ||
        decide ((steps.map ObjectiveStep.acceptanceContract).countP Option.isSome =
          (steps.map ObjectiveStep.acceptanceContract).length)) := by
    intro steps
    rw [countP_map, length_map]
    rfl
  rw [mode, mode, same]

theorem contractMode_set (found : o.steps[index]? = some step)
    (contract : step'.acceptanceContract = step.acceptanceContract) :
    sameCommandAcceptanceContractMode (o.steps.set index step') =
      sameCommandAcceptanceContractMode o.steps := by
  obtain ⟨before, after, whole, -, replaced⟩ := split_at found
  apply contractMode_of_map
  rw [replaced, whole, map_append, map_append, map_cons, map_cons, contract]

theorem next_revision (below : o.revision < 2 ^ 64 - 1) : (o.revision + 1) % 2 ^ 64 = o.revision + 1 := by
  rw [Nat.mod_eq_of_lt]
  omega

theorem SnapshotSound.revise (sound : SnapshotSound o) (live : o.terminal = false)
    (below : o.revision < 2 ^ 64 - 1) (found : o.steps[index]? = some step)
    (sound' : StepSound (o.revise index step' state) step') (name : step'.stepID = step.stepID)
    (contract : step'.acceptanceContract = step.acceptanceContract) (none : step'.acceptanceReceipt = none)
    (identities : ((o.steps.set index step').flatMap ObjectiveStep.identities).Nodup)
    (fits : checkObjectiveState (o.revise index step' state) 0 = .ok ()) :
    SnapshotSound (o.revise index step' state) := by
  have unreceipted : ∀ other ∈ o.steps.set index step', other.acceptanceReceipt = Option.none := by
    intro other member
    rcases mem_or_eq_of_mem_set member with old | rfl
    · exact sound.receipts_none live other old
    · exact none
  refine ⟨sound.version, sound.identity, ?_, sound.scope, sound.policy, ?_, ?_, ?_, ?_, ?_, identities, ?_, ?_⟩
  · change (o.revision + 1) % 2 ^ 64 ≠ 0
    rw [next_revision below]
    omega
  · change o.steps.set index step' ≠ []
    rw [Ne, set_eq_nil_iff]
    exact sound.nonempty
  · change (o.steps.set index step').length ≤ maxObjectiveSteps
    rw [length_set]
    exact sound.few
  · exact (contractMode_set found contract).trans sound.mode
  · intro other member
    rcases mem_or_eq_of_mem_set member with old | rfl
    · exact (sound.steps other old).transfer (sound.receipts_none live other old) rfl
    · exact sound'
  · obtain ⟨before, after, whole, -, replaced⟩ := split_at found
    have names := sound.names
    change ((o.steps.set index step').map ObjectiveStep.stepID).Nodup
    rw [whole] at names
    rw [replaced, map_append, map_cons, name]
    simpa using names
  · change (operationIDs (o.steps.set index step')).Nodup
    rw [operationIDs_of_none unreceipted]
    exact nodup_nil
  · change checkObjectiveState _ ((o.steps.set index step').countP _) = _
    rw [countP_of_none unreceipted]
    exact fits

theorem identities_set (found : o.steps[index]? = some step) (same : step'.identities = step.identities) :
    (o.steps.set index step').flatMap ObjectiveStep.identities =
      o.steps.flatMap ObjectiveStep.identities := by
  obtain ⟨before, after, whole, -, replaced⟩ := split_at found
  rw [replaced, whole, flatMap_append, flatMap_append, flatMap_cons, flatMap_cons, same]

variable {before : ObjectiveState} {holds : α → Bool} {new : α}

theorem StepExtends.refl {after : ObjectiveState} (sound : StepSound o step)
    (none : step.acceptanceReceipt = none) : StepExtends before after step step := by
  have sorted : step.requirements.Pairwise (· < ·) := by
    rw [(normalizeRequirementList_eq_ok.mp sound.normal).2]
    exact canonical_pairwise _
  refine ⟨fun _ => rfl, validProvisionHistory_refl fun p member => (sound.provisions p member).valid,
    fun longer => absurd longer (lt_irrefl _), rfl, rfl, ?_, ?_, ?_, le_refl _, Nat.le_succ _, ?_⟩
  · simp [validAcceptanceReceiptTransition, none]
  · rw [requirementsSubset, requirementsLeft_of_sublist (Sublist.refl _) sorted]
    rfl
  · simp [validStepStateTransition]
  rw [validAttemptHistory, if_neg (by omega), validAttemptChange]
  cases latest : step.attempts.getLast? with
  | none => simpa using latest
  | some last => simp [validAttemptRevision]

theorem Extends.revise (sound : SnapshotSound o) (live : o.terminal = false)
    (sound' : SnapshotSound (o.revise index step' state)) (found : o.steps[index]? = some step)
    (extends' : StepExtends o.state state step step')
    (legal : validObjectiveStateTransition o.state state = true) : Extends o (o.revise index step' state) := by
  refine ⟨valid_iff.mpr sound, valid_iff.mpr sound', live, rfl, rfl, rfl, rfl, rfl, ?_, legal, ?_⟩
  · exact List.length_set.symm
  obtain ⟨before, after, whole, -, replaced⟩ := split_at found
  have kept : ∀ other ∈ o.steps, StepExtends o.state state other other := fun other member =>
    .refl (sound.steps other member) (sound.receipts_none live other member)
  intro pair member
  change pair ∈ o.steps.zip (o.steps.set index step') at member
  rw [replaced, whole, zip_append rfl, zip_cons_cons, mem_append, mem_cons] at member
  rw [whole] at kept
  rcases member with left | rfl | right
  · rw [zip_eq_zipWith, zipWith_self, mem_map] at left
    obtain ⟨other, inside, rfl⟩ := left
    exact kept other (mem_append_left _ inside)
  · exact extends'
  · rw [zip_eq_zipWith, zipWith_self, mem_map] at right
    obtain ⟨other, inside, rfl⟩ := right
    exact kept other (by simp [inside])

theorem any_set {index : Nat} (found : items[index]? = some old) (same : holds new = holds old) :
    (items.set index new).any holds = items.any holds := by
  obtain ⟨before, after, whole, -, replaced⟩ := split_at found
  rw [replaced, whole]
  simp [same]

theorem all_set {index : Nat} (found : items[index]? = some old) (same : holds new = holds old) :
    (items.set index new).all holds = items.all holds := by
  obtain ⟨before, after, whole, -, replaced⟩ := split_at found
  rw [replaced, whole]
  simp [same]

theorem mem_set_self {index : Nat} (found : items[index]? = some old)
    (new : α) : new ∈ items.set index new := by
  obtain ⟨before, after, -, -, replaced⟩ := split_at found
  rw [replaced]
  simp

variable (found : o.steps[index]? = some step)

include found

theorem checkState_running (unfinished : step'.state ≠ .succeeded) :
    checkObjectiveState (o.revise index step' .running) 0 = .ok () := by
  simp only [checkObjectiveState, Objective.revise, ok_iff, all_eq_false]
  exact ⟨step', mem_set_self found step', by simpa using unfinished⟩

theorem checkState_failed (failed : step'.state = .failed) :
    checkObjectiveState (o.revise index step' .failed) 0 = .ok () := by
  simp only [checkObjectiveState, Objective.revise, ok_iff, any_eq_true]
  exact ⟨step', mem_set_self found step', by simpa using failed⟩

theorem checkState_reconciliation (latest : step'.attempts.getLast? = some last) (failed : last.state = .failed)
    (asks : last.failure = some .reconciliationNeeded) :
    checkObjectiveState (o.revise index step' .reconciliationRequired) 0 = .ok () := by
  simp only [checkObjectiveState, Objective.revise, objectiveHasFailureClass, ok_iff, any_eq_true]
  exact ⟨step', mem_set_self found step', last, mem_of_getLast? latest, by simp [failed, asks]⟩

theorem checkState_same (states : step'.state = step.state)
    (attempts : step'.attempts = step.attempts) (provisioning : step'.provisioning = step.provisioning)
    (contract : step'.acceptanceContract = step.acceptanceContract) (receipts : Nat) :
    checkObjectiveState (o.revise index step' o.state) receipts = checkObjectiveState o receipts := by
  have active : activeProvisioning step' = activeProvisioning step := by
    simp [activeProvisioning, provisioning]
  have head : (o.steps.set index step').head?.any (fun s => s.acceptanceContract.isSome) =
      o.steps.head?.any fun s => s.acceptanceContract.isSome := by
    obtain ⟨before, after, whole, -, replaced⟩ := split_at found
    rw [replaced, whole]
    cases before <;> simp [contract]
  have length : (o.steps.set index step').length = o.steps.length := length_set
  simp only [checkObjectiveState, Objective.revise, objectiveHasFailureClass, head, length]
  rw [all_set found (by simp [states]), any_set found (by simp [states, attempts, provisioning]),
    any_set found (by simp [attempts]), any_set found (by simp [states]),
    any_set found (by simp [states, active])]

omit found

theorem SnapshotSound.all_succeeded (sound : SnapshotSound o) (pending : o.state = .acceptancePending) :
    ∀ step ∈ o.steps, step.state = .succeeded := by
  have rule := sound.state
  simp only [checkObjectiveState, pending, ok_iff, all_eq_true, bool_iff] at rule
  exact rule.choose_spec.1

theorem SnapshotSound.fresh (sound : SnapshotSound o) (planned : o.state = .planned) :
    ∀ step ∈ o.steps, FreshStep step := by
  have rule := sound.state
  simp only [checkObjectiveState, planned, ok_iff, any_eq_false, bool_iff, not_or, not_not,
    isEmpty_eq_false_iff] at rule
  exact fun step member => ⟨(rule step member).1.2, (rule step member).2, (rule step member).1.1⟩

theorem SnapshotSound.under_way (sound : SnapshotSound o)
    (live : o.terminal = false) (member : step ∈ o.steps) (latest : step.attempts.getLast? = some last)
    (unfinished : last.state ≠ .succeeded) : o.state = .running ∨ o.state = .reconciliationRequired := by
  rcases live_cases live with state | state | state | state
  · simp [(sound.fresh state step member).attempts] at latest
  · exact .inl state
  · have done := sound.all_succeeded state step member
    rw [state_of_latest (sound.steps step member).fits latest] at done
    cases held : last.state <;> simp [held, AttemptState.stepState] at done unfinished
  · exact .inr state

theorem legal_failureState
    (under : before = .running ∨ before = .reconciliationRequired) (action : ContinuationAction) :
    validObjectiveStateTransition before (Objective.failureState action) = true := by
  rcases under with rfl | rfl <;> cases action <;> decide

theorem legal_running (live : o.terminal = false) (unfinished : o.state ≠ .acceptancePending) :
    validObjectiveStateTransition o.state .running = true := by
  rcases live_cases live with state | state | state | state
  · rw [state]
    decide
  · rw [state]
    decide
  · exact absurd state unfinished
  · rw [state]
    decide

theorem checkState_failure {failure : FailureClass}
    (found : o.steps[index]? = some step) (stepFailed : step'.state = .failed)
    (latest : step'.attempts.getLast? = some last) (failed : last.state = .failed)
    (recorded : last.failure = some failure) :
    checkObjectiveState (o.revise index step' (Objective.failureState failure.action)) 0 = .ok () := by
  by_cases asks : failure = .reconciliationNeeded
  · subst asks
    exact checkState_reconciliation found latest failed recorded
  by_cases stops : failure = .policyDenied
  · subst stops
    exact checkState_failed found stepFailed
  have runs : Objective.failureState failure.action = .running := by
    cases failure <;> first | rfl | contradiction
  rw [runs]
  exact checkState_running found (by simp [stepFailed])

end

theorem validAttemptHistory_replaceLast
    (latest : attempts.getLast? = some last) (revision : validAttemptRevision last next = true) :
    validAttemptHistory attempts (replaceLast attempts next) = true := by
  obtain ⟨earlier, rfl⟩ := split_last latest
  rw [replaceLast_append, validAttemptHistory, if_neg (by simp), validAttemptChange]
  simp [revision]

theorem validAttemptHistory_add {added : ExecutionAttempt}
    (planned : added.state = .planned) (first : attempts = [] → added.parentAttemptID = "")
    (parent : ∀ previous, attempts.getLast? = some previous →
      previous.state = .failed ∧ added.parentAttemptID = previous.attemptID) :
    validAttemptHistory attempts (attempts ++ [added]) = true := by
  rw [validAttemptHistory, if_pos (by simp), validAttemptAddition]
  cases latest : attempts.getLast? with
  | none =>
    have empty := getLast?_eq_none_iff.mp latest
    simp [planned, first empty]
  | some previous =>
    obtain ⟨failed, named⟩ := parent previous latest
    simp [planned, failed, named]

theorem transition_revision {state : AttemptState}
    (moved : last.transition state = .ok next) (target : state ≠ .failed) :
    validAttemptRevision last next = true := by
  have identity := transition_identity moved
  have reached := transition_state moved
  have source := transition_from moved
  simp only [ExecutionAttempt.transition, ok_iff] at moved
  obtain ⟨-, -, moved⟩ := moved
  split at moved
  · rw [pure_eq_ok] at moved
    subst moved
    simp [validAttemptRevision]
  rename_i different
  simp only [ok_iff] at moved
  obtain ⟨-, -, rfl⟩ := moved
  rcases source with same | allowed
  · exact absurd same different
  · cases held : last.state <;> cases state <;>
      simp_all [attemptTransitionAllowed, validAttemptRevision]

variable (sound : StepSound o step)

include sound

theorem StepExtends.change (none : step.acceptanceReceipt = none)
    (provisions : validProvisionHistory step.provisioning provisioning = true)
    (authorized : step.provisioning.length < provisioning.length → canPlanProvisioning step = true)
    (legal : validStepStateTransition step.state state = true)
    (longer : step.attempts.length ≤ attempts.length) (oneMore : attempts.length ≤ step.attempts.length + 1)
    (history : validAttemptHistory step.attempts attempts = true) :
    StepExtends before after step
      { step with attempts := attempts, provisioning := provisioning, state := state } := by
  have same : StepExtends before after step step := .refl sound none
  refine ⟨fun _ => rfl, provisions, authorized, rfl, rfl, ?_, same.requirements, legal, longer, oneMore,
    history⟩
  simp [validAcceptanceReceiptTransition, none]

theorem StepExtends.ofAttempts (none : step.acceptanceReceipt = none)
    (legal : validStepStateTransition step.state state = true)
    (longer : step.attempts.length ≤ attempts.length) (oneMore : attempts.length ≤ step.attempts.length + 1)
    (history : validAttemptHistory step.attempts attempts = true) :
    StepExtends before after step { step with attempts := attempts, state := state } := by
  have same : StepExtends before after step step := .refl sound none
  exact .change sound none same.provisions same.authorized legal longer oneMore history

theorem StepExtends.replaceAttempt (none : step.acceptanceReceipt = none)
    (latest : step.attempts.getLast? = some last) (revision : validAttemptRevision last next = true)
    (legal : validStepStateTransition step.state state = true) :
    StepExtends before after step
      { step with attempts := replaceLast step.attempts next, state := state } := by
  have length : (replaceLast step.attempts next).length = step.attempts.length := by
    obtain ⟨earlier, whole⟩ := split_last latest
    rw [whole, replaceLast_append]
    simp
  exact .ofAttempts sound none legal length.ge (by omega)
    (validAttemptHistory_replaceLast latest revision)

theorem StepExtends.ofProvisioning (none : step.acceptanceReceipt = none)
    (history : validProvisionHistory step.provisioning provisioning = true)
    (authorized : step.provisioning.length < provisioning.length → canPlanProvisioning step = true) :
    StepExtends before after step { step with provisioning := provisioning } := by
  have same : StepExtends before after step step := .refl sound none
  exact .change sound none history authorized same.state same.longer same.oneMore same.attempts

omit sound

theorem validProvisionHistory_add {provisions : List ProvisioningAttempt} {added : ProvisioningAttempt}
    (inactive : provisions.getLast?.any (fun last => last.state.active) = false)
    (planned : added.state = .planned) : validProvisionHistory provisions (provisions ++ [added]) = true := by
  simp only [validProvisionHistory, length_append, length_singleton, bool_iff, all_eq_true]
  refine ⟨⟨⟨by simp, by simp⟩, ?_⟩, .inr ⟨by simpa using inactive, by simp [planned]⟩⟩
  intro entry member
  have zipped : provisions.zip (provisions ++ [added]) = provisions.zip provisions := by
    rw [zip_eq_zip_take_min]
    simp
  rw [zipped] at member
  obtain ⟨same, -⟩ := mem_zipIdx_zip_self member
  rw [if_neg (by simp), same]
  exact sameProvisionAttempt_refl _

end Aeontra.Development
