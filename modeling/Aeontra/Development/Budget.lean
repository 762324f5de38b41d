import Aeontra.Library.JsonSize
import Aeontra.Development.History
import Aeontra.Development.Saving
import Aeontra.Workqueue.Requests

/-!
The byte budget of an objective's record: how much each operation can add to the record, and when
what it returns can still be encoded.
-/

namespace Aeontra.Development

open Library JsonText Workqueue List Nat

variable {text : String} {environment : EnvironmentAttestation} {policy : ResolutionPolicy}
  {resolution : Resolution} {o' : Objective} {id : Requirement}

theorem byteLength_quote_digest (matched : digestPattern.matchString text = true) :
    byteLength (quote text) ≤ 73 :=
  byteLength_quote_hex (all_eq_true.mp (by decide)) matched

theorem byteLength_quote_job (matched : provisionJobIDPattern.matchString text = true) :
    byteLength (quote text) ≤ 37 :=
  byteLength_quote_hex (all_eq_true.mp (by decide)) matched

theorem byteLength_quote_failure (failure : Option FailureClass) :
    byteLength (quote (failureText failure)) ≤ 28 := by
  cases failure with
  | none => decide
  | some failure => cases failure <;> decide

theorem byteLength_quote_attemptState (state : AttemptState) : byteLength (quote state.text) ≤ 11 := by
  cases state <;> decide

theorem byteLength_quote_stepState (state : StepState) : byteLength (quote state.text) ≤ 11 := by
  cases state <;> decide

theorem byteLength_quote_provisioningState (state : ProvisioningState) :
    byteLength (quote state.text) ≤ 11 := by
  cases state <;> decide

theorem byteLength_quote_objectiveState (state : ObjectiveState) : byteLength (quote state.text) ≤ 25 := by
  cases state <;> decide

theorem byteLength_quote_class (class' : ExecutionClass) : byteLength (quote class'.text) ≤ 28 := by
  cases class' <;> decide

theorem byteLength_nat_tier (class' : ExecutionClass) : byteLength (nat class'.tier) ≤ 1 := by
  cases class' <;> decide

def ExecutionAttempt.bytes (attempt : ExecutionAttempt) : Nat :=
  byteLength (JsonText.record (attemptSlots attempt.record))

theorem attempt_bytes (attempt : ExecutionAttempt) :
    attempt.bytes = 1 + slotsBytes (attemptSlots attempt.record) :=
  byteLength_record (mem_cons_self ..)

theorem attempt_bytes_change (attempt : ExecutionAttempt) (state : AttemptState)
    (failure : Option FailureClass) :
    ({ attempt with state := state, failure := failure } : ExecutionAttempt).bytes ≤ attempt.bytes + 64 := by
  have states := byteLength_quote_attemptState state
  have failures := byteLength_quote_failure failure
  have slot := slotBytes_optionalText_le "failure_class" (failureText failure)
  have name : byteLength "failure_class" = 13 := by decide
  rw [attempt_bytes, attempt_bytes]
  simp only [attemptSlots, ExecutionAttempt.record, slotsBytes_cons, slotBytes_textSlot, slotsBytes_nil]
  omega

variable {attempt : ExecutionAttempt} {growth : Nat} {sourceDigest attemptID : String}
  {candidates : List EnvironmentAttestation} {step step' : ObjectiveStep} {o : Objective} {op : Operation}

theorem attempt_bytes_le (valid : attempt.validIdentity = true)
    (parent : attempt.parentAttemptID = "" ∨ identityPattern.matchString attempt.parentAttemptID = true) :
    attempt.bytes ≤ 900 + byteLength (nat attempt.environmentGeneration) := by
  simp only [ExecutionAttempt.validIdentity, bool_iff] at valid
  obtain ⟨⟨⟨⟨⟨⟨name, -⟩, environment⟩, source⟩, -⟩, digest⟩, tier⟩ := valid
  have names := byteLength_quote_identity name
  have environments := byteLength_quote_identity environment
  have sources := byteLength_quote_digest source
  have digests := byteLength_quote_digest digest
  have states := byteLength_quote_attemptState attempt.state
  have failures := byteLength_quote_failure attempt.failure
  have classes := byteLength_quote_class attempt.executionClass
  have tiers := byteLength_nat_tier attempt.executionClass
  have failureSlot := slotBytes_optionalText_le "failure_class" (failureText attempt.failure)
  have parents : slotBytes (optionalText "parent_attempt_id" attempt.parentAttemptID) ≤ 151 := by
    rcases parent with none | matched
    · rw [none]
      exact zero_le _
    have slot := slotBytes_optionalText_le "parent_attempt_id" attempt.parentAttemptID
    have bound := byteLength_quote_identity matched
    have label : byteLength "parent_attempt_id" = 17 := by decide
    omega
  have labels : byteLength "attempt_id" = 10 ∧ byteLength "source_digest" = 13 ∧
      byteLength "environment_id" = 14 ∧ byteLength "environment_digest" = 18 ∧
      byteLength "environment_generation" = 22 ∧ byteLength "execution_class" = 15 ∧
      byteLength "authority_tier" = 14 ∧ byteLength "state" = 5 ∧ byteLength "failure_class" = 13 := by
    decide
  rw [attempt_bytes]
  simp only [attemptSlots, ExecutionAttempt.record, slotsBytes_cons, slotBytes_textSlot, slotBytes_natSlot,
    slotsBytes_nil, ← tier]
  omega

def ProvisioningAttempt.bytes (provision : ProvisioningAttempt) : Nat :=
  byteLength (record (provisionSlots provision))

theorem provision_bytes (provision : ProvisioningAttempt) :
    provision.bytes = 1 + slotsBytes (provisionSlots provision) :=
  byteLength_record (mem_cons_self ..)

theorem provision_bytes_change (provision : ProvisioningAttempt) (state : ProvisioningState)
    {jobID receiptDigest : String} {fence : Nat} (failure : Option FailureClass)
    (fences : slotBytes (optionalNat "job_fence" fence) ≤
      slotBytes (optionalNat "job_fence" provision.jobFence) + growth)
    (job : jobID = provision.jobID ∨ provisionJobIDPattern.matchString jobID = true)
    (receipt : receiptDigest = provision.receiptDigest ∨ receiptDigest = "" ∨
      digestPattern.matchString receiptDigest = true) :
    ({ provision with
      state := state, jobID := jobID, jobFence := fence, receiptDigest := receiptDigest
      failure := failure } : ProvisioningAttempt).bytes ≤ provision.bytes + (256 + growth) := by
  have states := byteLength_quote_provisioningState state
  have failures := byteLength_quote_failure failure
  have failureSlot := slotBytes_optionalText_le "failure_class" (failureText failure)
  have jobs : slotBytes (optionalText "job_id" jobID) ≤ slotBytes (optionalText "job_id" provision.jobID) + 47 := by
    rcases job with rfl | matched
    · omega
    have slot := slotBytes_optionalText_le "job_id" jobID
    have bound := byteLength_quote_job matched
    have label : byteLength "job_id" = 6 := by decide
    omega
  have receipts : slotBytes (optionalText "receipt_digest" receiptDigest) ≤
      slotBytes (optionalText "receipt_digest" provision.receiptDigest) + 91 := by
    rcases receipt with rfl | rfl | matched
    · omega
    · exact zero_le _
    have slot := slotBytes_optionalText_le "receipt_digest" receiptDigest
    have bound := byteLength_quote_digest matched
    have label : byteLength "receipt_digest" = 14 := by decide
    omega
  have label : byteLength "failure_class" = 13 := by decide
  rw [provision_bytes, provision_bytes]
  simp only [provisionSlots, slotsBytes_cons, slotBytes_textSlot, slotsBytes_nil]
  omega

theorem newProvisioningAttempt_bytes {provisionID : String} {plan : ProvisionPlan}
    {provision : ProvisioningAttempt}
    (new : newProvisioningAttempt provisionID sourceDigest plan = .ok provision) :
    provision.bytes ≤ 300 + byteLength (record (planSlots plan)) := by
  simp only [newProvisioningAttempt, ok_iff, bool_iff] at new
  obtain ⟨-, ⟨⟨name, source⟩, -⟩, rfl⟩ := new
  have names := byteLength_quote_identity name
  have sources := byteLength_quote_digest source
  have labels : byteLength "provision_id" = 12 ∧ byteLength "source_digest" = 13 ∧ byteLength "plan" = 4 ∧
      byteLength "state" = 5 ∧ byteLength (quote "planned") = 9 := by
    decide
  have absent : slotBytes (optionalText "job_id" "") = 0 ∧ slotBytes (optionalNat "job_fence" 0) = 0 ∧
      slotBytes (optionalText "receipt_digest" "") = 0 ∧
      slotBytes (optionalText "failure_class" (failureText none)) = 0 := ⟨rfl, rfl, rfl, rfl⟩
  rw [provision_bytes]
  simp only [provisionSlots, slotsBytes_cons, slotBytes_textSlot, slotsBytes_nil, ProvisioningState.text,
    absent, labels, slotBytes_some]
  omega

section

variable {α : Type} {size : α → Nat}

def totalBytes (size : α → Nat) (items : List α) : Nat := (items.map fun item => size item + 1).sum

theorem totalBytes_append (left right : List α) :
    totalBytes size (left ++ right) = totalBytes size left + totalBytes size right := by
  simp [totalBytes]

theorem totalBytes_singleton (item : α) : totalBytes size [item] = size item + 1 := rfl

variable {growth : Nat} {items : List α}

theorem totalBytes_replaceLast {last next : α}
    (latest : items.getLast? = some last) (less : size next ≤ size last + growth) :
    totalBytes size (replaceLast items next) ≤ totalBytes size items + growth := by
  obtain ⟨earlier, rfl⟩ := split_last latest
  rw [replaceLast, dropLast_concat, totalBytes_append, totalBytes_append, totalBytes_singleton,
    totalBytes_singleton]
  omega

theorem totalBytes_set {index : Nat} {old new : α}
    (found : items[index]? = some old) (less : size new ≤ size old + growth) :
    totalBytes size (items.set index new) ≤ totalBytes size items + growth := by
  obtain ⟨left, right, same, -, replaced⟩ := split_at found
  rw [replaced, same]
  simp only [totalBytes, map_append, map_cons, List.sum_append, sum_cons]
  omega

theorem totalBytes_modify {change : α → α}
    (less : ∀ item, size (change item) ≤ size item + growth) (items : List α) (index : Nat) :
    totalBytes size (items.modify index change) ≤ totalBytes size items + growth := by
  cases found : items[index]? with
  | none =>
    rw [modify_eq_self (getElem?_eq_none_iff.mp found)]
    exact le_add_right _ _
  | some item =>
    rw [modify_eq_set_getElem?, found]
    exact totalBytes_set found (less item)

theorem totalBytes_forall₂ {items' : List α}
    (related : Forall₂ (fun old new => size new ≤ size old + growth) items items') :
    totalBytes size items' ≤ totalBytes size items + growth * items.length := by
  induction related with
  | nil => simp [totalBytes]
  | cons less _ ih =>
    simp only [totalBytes, map_cons, sum_cons, length_cons, mul_succ] at ih ⊢
    omega

theorem listBytes_map (encode : α → String) (items : List α) :
    listBytes (items.map encode) = totalBytes (fun item => byteLength (encode item)) items := by
  simp [listBytes, totalBytes, Function.comp_def]

end

def ObjectiveStep.bytes (step : ObjectiveStep) : Nat := byteLength (JsonText.record (stepSlots step.record))

theorem step_bytes (step : ObjectiveStep) : step.bytes = 1 + slotsBytes (stepSlots step.record) :=
  byteLength_record (mem_cons_self ..)

theorem step_bytes_attempts (step : ObjectiveStep) {attempts : List ExecutionAttempt}
    (state : StepState) (less : totalBytes ExecutionAttempt.bytes attempts ≤
      totalBytes ExecutionAttempt.bytes step.attempts + growth) :
    ({ step with attempts := attempts, state := state } : ObjectiveStep).bytes ≤ step.bytes + growth + 11 := by
  have states := byteLength_quote_stepState state
  have items : ∀ attempts : List ExecutionAttempt, listBytes ((attempts.map ExecutionAttempt.record).map
      fun attempt => JsonText.record (attemptSlots attempt)) = totalBytes ExecutionAttempt.bytes attempts := by
    intro attempts
    rw [map_map, listBytes_map]
    rfl
  rw [← items, ← items] at less
  have arrays := byteLength_array_grow less
  rw [step_bytes, step_bytes]
  simp only [stepSlots, ObjectiveStep.record, slotsBytes_cons, slotBytes_textSlot, slotBytes_arraySlot,
    slotsBytes_nil]
  omega

theorem step_bytes_provisioning (step : ObjectiveStep) {provisioning : List ProvisioningAttempt}
    (less : totalBytes ProvisioningAttempt.bytes provisioning ≤
      totalBytes ProvisioningAttempt.bytes step.provisioning + growth) :
    ({ step with provisioning := provisioning } : ObjectiveStep).bytes ≤ step.bytes + growth + 18 := by
  have items : ∀ provisioning : List ProvisioningAttempt, listBytes (provisioning.map
      fun provision => JsonText.record (provisionSlots provision)) =
        totalBytes ProvisioningAttempt.bytes provisioning :=
    fun _ => listBytes_map _ _
  rw [← items, ← items] at less
  have slots := slotBytes_optionalArray_grow "provisioning" less
  have label : byteLength "provisioning" = 12 := by decide
  rw [step_bytes, step_bytes]
  simp only [stepSlots, ObjectiveStep.record, slotsBytes_cons, slotsBytes_nil]
  omega

theorem listBytes_canonical (ids : List String) :
    listBytes (texts (canonical ids)) ≤ listBytes (texts ids) := by
  have sorted : (texts (canonical ids)).Perm (texts ids.dedup) := (perm_insertionSort _ _).map quote
  have fewer : (texts ids.dedup).Sublist (texts ids) := (dedup_sublist ids).map quote
  calc listBytes (texts (canonical ids))
      = listBytes (texts ids.dedup) := (sorted.map _).sum_eq
    _ ≤ listBytes (texts ids) := (fewer.map _).sum_le_sum fun _ _ => zero_le _

theorem step_bytes_requirements (step : ObjectiveStep) {additional normalized : List Requirement}
    (normal : normalizeRequirementList (step.requirements ++ additional) = .ok normalized) :
    ({ step with requirements := normalized } : ObjectiveStep).bytes ≤
      step.bytes + listBytes (texts additional) := by
  obtain ⟨-, rfl⟩ := normalizeRequirementList_eq_ok.mp normal
  have less := listBytes_canonical (step.requirements ++ additional)
  rw [show texts (step.requirements ++ additional) = texts step.requirements ++ texts additional from
    map_append, listBytes_append] at less
  have arrays := byteLength_array_grow less
  rw [step_bytes, step_bytes]
  simp only [stepSlots, ObjectiveStep.record, slotsBytes_cons, slotBytes_arraySlot, slotsBytes_nil]
  omega

theorem step_bytes_receipt (step : ObjectiveStep) (receipt : CommandAcceptanceReceipt) :
    ({ step with acceptanceReceipt := some receipt } : ObjectiveStep).bytes ≤
      step.bytes + (byteLength (record (receiptSlots receipt)) + 22) := by
  have label : byteLength "acceptance_receipt" = 18 := by decide
  rw [step_bytes, step_bytes]
  simp only [stepSlots, ObjectiveStep.record, slotsBytes_cons, slotsBytes_nil, Option.map_some, slotBytes_some]
  omega

/-- A bound on the bytes that an operation can add to the record of an objective. -/
def Operation.writes (o : Objective) : Operation → Nat
  | .refineRequirements _ additional => 64 + listBytes (texts additional)
  | .planAttempt _ _ _ candidates =>
    1024 + (candidates.map fun candidate => byteLength (nat candidate.generation)).sum
  | .acceptWithEvidence receipts =>
    64 + (receipts.map fun receipt => byteLength (record (receiptSlots receipt)) + 22).sum
  | .cancel => 64 + 512 * o.steps.length
  | .planProvisioning _ _ _ plan => 512 + byteLength (record (planSlots plan))
  | .bindProvisionFence _ _ fence => 512 + byteLength (nat fence)
  | _ => 512

theorem continuationEnvironment_mem {previous : ExecutionAttempt}
    (run : Objective.continuationEnvironment policy step previous candidates = .ok environment) :
    environment ∈ candidates := by
  have exact' : ∀ {digest : String}, Objective.exactEnvironmentByDigest candidates digest =
      some environment → environment ∈ candidates := fun found => mem_of_find?_eq_some found
  simp only [Objective.continuationEnvironment, ok_iff] at run
  obtain ⟨action, -, run⟩ := run
  cases action with
  | stopPolicy => cases run
  | reconcile => cases run
  | fixCode =>
    simp only [ok_iff] at run
    obtain ⟨_, found, -, -, -, -, rfl⟩ := run
    exact exact' found
  | retrySameEnvironment =>
    simp only [ok_iff] at run
    obtain ⟨_, found, -, -, -, -, rfl⟩ := run
    exact exact' found
  | provisionOrMigrate =>
    simp only [ok_iff] at run
    obtain ⟨resolution, resolved, rfl⟩ := run
    exact resolve_mem resolved

theorem newExecutionAttempt_generation {stepID : String}
    (new : newExecutionAttempt attemptID stepID sourceDigest environment = .ok attempt) :
    attempt.environmentGeneration = environment.generation := by
  simp only [newExecutionAttempt, ok_iff] at new
  obtain ⟨-, -, rfl⟩ := new
  rfl

theorem nextAttempt_generation
    (resolved : Objective.nextAttempt policy step attemptID sourceDigest candidates =
      .ok (attempt, resolution)) :
    ∃ candidate ∈ candidates, attempt.environmentGeneration = candidate.generation := by
  unfold Objective.nextAttempt at resolved
  split at resolved
  · simp only [ok_iff] at resolved
    obtain ⟨chosen, found, _, new, rfl, -⟩ := resolved
    exact ⟨_, resolve_mem found, newExecutionAttempt_generation new⟩
  simp only [ok_iff, continueExecutionAttempt] at resolved
  obtain ⟨-, -, environment, chosen, _, ⟨-, -, _, -, -, -, -, -, fresh, new, rfl⟩, rfl, -⟩ := resolved
  have same : fresh.environmentGeneration = environment.generation := newExecutionAttempt_generation new
  exact ⟨_, continuationEnvironment_mem chosen, same⟩

theorem nextAttempt_bytes (sound : StepSound o step)
    (resolved : Objective.nextAttempt o.policy step attemptID sourceDigest candidates =
      .ok (attempt, resolution)) :
    attempt.bytes ≤
      900 + (candidates.map fun candidate => byteLength (nat candidate.generation)).sum := by
  have plan := nextAttempt_planned sound resolved
  have parent : attempt.parentAttemptID = "" ∨
      identityPattern.matchString attempt.parentAttemptID = true := by
    cases latest : step.attempts.getLast? with
    | none =>
      have first := plan.follows
      rw [latest] at first
      left
      simpa [follows] using first
    | some previous =>
      right
      rw [(plan.parent previous latest).2]
      have valid := (sound.attempts previous (mem_of_getLast? latest)).identity
      simp only [ExecutionAttempt.validIdentity, bool_iff] at valid
      exact valid.1.1.1.1.1.1
  have bound := attempt_bytes_le plan.identity parent
  obtain ⟨candidate, member, same⟩ := nextAttempt_generation resolved
  have part := le_sum_of_mem
    (mem_map_of_mem (f := fun candidate : EnvironmentAttestation =>
      byteLength (nat candidate.generation)) member)
  rw [same] at bound
  omega

theorem transition_bytes {next : ExecutionAttempt} {state : AttemptState}
    (moved : attempt.transition state = .ok next) : next.bytes ≤ attempt.bytes + 64 := by
  simp only [ExecutionAttempt.transition, ok_iff] at moved
  obtain ⟨-, -, moved⟩ := moved
  split at moved
  · rw [← pure_eq_ok.mp moved]
    omega
  · simp only [ok_iff] at moved
    obtain ⟨-, -, rfl⟩ := moved
    exact attempt_bytes_change attempt state _

theorem provisionChange_bytes
    {change : ProvisioningAttempt → Except String ProvisioningAttempt} {last next : ProvisioningAttempt}
    (changes : op.provisionChange = some change) (changed : change last = .ok next) :
    ∃ growth, next.bytes ≤ last.bytes + growth ∧ growth + 82 ≤ op.writes o := by
  have same := le_add_right (slotBytes (optionalNat "job_fence" last.jobFence)) 0
  cases op with
  | bindProvisionJob stepID provisionID jobID =>
    cases changes
    simp only [ProvisioningAttempt.bindJob, ok_iff, bool_iff] at changed
    obtain ⟨-, ⟨-, matched⟩, rfl⟩ := changed
    have bytes := provision_bytes_change last .queued last.failure same (.inr matched) (.inl rfl)
    exact ⟨_, bytes, by simp only [Operation.writes]; omega⟩
  | bindProvisionFence stepID provisionID fence =>
    cases changes
    simp only [ProvisioningAttempt.bindFence, ok_iff] at changed
    obtain ⟨-, -, rfl⟩ := changed
    have label : byteLength "job_fence" = 9 := by decide
    have slot := slotBytes_optionalNat_le "job_fence" fence
    have fences : slotBytes (optionalNat "job_fence" fence) ≤
        slotBytes (optionalNat "job_fence" last.jobFence) + (13 + byteLength (nat fence)) := by
      omega
    have bytes := provision_bytes_change last last.state last.failure fences (.inl rfl) (.inl rfl)
    exact ⟨_, bytes, by simp only [Operation.writes]; omega⟩
  | completeProvision stepID provisionID receiptDigest =>
    cases changes
    simp only [ProvisioningAttempt.succeed, ok_iff, bool_iff] at changed
    obtain ⟨-, ⟨-, matched⟩, rfl⟩ := changed
    have bytes := provision_bytes_change last .succeeded last.failure same (.inl rfl) (.inr (.inr matched))
    exact ⟨_, bytes, by simp only [Operation.writes]; omega⟩
  | failProvision stepID provisionID failure =>
    cases changes
    simp only [ProvisioningAttempt.fail, ok_iff] at changed
    obtain ⟨-, -, rfl⟩ := changed
    have bytes := provision_bytes_change last .failed (some failure) same (.inl rfl) (.inl rfl)
    exact ⟨_, bytes, by simp only [Operation.writes]; omega⟩
  | _ => cases changes

theorem stepMove_bytes {index : Nat}
    {state : ObjectiveState} (sound : StepSound o step) (move : StepMove o index step op step' state) :
    step'.bytes + 64 ≤ step.bytes + op.writes o := by
  cases move with
  | refined idle unfinished inactive free normal =>
    have bytes := step_bytes_requirements step normal
    simp only [Operation.writes]
    omega
  | planned contracted inactive unfinished room resolved =>
    rename_i stepID attemptID sourceDigest candidates attempt resolution
    have less : totalBytes ExecutionAttempt.bytes (step.attempts ++ [attempt]) ≤
        totalBytes ExecutionAttempt.bytes step.attempts + (attempt.bytes + 1) := by
      rw [totalBytes_append, totalBytes_singleton]
    have bytes := step_bytes_attempts step .planned less
    have added := nextAttempt_bytes sound resolved
    simp only [Operation.writes]
    omega
  | started latest moved =>
    have bytes := step_bytes_attempts step .running
      (totalBytes_replaceLast latest (transition_bytes moved))
    simp only [Operation.writes]
    omega
  | rejected latest before allowed =>
    rename_i stepID failure last
    have bytes := step_bytes_attempts step .failed
      (totalBytes_replaceLast latest (attempt_bytes_change last .failed (some failure)))
    simp only [Operation.writes]
    omega
  | failed latest before =>
    rename_i stepID failure last
    have bytes := step_bytes_attempts step .failed
      (totalBytes_replaceLast latest (attempt_bytes_change last .failed (some failure)))
    simp only [Operation.writes]
    omega
  | completed latest moved =>
    have bytes := step_bytes_attempts step .succeeded
      (totalBytes_replaceLast latest (transition_bytes moved))
    simp only [Operation.writes]
    omega
  | provisioned authorized new valid =>
    rename_i stepID provisionID sourceDigest plan provision
    have less : totalBytes ProvisioningAttempt.bytes (step.provisioning ++ [provision]) ≤
        totalBytes ProvisioningAttempt.bytes step.provisioning + (provision.bytes + 1) := by
      rw [totalBytes_append, totalBytes_singleton]
    have bytes := step_bytes_provisioning step less
    have added := newProvisioningAttempt_bytes new
    simp only [Operation.writes]
    omega
  | advanced latest changes changed revision different valid =>
    obtain ⟨growth, less, room⟩ := provisionChange_bytes (o := o) changes changed
    have bytes := step_bytes_provisioning step (totalBytes_replaceLast latest less)
    omega

theorem cancelProvisioning_bytes
    (run : Objective.cancelProvisioning step = .ok step') : step'.bytes ≤ step.bytes + 274 := by
  unfold Objective.cancelProvisioning at run
  split at run
  · cases run
    omega
  rename_i last latest
  split at run
  · simp only [ok_iff, ProvisioningAttempt.cancel] at run
    obtain ⟨_, ⟨-, -, rfl⟩, rfl⟩ := run
    have same := le_add_right (slotBytes (optionalNat "job_fence" last.jobFence)) 0
    exact step_bytes_provisioning step (totalBytes_replaceLast latest
      (provision_bytes_change last .cancelled none same (.inl rfl) (.inr (.inl rfl))))
  · cases run
    omega

theorem cancelStep_bytes (run : Objective.cancelStep step = .ok step') : step'.bytes ≤ step.bytes + 512 := by
  simp only [Objective.cancelStep, ok_iff] at run
  obtain ⟨middle, released, run⟩ := run
  have bytes := cancelProvisioning_bytes released
  split at run
  · rw [← pure_eq_ok.mp run]
    omega
  split at run
  · have grown := step_bytes_attempts middle .cancelled (le_add_right _ 0)
    rw [← pure_eq_ok.mp run]
    omega
  rename_i last latest
  simp only [ok_iff] at run
  obtain ⟨-, -, cancelled, moved, rfl⟩ := run
  have grown := step_bytes_attempts middle .cancelled
    (totalBytes_replaceLast latest (transition_bytes moved))
  omega

theorem attachReceipt_bytes {receipts : List CommandAcceptanceReceipt}
    {scan scan' : List String × List ObjectiveStep}
    (attached : receipts.foldlM o.attachReceipt scan = .ok scan') :
    totalBytes ObjectiveStep.bytes scan'.2 ≤ totalBytes ObjectiveStep.bytes scan.2 +
      (receipts.map fun receipt => byteLength (record (receiptSlots receipt)) + 22).sum := by
  induction receipts generalizing scan with
  | nil =>
    rw [foldlM_nil, pure_eq_ok] at attached
    rw [attached]
    simp
  | cons receipt receipts ih =>
    rw [foldlM_cons, bind_eq_ok] at attached
    obtain ⟨middle, first, rest⟩ := attached
    have later := ih rest
    simp only [Objective.attachReceipt, ok_iff] at first
    obtain ⟨index, -, -, -, -, -, rfl⟩ := first
    have here := totalBytes_modify (fun step => step_bytes_receipt step receipt) scan.2 index
    dsimp only at later
    rw [map_cons, sum_cons]
    omega

def Objective.bytes (o : Objective) : Nat := byteLength (encodeRecord o.record)

theorem objective_bytes (o : Objective) : o.bytes = 1 + slotsBytes (objectiveSlots o.record) :=
  byteLength_record (mem_cons_self ..)

theorem settle_bytes {steps : List ObjectiveStep} (state : ObjectiveState)
    (below : o.revision < 2 ^ 64 - 1) (less : totalBytes ObjectiveStep.bytes steps ≤
      totalBytes ObjectiveStep.bytes o.steps + growth) :
    (o.settle steps state).bytes ≤ o.bytes + growth + 26 := by
  have states := byteLength_quote_objectiveState state
  have numbers := byteLength_nat_succ_le o.revision
  have items : ∀ steps : List ObjectiveStep, listBytes ((steps.map ObjectiveStep.record).map
      fun step => JsonText.record (stepSlots step)) = totalBytes ObjectiveStep.bytes steps := by
    intro steps
    rw [map_map, listBytes_map]
    rfl
  rw [← items, ← items] at less
  have arrays := byteLength_array_grow less
  rw [objective_bytes, objective_bytes]
  simp only [objectiveSlots, Objective.record, Objective.settle, slotsBytes_cons, slotBytes_textSlot,
    slotBytes_natSlot, slotBytes_arraySlot, slotsBytes_nil, next_revision below]
  omega

theorem settlement_bytes (below : o.revision < 2 ^ 64 - 1)
    (settled : Settlement o op o') : o'.bytes ≤ o.bytes + op.writes o := by
  cases settled with
  | accepted pending free =>
    have bytes := settle_bytes .accepted below (le_add_right (totalBytes _ o.steps) 0)
    simp only [Operation.writes]
    omega
  | evidenced pending attached valid =>
    have bytes := settle_bytes .accepted below (attachReceipt_bytes attached)
    simp only [Operation.writes]
    omega
  | cancelled live each =>
    rename_i steps
    have related : Forall₂ (fun step step' => ObjectiveStep.bytes step' ≤ step.bytes + 512)
        o.steps steps :=
      mapM_forall₂ (fun _ _ _ run => cancelStep_bytes run) each
    have bytes := settle_bytes .cancelled below (totalBytes_forall₂ related)
    simp only [Operation.writes]
    omega

theorem apply_bytes (sound : SnapshotSound o)
    (below : o.revision < 2 ^ 64 - 1) (run : o.apply op = .ok o') : o'.bytes ≤ o.bytes + op.writes o := by
  rcases apply_move run with same | moved
  · rw [same]
    exact le_add_right _ _
  cases moved with
  | step live located found move =>
    rename_i index step step' state
    have held := sound.steps step (mem_of_getElem? found)
    have stepBytes := stepMove_bytes held move
    have less : step'.bytes ≤ step.bytes + (op.writes o - 64) := by omega
    have bytes := settle_bytes state below (totalBytes_set found less)
    change (o.settle (o.steps.set index step') state).bytes ≤ _
    have room : 64 ≤ op.writes o := by
      cases op <;> simp only [Operation.writes] <;> omega
    omega
  | settle settled => exact settlement_bytes below settled

/-- Reached by operations each of whose results the store accepted, with other calls in between. -/
inductive Saved [RecordDecoder] : Store → Objective → Prop
  | created {s : Store} {objectiveID policy specs o now result}
      (new : newObjective objectiveID policy specs = .ok o)
      (accepted : (s.saveDevelopmentObjective o now).1 = .ok result) :
      Saved (s.saveDevelopmentObjective o now).2 o
  | within {s : Store} {objectiveID scope policy specs o now result}
      (new : newScopedObjective objectiveID scope policy specs = .ok o)
      (accepted : (s.saveDevelopmentObjective o now).1 = .ok result) :
      Saved (s.saveDevelopmentObjective o now).2 o
  | operated {s o op o' now result} (saved : Saved s o) (calls : List (Call Objective))
      (run : o.apply op = .ok o')
      (accepted : ((s.run calls).saveDevelopmentObjective o' now).1 = .ok result) :
      Saved ((s.run calls).saveDevelopmentObjective o' now).2 o'

/-- It suits the step it names, there is another revision, and the record has room for what it writes. -/
def Operation.fits (o : Objective) (op : Operation) : Bool :=
  op.suits o && o.revision < 2 ^ 64 - 1 && o.bytes + op.writes o ≤ maxObjectiveRecordBytes

section

variable [RecordDecoder] {s : Store} {o : Objective}

theorem saveDevelopmentObjective_marshals {now : UnixNano} {result : Objective × Bool}
    (accepted : (s.saveDevelopmentObjective o now).1 = .ok result) :
    ∃ record, o.marshalRecord = .ok record := by
  simp only [Store.saveDevelopmentObjective, Store.transact] at accepted
  split at accepted
  · cases accepted
  rename_i reply db run
  simp only [saveDevelopmentObjectiveTx, ok_iff] at run
  obtain ⟨-, -, record, marshalled, -⟩ := run
  exact ⟨record, toOption_eq_some.mp marshalled⟩

theorem Saved.sound (saved : Saved s o) : SnapshotSound o := by
  have marshals : ∃ record, o.marshalRecord = .ok record := by
    cases saved with
    | created _ accepted => exact saveDevelopmentObjective_marshals accepted
    | within _ accepted => exact saveDevelopmentObjective_marshals accepted
    | operated _ _ _ accepted => exact saveDevelopmentObjective_marshals accepted
  obtain ⟨record, marshalled⟩ := marshals
  exact (marshalRecord_eq_ok.mp marshalled).1

end

theorem step_bytes_le (member : step ∈ o.steps) : step.bytes ≤ o.bytes := by
  have inside : JsonText.record (stepSlots step.record) ∈
      (o.steps.map ObjectiveStep.record).map fun step => JsonText.record (stepSlots step) :=
    mem_map_of_mem (mem_map_of_mem member)
  have array := byteLength_le_array inside
  rw [ObjectiveStep.bytes, objective_bytes]
  simp only [objectiveSlots, Objective.record, slotsBytes_cons, slotBytes_arraySlot]
  omega

theorem requirement_bytes_le (member : id ∈ step.requirements) : byteLength (quote id) ≤ step.bytes := by
  have array := byteLength_le_array (mem_map_of_mem (f := quote) member)
  rw [step_bytes]
  simp only [stepSlots, ObjectiveStep.record, slotsBytes_cons, slotBytes_arraySlot, texts]
  omega

def longCapability (length : Nat) : CapabilityID := String.ofList ('a' :: replicate length 'a')

theorem longCapability_valid (length : Nat) : validCapabilityID (longCapability length) = true := by
  have tail : capabilityTail false (replicate length 'a') = true := by
    induction length with
    | zero => rfl
    | succ length ih => exact ih
  rw [validCapabilityID, longCapability, chars_eq_toList, String.toList_ofList]
  simpa using tail

theorem longCapability_bytes (length : Nat) : length < byteLength (quote (longCapability length)) := by
  rw [byteLength_quote]
  · simp [longCapability]
    omega
  intro c member
  simp only [longCapability, String.toList_ofList, mem_cons, mem_replicate] at member
  have letter : c = 'a' := by
    rcases member with first | ⟨-, later⟩
    · exact first
    · exact later
  rw [letter]
  decide

theorem sample_refined (valid : validCapabilityID id = true) :
    (sampleObjective 1 .planned [sampleStep "a" [] .planned]).apply (.refineRequirements "a" [id]) =
      .ok (sampleObjective 2 .planned [{ sampleStep "a" [] .planned with requirements := [id] }]) := by
  have normal : normalizeRequirementList [id] = .ok [id] :=
    normalizeRequirementList_eq_ok.mpr
      ⟨by simpa using valid, (canonical_of_pairwise (pairwise_singleton _ _)).symm⟩
  have opened : (sampleObjective 1 .planned [sampleStep "a" [] .planned]).openStep "a"
      "development objective cannot refine requirements" = .ok (0, sampleStep "a" [] .planned) := by
    decide
  simp only [Objective.apply, Objective.refineRequirements, opened, bind, Except.bind]
  simp [sampleStep, activeProvisioning, normal, reject, Objective.revise, sampleObjective, pure, Except.pure]

theorem sample_refined_bytes (id : Requirement) : byteLength (quote id) ≤
    (sampleObjective 2 .planned [{ sampleStep "a" [] .planned with requirements := [id] }]).bytes := by
  have inside : byteLength (quote id) ≤
      ({ sampleStep "a" [] .planned with requirements := [id] } : ObjectiveStep).bytes :=
    requirement_bytes_le (mem_singleton.mpr rfl)
  exact inside.trans (step_bytes_le (mem_singleton.mpr rfl))

theorem accepts_first [RecordDecoder] {body digest : String} (now : UnixNano)
    (marshalled : o.marshalRecord = .ok (body, digest)) (first : o.revision = 1) (state : o.state = .planned) :
    ∃ s : Store, (s.saveDevelopmentObjective o now).1 = .ok (o, true) := by
  refine ⟨⟨smallConfig, smallConfig_valid, DB.empty, initialFair⟩, ?_⟩
  have valid : ObjectiveRecords.valid o = true := valid_iff.mpr (marshalRecord_eq_ok.mp marshalled).1
  have record : ObjectiveRecords.marshalRecord o = some (body, digest) := toOption_eq_some.mpr marshalled
  have revision : ObjectiveRecords.revision o = 1 := first
  have planned : ObjectiveRecords.state o = .planned := state
  have absent : DB.empty.developmentObjectiveByID Objective (ObjectiveRecords.objectiveID o) = .ok none := rfl
  have pruned : pruneExpiredDevelopmentObjectives Objective DB.empty now = .ok DB.empty := rfl
  simp only [Store.saveDevelopmentObjective, Store.transact, saveDevelopmentObjectiveTx, valid, record,
    revision, planned, absent, pruned, required, bind, Except.bind, pure, Except.pure]
  rfl

theorem sample_new : newObjective "objective" ⟨1, [.l3Sandbox]⟩ [⟨"a", [], none⟩] =
    .ok (sampleObjective 1 .planned [sampleStep "a" [] .planned]) := by
  decide

/-- An operation that fits a saved objective returns one that can be encoded. -/
theorem apply_encodable [RecordDecoder] {s : Store} {o o' : Objective} {op : Operation}
    (saved : Saved s o) (run : o.apply op = .ok o') (fits : op.fits o = true) :
    ∃ record, o'.marshalRecord = .ok record := by
  simp only [Operation.fits, bool_iff] at fits
  obtain ⟨⟨suits, below⟩, room⟩ := fits
  have sound := saved.sound
  have bytes := apply_bytes sound below run
  have nonempty : byteLength (encodeRecord o'.record) ≠ 0 := by
    have whole := objective_bytes o'
    rw [Objective.bytes] at whole
    omega
  have sound' : SnapshotSound o' := by
    rcases apply_move run with same | moved
    · rw [same]
      exact sound
    cases moved with
    | step live located found move =>
      exact valid_iff.mp ((step_extends sound live below located found move).mpr suits).valid'
    | settle settled => exact valid_iff.mp (settlement_extends sound below settled).valid'
  exact ⟨_, marshalRecord_eq_ok.mpr ⟨sound', nonempty, bytes.trans room, rfl⟩⟩

/-- The sample with one short requirement more. -/
theorem apply_encodable_sample : ∃ (_ : RecordDecoder) (s : Store) (o o' : Objective) (op : Operation),
    Saved s o ∧ o.apply op = .ok o' ∧ op.fits o = true ∧ ∃ record, o'.marshalRecord = .ok record := by
  obtain ⟨decoder⟩ : Nonempty RecordDecoder := ⟨inverseDecoder⟩
  obtain ⟨body, digest, marshalled⟩ := sample_marshals
  obtain ⟨s, accepted⟩ := accepts_first (.ofTime 0) marshalled rfl rfl
  have valid : validCapabilityID "go" = true := by decide
  have fits : Operation.fits (sampleObjective 1 .planned [sampleStep "a" [] .planned])
      (.refineRequirements "a" ["go"]) = true := by
    decide +kernel
  have saved := Saved.created sample_new accepted
  exact ⟨decoder, _, _, _, _, saved, sample_refined valid, fits,
    apply_encodable saved (sample_refined valid) fits⟩

/-- A requirement may be so long that no record holds it. -/
theorem long_requirement_unsavable : ¬ ∀ (_ : RecordDecoder) (s : Store) (o o' : Objective)
    (op : Operation), Saved s o → o.apply op = .ok o' → o'.steps.length ≤ maxObjectiveSteps →
    (∀ step ∈ o'.steps, step.attempts.length ≤ maxAttemptsPerStep ∧
      step.provisioning.length ≤ maxProvisioningAttemptsPerStep) →
    ∃ record, o'.marshalRecord = .ok record := by
  intro always
  obtain ⟨decoder⟩ : Nonempty RecordDecoder := ⟨inverseDecoder⟩
  obtain ⟨body, digest, marshalled⟩ := sample_marshals
  obtain ⟨s, accepted⟩ := accepts_first (.ofTime 0) marshalled rfl rfl
  have room : ∀ step ∈ [{ sampleStep "a" [] .planned with
      requirements := [longCapability maxObjectiveRecordBytes] }],
      step.attempts.length ≤ maxAttemptsPerStep ∧
        step.provisioning.length ≤ maxProvisioningAttemptsPerStep := by
    simp [sampleStep]
  obtain ⟨record, marshalled'⟩ := always decoder _ _ _ _ (.created sample_new accepted)
    (sample_refined (longCapability_valid maxObjectiveRecordBytes)) (by decide) room
  obtain ⟨-, -, bound, -⟩ := marshalRecord_eq_ok.mp marshalled'
  have quoted := longCapability_bytes maxObjectiveRecordBytes
  exact absurd bound (not_le.mpr (quoted.trans_le (sample_refined_bytes _)))

end Aeontra.Development
