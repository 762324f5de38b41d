import Aeontra.Development.Moves
import Aeontra.Library.Update

/-!
What a valid snapshot is: the checks of the scan, collected for each step and for the
objective as a whole.
-/

namespace Aeontra.Development

open Library Workqueue List

def ExecutionAttempt.failureFits (attempt : ExecutionAttempt) : Bool :=
  if attempt.state = .failed then attempt.failure.isSome else attempt.failure.isNone

/-- What the first attempt of a step, or the one after `previous`, must look like. -/
def follows (previous : Option ExecutionAttempt) (attempt : ExecutionAttempt) : Bool :=
  match previous with
  | none => attempt.parentAttemptID = ""
  | some previous => validAttemptContinuation previous attempt

def chained : Option ExecutionAttempt → List ExecutionAttempt → Bool
  | _, [] => true
  | previous, attempt :: attempts => follows previous attempt && chained (some attempt) attempts

structure AttemptSound (stepID : String) (attempt : ExecutionAttempt) : Prop where
  identity : attempt.validIdentity = true
  owner : attempt.stepID = stepID
  failure : attempt.failureFits = true

theorem checkAttempt_eq_ok {stepID : String} {scan scan' : Option ExecutionAttempt × List String}
    {attempt : ExecutionAttempt} :
    checkAttempt stepID scan attempt = .ok scan' ↔
      AttemptSound stepID attempt ∧ attempt.attemptID ∉ scan.2 ∧ follows scan.1 attempt = true ∧
        scan' = (some attempt, attempt.attemptID :: scan.2) := by
  obtain ⟨previous, used⟩ := scan
  have link : (match previous with
      | none => decide (attempt.parentAttemptID ≠ "")
      | some previous => !validAttemptContinuation previous attempt) = false ↔
      follows previous attempt = true := by
    cases previous <;> simp [follows]
  have fits : (if attempt.state = .failed then (continuationForFailure attempt.failure).isNone
      else decide (attempt.failure ≠ none)) = false ↔ attempt.failureFits = true := by
    unfold ExecutionAttempt.failureFits continuationForFailure
    split <;> cases attempt.failure <;> simp
  simp only [checkAttempt, ok_iff, bool_iff, not_not, fits, contains_eq_mem]
  constructor
  · rintro ⟨-, ⟨identity, owner⟩, -, unused, -, linked, -, failure, rfl⟩
    exact ⟨⟨identity, owner, failure⟩, unused, link.mp linked, rfl⟩
  · rintro ⟨⟨identity, owner, failure⟩, unused, linked, rfl⟩
    exact ⟨(), ⟨identity, owner⟩, (), unused, (), link.mpr linked, (), failure, rfl⟩

variable {used used' : List String} {policy : ResolutionPolicy} {index : Nat} {o : Objective}
  {step : ObjectiveStep} {scan scan' : SnapshotScan} {steps : List ObjectiveStep}

theorem distinct_cons {name : α → String} {a : α} {rest : List α} :
    (name a ∉ used ∧ (rest.map name).Nodup ∧ ∀ b ∈ rest, name b ∉ name a :: used) ↔
      ((a :: rest).map name).Nodup ∧ ∀ b ∈ a :: rest, name b ∉ used := by
  simp only [map_cons, nodup_cons, mem_map]
  grind

theorem foldlM_checkAttempt {stepID : String} {attempts : List ExecutionAttempt}
    {previous : Option ExecutionAttempt} {scan : Option ExecutionAttempt × List String} :
    attempts.foldlM (checkAttempt stepID) (previous, used) = .ok scan ↔
      (∀ attempt ∈ attempts, AttemptSound stepID attempt) ∧ chained previous attempts = true ∧
        (attempts.map ExecutionAttempt.attemptID).Nodup ∧
        (∀ attempt ∈ attempts, attempt.attemptID ∉ used) ∧
        scan = (attempts.foldl (fun _ attempt => some attempt) previous,
          (attempts.map ExecutionAttempt.attemptID).reverse ++ used) := by
  induction attempts generalizing previous used with
  | nil =>
    rw [foldlM_nil, pure_eq_ok]
    simp [chained, eq_comm]
  | cons attempt attempts ih =>
    rw [foldlM_cons, bind_eq_ok]
    simp only [checkAttempt_eq_ok]
    constructor
    · rintro ⟨middle, ⟨sound, unused, linked, rfl⟩, rest⟩
      obtain ⟨sounds, links, distinct, others, rfl⟩ := ih.mp rest
      obtain ⟨distinct, others⟩ := distinct_cons.mp ⟨unused, distinct, others⟩
      refine ⟨?_, ?_, distinct, others, ?_⟩
      · simpa using ⟨sound, sounds⟩
      · simp [chained, linked, links]
      · simp
    · rintro ⟨sounds, links, distinct, others, rfl⟩
      simp only [chained, bool_iff] at links
      obtain ⟨unused, distinct, others⟩ := distinct_cons.mpr ⟨distinct, others⟩
      exact ⟨_, ⟨sounds attempt mem_cons_self, unused, links.1, rfl⟩,
        ih.mpr ⟨fun a member => sounds a (mem_cons_of_mem _ member), links.2, distinct, others, by simp⟩⟩

structure ProvisionSound (policy : ResolutionPolicy) (provision : ProvisioningAttempt) : Prop where
  valid : provision.valid = true
  allowed : policy.allowsClass provision.plan.outputClass = true

theorem checkProvision_eq_ok {count : Nat} {entry : ProvisioningAttempt × Nat} :
    checkProvision policy count used entry = .ok used' ↔
      ProvisionSound policy entry.1 ∧ entry.1.provisionID ∉ used ∧
        (entry.2 + 1 < count → entry.1.state.active = false) ∧
        used' = entry.1.provisionID :: used := by
  simp only [checkProvision, ok_iff, bool_iff, contains_eq_mem, Bool.and_eq_false_imp]
  constructor
  · rintro ⟨-, ⟨valid, allowed⟩, -, unused, -, settled, rfl⟩
    exact ⟨⟨valid, allowed⟩, unused, settled, rfl⟩
  · rintro ⟨⟨valid, allowed⟩, unused, settled, rfl⟩
    exact ⟨(), ⟨valid, allowed⟩, (), unused, (), settled, rfl⟩

theorem foldlM_checkProvision {provisions : List ProvisioningAttempt} {start : Nat} :
    (provisions.zipIdx start).foldlM (checkProvision policy (start + provisions.length)) used = .ok used' ↔
      (∀ provision ∈ provisions, ProvisionSound policy provision) ∧
        (provisions.map ProvisioningAttempt.provisionID).Nodup ∧
        (∀ provision ∈ provisions, provision.provisionID ∉ used) ∧
        (∀ provision ∈ provisions.dropLast, provision.state.active = false) ∧
        used' = (provisions.map ProvisioningAttempt.provisionID).reverse ++ used := by
  induction provisions generalizing start used with
  | nil =>
    rw [zipIdx_nil, foldlM_nil, pure_eq_ok]
    constructor
    · rintro rfl
      simp
    · rintro ⟨-, -, -, -, same⟩
      simpa using same.symm
  | cons provision provisions ih =>
    have shift : start + (provision :: provisions).length = start + 1 + provisions.length := by
      rw [length_cons]
      omega
    rw [zipIdx_cons, foldlM_cons, bind_eq_ok, shift]
    simp only [checkProvision_eq_ok, ih]
    have last : (start + 1 < start + 1 + provisions.length → provision.state.active = false) ∧
        (∀ p ∈ provisions.dropLast, p.state.active = false) ↔
        ∀ p ∈ (provision :: provisions).dropLast, p.state.active = false := by
      cases provisions with
      | nil => simp
      | cons next rest => simp
    constructor
    · rintro ⟨_, ⟨sound, unused, settled, rfl⟩, sounds, distinct, others, earlier, rfl⟩
      obtain ⟨distinct, others⟩ := distinct_cons.mp ⟨unused, distinct, others⟩
      exact ⟨by simpa using ⟨sound, sounds⟩, distinct, others, last.mp ⟨settled, earlier⟩, by simp⟩
    · rintro ⟨sounds, distinct, others, earlier, rfl⟩
      obtain ⟨settled, earlier⟩ := last.mpr earlier
      obtain ⟨unused, distinct, others⟩ := distinct_cons.mpr ⟨distinct, others⟩
      exact ⟨_, ⟨sounds provision mem_cons_self, unused, settled, rfl⟩,
        fun p member => sounds p (mem_cons_of_mem _ member), distinct, others, earlier, by simp⟩

def ObjectiveStep.identities (step : ObjectiveStep) : List String :=
  step.attempts.map ExecutionAttempt.attemptID ++ step.provisioning.map ProvisioningAttempt.provisionID

def CommandAcceptanceReceipt.settles (receipt : CommandAcceptanceReceipt) (o : Objective)
    (step : ObjectiveStep) : Bool :=
  receipt.validFor { o with steps := [step] } 0

theorem validFor_eq_settles {receipt : CommandAcceptanceReceipt} (found : o.steps[index]? = some step) :
    receipt.validFor o index = receipt.settles o step := by
  unfold CommandAcceptanceReceipt.settles CommandAcceptanceReceipt.validFor
  rw [found]
  rfl

structure StepSound (o : Objective) (step : ObjectiveStep) : Prop where
  named : identityPattern.matchString step.stepID = true
  few : step.attempts.length ≤ maxAttemptsPerStep
  normal : normalizeRequirementList step.requirements = .ok step.requirements
  attempts : ∀ attempt ∈ step.attempts, AttemptSound step.stepID attempt
  chain : chained none step.attempts = true
  contract : ∀ contract, step.acceptanceContract = some contract →
    contract.validFor o.policy step.requirements = true ∧
      ∀ attempt ∈ step.attempts, attempt.sourceDigest = contract.sourceDigest
  receipt : ∀ receipt, step.acceptanceReceipt = some receipt →
    step.acceptanceContract.isSome = true ∧ o.state = .accepted ∧ receipt.settles o step = true
  classes : ∀ attempt ∈ step.attempts, o.policy.allowsClass attempt.executionClass = true
  fewProvisions : step.provisioning.length ≤ maxProvisioningAttemptsPerStep
  provisions : ∀ provision ∈ step.provisioning, ProvisionSound o.policy provision
  settled : ∀ provision ∈ step.provisioning.dropLast, provision.state.active = false
  exclusive : activeProvisioning step = true →
    step.state ≠ .running ∧ step.state ≠ .succeeded ∧ step.state ≠ .cancelled
  covered : activeProvisioning step = true → ∀ last, step.provisioning.getLast? = some last →
    last.plan.covers step.requirements = true
  fits : stepStateMatchesAttempts step = true

def SnapshotScan.extend (scan : SnapshotScan) (step : ObjectiveStep) : SnapshotScan :=
  ⟨step.stepID :: scan.stepIDs, step.identities.reverse ++ scan.identities,
    (step.acceptanceReceipt.map CommandAcceptanceReceipt.operationID).toList ++ scan.operationIDs,
    scan.receipts + if step.acceptanceReceipt.isSome then 1 else 0⟩

structure SnapshotScan.Admits (scan : SnapshotScan) (step : ObjectiveStep) : Prop where
  name : step.stepID ∉ scan.stepIDs
  distinct : step.identities.Nodup
  identities : ∀ id ∈ step.identities, id ∉ scan.identities
  operation : ∀ receipt, step.acceptanceReceipt = some receipt → receipt.operationID ∉ scan.operationIDs

theorem checkReceipt_eq_ok (found : o.steps[index]? = some step) :
    checkReceipt o scan step index = .ok scan' ↔
      (∀ receipt, step.acceptanceReceipt = some receipt →
        (step.acceptanceContract.isSome = true ∧ o.state = .accepted ∧ receipt.settles o step = true) ∧
          receipt.operationID ∉ scan.operationIDs) ∧
      scan' = { scan with
        operationIDs := (step.acceptanceReceipt.map CommandAcceptanceReceipt.operationID).toList ++
          scan.operationIDs
        receipts := scan.receipts + if step.acceptanceReceipt.isSome then 1 else 0 } := by
  unfold checkReceipt
  cases held : step.acceptanceReceipt with
  | none =>
    simp only [Except.ok.injEq]
    constructor
    · rintro rfl
      simp
    · rintro ⟨-, rfl⟩
      rfl
  | some receipt =>
    simp only [ok_iff, bool_iff, not_not, contains_eq_mem, validFor_eq_settles found,
      Option.isNone_eq_false_iff, Option.isSome_some, Option.map_some, Option.toList_some, singleton_append,
      if_true]
    constructor
    · rintro ⟨-, ⟨⟨contracted, state⟩, settles⟩, -, unused, rfl⟩
      refine ⟨?_, rfl⟩
      rintro _ ⟨⟩
      exact ⟨⟨contracted, state, settles⟩, unused⟩
    · rintro ⟨each, rfl⟩
      obtain ⟨⟨contracted, state, settles⟩, unused⟩ := each receipt rfl
      exact ⟨(), ⟨⟨contracted, state⟩, settles⟩, (), unused, rfl⟩

theorem validateObjectiveAttempts_eq_ok :
    validateObjectiveAttempts step used = .ok used' ↔
      (∀ attempt ∈ step.attempts, AttemptSound step.stepID attempt) ∧ chained none step.attempts = true ∧
        (step.attempts.map ExecutionAttempt.attemptID).Nodup ∧
        (∀ attempt ∈ step.attempts, attempt.attemptID ∉ used) ∧
        used' = (step.attempts.map ExecutionAttempt.attemptID).reverse ++ used := by
  simp only [validateObjectiveAttempts, ok_iff, foldlM_checkAttempt]
  constructor
  · rintro ⟨_, ⟨sounds, chain, distinct, unused, rfl⟩, rfl⟩
    exact ⟨sounds, chain, distinct, unused, rfl⟩
  · rintro ⟨sounds, chain, distinct, unused, rfl⟩
    exact ⟨_, ⟨sounds, chain, distinct, unused, rfl⟩, rfl⟩

theorem validateObjectiveProvisioning_eq_ok :
    validateObjectiveProvisioning step policy used = .ok used' ↔
      step.provisioning.length ≤ maxProvisioningAttemptsPerStep ∧
        (∀ provision ∈ step.provisioning, ProvisionSound policy provision) ∧
        (step.provisioning.map ProvisioningAttempt.provisionID).Nodup ∧
        (∀ provision ∈ step.provisioning, provision.provisionID ∉ used) ∧
        (∀ provision ∈ step.provisioning.dropLast, provision.state.active = false) ∧
        (activeProvisioning step = true →
          step.state ≠ .running ∧ step.state ≠ .succeeded ∧ step.state ≠ .cancelled) ∧
        (activeProvisioning step = true → ∀ last, step.provisioning.getLast? = some last →
          last.plan.covers step.requirements = true) ∧
        used' = (step.provisioning.map ProvisioningAttempt.provisionID).reverse ++ used := by
  have scan : ∀ result, (step.provisioning.zipIdx 0).foldlM
      (checkProvision policy (0 + step.provisioning.length)) used = .ok result ↔ _ :=
    fun result => foldlM_checkProvision
  simp only [Nat.zero_add] at scan
  have covers : (activeProvisioning step &&
      !step.provisioning.getLast?.any fun last => last.plan.covers step.requirements) = false ↔
      (activeProvisioning step = true → ∀ last, step.provisioning.getLast? = some last →
        last.plan.covers step.requirements = true) := by
    unfold activeProvisioning
    cases step.provisioning.getLast? with
    | none => simp
    | some last => simp
  simp only [validateObjectiveProvisioning, ok_iff, scan, covers, bool_iff, not_lt, gt_iff_lt,
    Bool.and_eq_false_imp, and_assoc]
  constructor
  · rintro ⟨-, few, _, sounds, distinct, unused, settled, rfl, -, overlap, -, covered, rfl⟩
    exact ⟨few, sounds, distinct, unused, settled, overlap, covered, rfl⟩
  · rintro ⟨few, sounds, distinct, unused, settled, overlap, covered, rfl⟩
    exact ⟨(), few, _, sounds, distinct, unused, settled, rfl, (), overlap, (), covered, rfl⟩

theorem checkStep_eq_ok (found : o.steps[index]? = some step) :
    checkStep o scan (step, index) = .ok scan' ↔
      StepSound o step ∧ scan.Admits step ∧ scan' = scan.extend step := by
  have contracts : ((step.acceptanceContract.any fun contract =>
        !contract.validFor o.policy step.requirements) = false ∧
      (step.acceptanceContract.any fun contract =>
        step.attempts.any fun attempt => attempt.sourceDigest ≠ contract.sourceDigest) = false) ↔
      ∀ contract, step.acceptanceContract = some contract →
        contract.validFor o.policy step.requirements = true ∧
          ∀ attempt ∈ step.attempts, attempt.sourceDigest = contract.sourceDigest := by
    cases step.acceptanceContract with
    | none => simp
    | some contract => simp
  simp only [checkStep, ok_iff, bool_iff, not_not, not_lt, gt_iff_lt, contains_eq_mem,
    validateObjectiveAttempts_eq_ok, checkReceipt_eq_ok found, validateObjectiveProvisioning_eq_ok,
    any_eq_false]
  constructor
  · rintro ⟨-, ⟨named, few⟩, -, unseen, normalized, normal, -, same, _,
      ⟨attempts, chain, distinct, unused, rfl⟩, -, valid, -, source, _, ⟨receipts, rfl⟩, -, classes, _,
      ⟨fewProvisions, provisions, distinct', unused', settled, exclusive, covered, rfl⟩, -, fits, rfl⟩
    refine ⟨⟨named, few, same ▸ normal, attempts, chain, contracts.mp ⟨valid, source⟩,
      fun receipt held => (receipts receipt held).1, ?_, fewProvisions, provisions, settled, exclusive,
      covered, fits⟩, ⟨unseen, ?_, ?_, fun receipt held => (receipts receipt held).2⟩, ?_⟩
    · simpa using classes
    · rw [ObjectiveStep.identities, nodup_append]
      refine ⟨distinct, distinct', ?_⟩
      rintro id left _ right rfl
      obtain ⟨provision, member, rfl⟩ := List.mem_map.mp right
      exact unused' provision member (by simpa using .inl (List.mem_map.mp left))
    · intro id member
      rcases List.mem_append.mp member with left | right
      · obtain ⟨attempt, inside, rfl⟩ := List.mem_map.mp left
        exact unused attempt inside
      · obtain ⟨provision, inside, rfl⟩ := List.mem_map.mp right
        exact fun old => unused' provision inside (mem_append_right _ old)
    · simp [SnapshotScan.extend, ObjectiveStep.identities]
  · rintro ⟨sound, admits, rfl⟩
    obtain ⟨valid, source⟩ := contracts.mpr sound.contract
    obtain ⟨distinct, distinct', apart⟩ := List.nodup_append.mp admits.distinct
    refine ⟨(), ⟨sound.named, sound.few⟩, (), admits.name, step.requirements, sound.normal, (), rfl, _,
      ⟨sound.attempts, sound.chain, distinct, ?_, rfl⟩, (), valid, (), source, _,
      ⟨fun receipt held => ⟨sound.receipt receipt held, admits.operation receipt held⟩, rfl⟩, (), ?_, _,
      ⟨sound.fewProvisions, sound.provisions, distinct', ?_, sound.settled, sound.exclusive, sound.covered,
        rfl⟩, (), sound.fits, ?_⟩
    · intro attempt member
      exact admits.identities _ (mem_append_left _ (mem_map_of_mem member))
    · simpa using sound.classes
    · intro provision member clash
      have mine := mem_map_of_mem (f := ProvisioningAttempt.provisionID) member
      rcases List.mem_append.mp clash with left | old
      · exact apart _ (List.mem_reverse.mp left) _ mine rfl
      · exact admits.identities _ (mem_append_right _ mine) old
    · simp [SnapshotScan.extend, ObjectiveStep.identities]

structure SnapshotScan.Distinct (scan : SnapshotScan) : Prop where
  names : scan.stepIDs.Nodup
  identities : scan.identities.Nodup
  operations : scan.operationIDs.Nodup

theorem SnapshotScan.extend_distinct : (scan.extend step).Distinct ↔ scan.Admits step ∧ scan.Distinct := by
  constructor
  · rintro ⟨names, identities, operations⟩
    simp only [SnapshotScan.extend, nodup_cons, nodup_append, nodup_reverse,
      mem_reverse] at names identities operations
    refine ⟨⟨names.1, identities.1, ?_, ?_⟩, ⟨names.2, identities.2.1, operations.2.1⟩⟩
    · exact fun id mine old => identities.2.2 id mine id old rfl
    · intro receipt held old
      exact operations.2.2 _ (by simp [held]) _ old rfl
  · rintro ⟨admits, distinct⟩
    refine ⟨?_, ?_, ?_⟩
    · exact nodup_cons.mpr ⟨admits.name, distinct.names⟩
    · refine nodup_append.mpr ⟨nodup_reverse.mpr admits.distinct, distinct.identities, ?_⟩
      rintro id mine _ old rfl
      exact admits.identities id (mem_reverse.mp mine) old
    refine nodup_append.mpr ⟨?_, distinct.operations, ?_⟩
    · cases step.acceptanceReceipt <;> simp
    rintro id mine _ old rfl
    rw [Option.mem_toList, Option.map_eq_some_iff] at mine
    obtain ⟨receipt, held, rfl⟩ := mine
    exact admits.operation receipt held old

theorem foldl_extend_distinct (distinct : (steps.foldl SnapshotScan.extend scan).Distinct) : scan.Distinct := by
  induction steps generalizing scan with
  | nil => exact distinct
  | cons step steps ih => exact (SnapshotScan.extend_distinct.mp (ih distinct)).2

theorem foldlM_checkStep {start : Nat} (place : ∀ i, o.steps[start + i]? = steps[i]?)
    (distinct : scan.Distinct) :
    (steps.zipIdx start).foldlM (checkStep o) scan = .ok scan' ↔
      (∀ step ∈ steps, StepSound o step) ∧ (steps.foldl SnapshotScan.extend scan).Distinct ∧
        scan' = steps.foldl SnapshotScan.extend scan := by
  induction steps generalizing start scan with
  | nil =>
    rw [zipIdx_nil, foldlM_nil, pure_eq_ok]
    constructor
    · rintro rfl
      exact ⟨by simp, distinct, rfl⟩
    · rintro ⟨-, -, same⟩
      exact same.symm
  | cons step steps ih =>
    have found : o.steps[start]? = some step := place 0
    have next : ∀ i, o.steps[start + 1 + i]? = steps[i]? := by
      intro i
      rw [Nat.add_assoc, Nat.add_comm 1 i]
      exact place (i + 1)
    rw [zipIdx_cons, foldlM_cons, bind_eq_ok]
    simp only [checkStep_eq_ok found, foldl_cons, forall_mem_cons]
    constructor
    · rintro ⟨_, ⟨sound, admits, rfl⟩, rest⟩
      obtain ⟨sounds, last, rfl⟩ := (ih next (SnapshotScan.extend_distinct.mpr ⟨admits, distinct⟩)).mp rest
      exact ⟨⟨sound, sounds⟩, last, rfl⟩
    · rintro ⟨⟨sound, sounds⟩, last, rfl⟩
      have extended := foldl_extend_distinct last
      exact ⟨_, ⟨sound, (SnapshotScan.extend_distinct.mp extended).1, rfl⟩,
        (ih next extended).mpr ⟨sounds, last, rfl⟩⟩

def operationIDs (steps : List ObjectiveStep) : List String :=
  steps.filterMap fun step => step.acceptanceReceipt.map CommandAcceptanceReceipt.operationID

theorem foldl_extend :
    steps.foldl SnapshotScan.extend scan =
      ⟨(steps.map ObjectiveStep.stepID).reverse ++ scan.stepIDs,
        (steps.flatMap ObjectiveStep.identities).reverse ++ scan.identities,
        (operationIDs steps).reverse ++ scan.operationIDs,
        scan.receipts + steps.countP fun step => step.acceptanceReceipt.isSome⟩ := by
  induction steps generalizing scan with
  | nil => simp [operationIDs]
  | cons step steps ih =>
    rw [foldl_cons, ih]
    cases held : step.acceptanceReceipt with
    | none => simp [SnapshotScan.extend, operationIDs, held]
    | some receipt =>
      simp only [SnapshotScan.extend, operationIDs, held, map_cons, flatMap_cons,
        filterMap_cons, Option.map_some, countP_cons, Option.isSome_some, if_true]
      simp
      omega

structure SnapshotSound (o : Objective) : Prop where
  version : o.version = objectiveVersion
  identity : identityPattern.matchString o.objectiveID = true
  revision : o.revision ≠ 0
  scope : o.scope.validOrEmpty = true
  policy : o.policy.valid = true
  nonempty : o.steps ≠ []
  few : o.steps.length ≤ maxObjectiveSteps
  mode : sameCommandAcceptanceContractMode o.steps = true
  steps : ∀ step ∈ o.steps, StepSound o step
  names : (o.steps.map ObjectiveStep.stepID).Nodup
  identities : (o.steps.flatMap ObjectiveStep.identities).Nodup
  operations : (operationIDs o.steps).Nodup
  state : checkObjectiveState o (o.steps.countP fun step => step.acceptanceReceipt.isSome) = .ok ()

theorem accepted_iff {α : Type} {x : Except String α} : accepted x = true ↔ ∃ a, x = .ok a := by
  cases x <;> simp [accepted]

theorem valid_iff : o.valid = true ↔ SnapshotSound o := by
  have empty : SnapshotScan.Distinct ⟨[], [], [], 0⟩ := ⟨nodup_nil, nodup_nil, nodup_nil⟩
  have scan : ∀ result, (o.steps.zipIdx 0).foldlM (checkStep o) ⟨[], [], [], 0⟩ = .ok result ↔ _ :=
    fun result => foldlM_checkStep (fun i => by rw [Nat.zero_add]) empty
  simp only [foldl_extend, append_nil, Nat.zero_add] at scan
  simp only [Objective.valid, accepted_iff, validateObjectiveSnapshot, ok_iff, bool_iff, not_not, not_lt,
    gt_iff_lt, scan, isEmpty_eq_false_iff]
  constructor
  · rintro ⟨_, -, ⟨⟨⟨⟨⟨⟨version, identity⟩, revision⟩, scope⟩, policy⟩, nonempty⟩, few⟩, -, mode, _,
      ⟨steps, distinct, rfl⟩, state⟩
    exact ⟨version, identity, revision, scope, policy, nonempty, few, mode, steps,
      nodup_reverse.mp distinct.names, nodup_reverse.mp distinct.identities,
      nodup_reverse.mp distinct.operations, state⟩
  · intro sound
    exact ⟨(), (), ⟨⟨⟨⟨⟨⟨sound.version, sound.identity⟩, sound.revision⟩, sound.scope⟩, sound.policy⟩,
      sound.nonempty⟩, sound.few⟩, (), sound.mode, _,
      ⟨sound.steps, ⟨nodup_reverse.mpr sound.names, nodup_reverse.mpr sound.identities,
        nodup_reverse.mpr sound.operations⟩, rfl⟩, sound.state⟩

end Aeontra.Development
