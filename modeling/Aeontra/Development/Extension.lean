import Aeontra.Development.Snapshot

/-!
What a legal transition is: how one revision of an objective extends the one before it.
-/

namespace Aeontra.Development

open Library Workqueue List

/-- How one step extends its earlier revision, between two states of the objective. -/
structure StepExtends (previousState nextState : ObjectiveState) (before after : ObjectiveStep) :
    Prop where
  frozen : activeProvisioning before = true → before.requirements = after.requirements
  provisions : validProvisionHistory before.provisioning after.provisioning = true
  authorized : before.provisioning.length < after.provisioning.length → canPlanProvisioning before = true
  name : before.stepID = after.stepID
  contract : before.acceptanceContract = after.acceptanceContract
  receipt : validAcceptanceReceiptTransition previousState nextState before after = true
  requirements : requirementsSubset before.requirements after.requirements = true
  state : validStepStateTransition before.state after.state = true
  longer : before.attempts.length ≤ after.attempts.length
  oneMore : after.attempts.length ≤ before.attempts.length + 1
  attempts : validAttemptHistory before.attempts after.attempts = true

structure Extends (previous next : Objective) : Prop where
  valid : previous.valid = true
  valid' : next.valid = true
  live : previous.terminal = false
  version : previous.version = next.version
  identity : previous.objectiveID = next.objectiveID
  scope : previous.scope = next.scope
  revision : next.revision = (previous.revision + 1) % 2 ^ 64
  policy : previous.policy = next.policy
  count : previous.steps.length = next.steps.length
  state : validObjectiveStateTransition previous.state next.state = true
  steps : ∀ pair ∈ previous.steps.zip next.steps, StepExtends previous.state next.state pair.1 pair.2

theorem validateStepTransition_eq_ok {previous next : Objective} {pair : ObjectiveStep × ObjectiveStep}
    {u : Unit} :
    validateStepTransition previous next pair = .ok u ↔
      StepExtends previous.state next.state pair.1 pair.2 := by
  obtain ⟨before, after⟩ := pair
  simp only [validateStepTransition, ok_iff, Bool.and_eq_false_imp, bool_iff, not_not, not_lt, gt_iff_lt]
  constructor
  · rintro ⟨-, frozen, -, provisions, -, authorized, -,
      ⟨⟨⟨⟨⟨⟨name, contract⟩, receipt⟩, requirements⟩, state⟩, longer⟩, oneMore⟩, attempts⟩
    exact ⟨frozen, provisions, authorized, name, contract, receipt, requirements, state, longer, oneMore,
      attempts⟩
  · intro extends'
    exact ⟨(), extends'.frozen, (), extends'.provisions, (), extends'.authorized, (),
      ⟨⟨⟨⟨⟨⟨extends'.name, extends'.contract⟩, extends'.receipt⟩, extends'.requirements⟩, extends'.state⟩,
        extends'.longer⟩, extends'.oneMore⟩, extends'.attempts⟩

theorem validateTransition_eq_ok {previous next : Objective} {u : Unit} :
    validateTransition previous next = .ok u ↔ Extends previous next := by
  simp only [validateTransition, ok_iff, bool_iff, not_not, forM_eq_ok, validateStepTransition_eq_ok]
  constructor
  · rintro ⟨-, ⟨⟨⟨⟨⟨⟨⟨⟨⟨⟨valid, valid'⟩, live⟩, version⟩, identity⟩, scope⟩, revision⟩, tier⟩, allowed⟩,
      count⟩, state⟩, steps⟩
    have policy : previous.policy = next.policy := by
      cases before : previous.policy
      cases after : next.policy
      simp_all
    exact ⟨valid, valid', live, version, identity, scope, revision, policy, count, state, steps⟩
  · intro extends'
    have policy := extends'.policy
    exact ⟨(), ⟨⟨⟨⟨⟨⟨⟨⟨⟨⟨extends'.valid, extends'.valid'⟩, extends'.live⟩, extends'.version⟩,
      extends'.identity⟩, extends'.scope⟩, extends'.revision⟩, by rw [policy]⟩, by rw [policy]⟩,
      extends'.count⟩, extends'.state⟩, extends'.steps⟩

theorem sameProvisionAttempt_refl (attempt : ProvisioningAttempt) :
    sameProvisionAttempt attempt attempt = true := by
  simp [sameProvisionAttempt]

theorem validProvisionRevision_refl {attempt : ProvisioningAttempt} (valid : attempt.valid = true) :
    validProvisionRevision attempt attempt = true := by
  simp [validProvisionRevision, valid, sameProvisionAttempt_refl]

theorem mem_zipIdx_zip_self {α : Type} {items : List α} {entry : (α × α) × Nat}
    (member : entry ∈ (items.zip items).zipIdx) : entry.1.1 = entry.1.2 ∧ entry.1.1 ∈ items := by
  have inside := fst_mem_of_mem_zipIdx member
  rw [zip_eq_zipWith, zipWith_self, mem_map] at inside
  obtain ⟨item, held, same⟩ := inside
  rw [← same]
  exact ⟨rfl, held⟩

theorem validProvisionHistory_replaceLast {earlier : List ProvisioningAttempt}
    {last next : ProvisioningAttempt} (revision : validProvisionRevision last next = true) :
    validProvisionHistory (earlier ++ [last]) (earlier ++ [next]) = true := by
  simp only [validProvisionHistory, length_append, length_singleton, Nat.le_refl, decide_true, Nat.le_add_right,
    Bool.true_and, bool_iff, all_eq_true]
  refine ⟨?_, .inl (by simp)⟩
  intro entry member
  rw [zip_append rfl, zipIdx_append] at member
  rcases List.mem_append.mp member with old | new
  · obtain ⟨same, -⟩ := mem_zipIdx_zip_self old
    have place := snd_lt_of_mem_zipIdx old
    rw [if_neg (by simp at place ⊢; omega), same]
    exact sameProvisionAttempt_refl _
  · simp only [zip_cons_cons, zip_nil_right, zipIdx_singleton, mem_singleton, length_zip, Nat.min_self] at new
    subst new
    simpa using revision

theorem validProvisionHistory_refl {provisions : List ProvisioningAttempt}
    (valid : ∀ provision ∈ provisions, provision.valid = true) :
    validProvisionHistory provisions provisions = true := by
  rcases eq_nil_or_concat provisions with rfl | ⟨earlier, last, rfl⟩
  · decide
  · rw [concat_eq_append] at valid ⊢
    exact validProvisionHistory_replaceLast (validProvisionRevision_refl (valid last (by simp)))

theorem requirementsLeft_of_sublist {before after : List Requirement} (sub : before.Sublist after)
    (sorted : after.Pairwise (· < ·)) : requirementsLeft before after = [] := by
  induction after generalizing before with
  | nil =>
    rw [sublist_nil] at sub
    rw [sub]
    rfl
  | cons requirement after ih =>
    have rest := (List.pairwise_cons.mp sorted).2
    cases before with
    | nil => exact ih (nil_sublist _) rest
    | cons first before =>
      rw [requirementsLeft]
      by_cases same : first = requirement
      · rw [if_pos same]
        exact ih (List.cons_sublist_cons.mp (same ▸ sub)) rest
      rw [if_neg same]
      refine ih ?_ rest
      cases sub with
      | cons _ sub => exact sub
      | cons_cons _ _ => exact absurd rfl same

end Aeontra.Development
