import Aeontra.Development.Preservation

/-!
What an operation makes of a valid objective is valid and a legal transition.
-/

namespace Aeontra.Development

open Library Workqueue List ObjectiveStep ExecutionAttempt ProvisioningAttempt Operation

variable {o : Objective} {step step' : ObjectiveStep}

theorem chained_no_reconciliation {attempts : List ExecutionAttempt} {previous : Option ExecutionAttempt}
    (chain : chained previous attempts = true) :
    ∀ attempt ∈ attempts.dropLast, attempt.failure ≠ some .reconciliationNeeded := by
  induction attempts generalizing previous with
  | nil => simp
  | cons first attempts ih =>
    cases attempts with
    | nil => simp
    | cons second rest =>
      simp only [chained, bool_iff] at chain
      intro attempt member
      rw [dropLast_cons_cons, mem_cons] at member
      rcases member with rfl | later
      · intro asks
        have linked := chain.2.1
        simp [follows, validAttemptContinuation, asks, continuationForFailure, FailureClass.action,
          continues] at linked
      · have rest' : chained (some first) (second :: rest) = true := by simpa [chained] using chain.2
        exact ih rest' attempt later

theorem SnapshotSound.unreconciled (sound : SnapshotSound o) (asks : o.state = .reconciliationRequired) :
    ∃ step ∈ o.steps, step.unreconciled = true := by
  have rule := sound.state
  simp only [checkObjectiveState, asks, objectiveHasFailureClass, ok_iff, any_eq_true, bool_iff] at rule
  obtain ⟨step, member, attempt, inside, failed, reason⟩ := rule
  refine ⟨step, member, ?_⟩
  cases latest : step.attempts.getLast? with
  | none => simp [List.getLast?_eq_none_iff.mp latest] at inside
  | some last =>
    have earlier := chained_no_reconciliation (sound.steps step member).chain
    obtain ⟨front, whole⟩ := split_last latest
    rw [whole, dropLast_concat] at earlier
    rw [whole, mem_append, mem_singleton] at inside
    rcases inside with old | rfl
    · exact absurd reason (earlier attempt old)
    · exact (unreconciled_of_latest latest).mpr ⟨failed, reason⟩

section

variable {index : Nat} {last next : ExecutionAttempt} {stepState : StepState} {state : ObjectiveState}

variable {attempt : ExecutionAttempt} {sourceDigest : String}

theorem identities_add (found : o.steps[index]? = some step) :
    ((o.steps.set index { step with attempts := step.attempts ++ [attempt], state := stepState }).flatMap
      identities).Perm (attempt.attemptID :: o.steps.flatMap identities) := by
  obtain ⟨before, after, whole, -, replaced⟩ := split_at found
  rw [replaced, whole]
  simp only [flatMap_append, flatMap_cons, identities, map_append,
    map_cons, map_nil, append_assoc, singleton_append]
  refine .trans ?_ perm_middle
  exact .append_left _ perm_middle

variable (sound : SnapshotSound o) (live : o.terminal = false) (below : o.revision < 2 ^ 64 - 1)
  (found : o.steps[index]? = some step)

include sound live found

theorem located : step ∈ o.steps ∧ StepSound o step ∧ step.acceptanceReceipt = none := by
  have member := mem_of_getElem? found
  exact ⟨member, sound.steps step member, sound.receipts_none live step member⟩

include below

theorem replace_extends (revision : Revision step last next) (revised : validAttemptRevision last next = true)
    (stepLegal : validStepStateTransition step.state stepState = true)
    (exclusive : activeProvisioning step = true →
      stepState ≠ .running ∧ stepState ≠ .succeeded ∧ stepState ≠ .cancelled)
    (fits : stepStateMatchesAttempts
      { step with attempts := replaceLast step.attempts next, state := stepState } = true)
    (rule : checkObjectiveState (o.revise index
      { step with attempts := replaceLast step.attempts next, state := stepState } state) 0 = .ok ())
    (legal : validObjectiveStateTransition o.state state = true) :
    Extends o (o.revise index
      { step with attempts := replaceLast step.attempts next, state := stepState } state) := by
  obtain ⟨member, held, none⟩ := located sound live found
  have identities : ((o.steps.set index
      { step with attempts := replaceLast step.attempts next, state := stepState }).flatMap
        identities).Nodup := by
    rw [identities_set found]
    · exact sound.identities
    · rw [identities, identities, revision.attemptIDs]
  have sound' := sound.revise live below found (held.reviseAttempt none rfl revision exclusive fits) rfl rfl
    none identities rule
  exact .revise sound live sound' found (.replaceAttempt held none revision.latest revised stepLegal) legal

variable (latest : step.attempts.getLast? = some last)

include latest

theorem started_extends (moved : last.transition .running = .ok next)
    (inactive : activeProvisioning step = false) :
    Extends o (o.revise index
      { step with attempts := replaceLast step.attempts next, state := .running } .running) := by
  obtain ⟨member, held, none⟩ := located sound live found
  have attempt := held.attempts last (mem_of_getLast? latest)
  have from_ : last.state = .planned ∨ last.state = .running := by
    rcases transition_from moved with same | allowed
    · exact .inr same.symm
    · cases state : last.state <;> simp [state, attemptTransitionAllowed] at allowed ⊢
  have under := sound.under_way live member latest (by rcases from_ with h | h <;> simp [h])
  refine replace_extends sound live below found
    ⟨latest, transition_identity moved, transition_failureFits moved attempt.failure (by decide)⟩
    (transition_revision moved (by decide)) ?_ ?_ ?_ (checkState_running found (by simp)) ?_
  · rw [state_of_latest held.fits latest]
    rcases from_ with h | h <;> (rw [h]; decide)
  · exact fun active => by cases inactive.symm.trans active
  · simp [stepStateMatchesAttempts, transition_state moved]
  · rcases under with h | h <;> (rw [h]; decide)

theorem failure_extends {failure : FailureClass}
    (before : (last.state = .planned ∧ preflightFailureAllowed (some failure) = true) ∨ last.state = .running) :
    Extends o (o.revise index
      { step with
        attempts := replaceLast step.attempts { last with state := .failed, failure := some failure }
        state := .failed } (Objective.failureState failure.action)) := by
  obtain ⟨member, held, none⟩ := located sound live found
  have under := sound.under_way live member latest (by rcases before with h | h <;> simp [h])
  refine replace_extends sound live below found ⟨latest, rfl, by simp [failureFits]⟩ ?_ ?_
    (fun _ => by simp) (by simp [stepStateMatchesAttempts])
    (checkState_failure found rfl (getLast?_replaceLast _ _) rfl rfl) (legal_failureState under _)
  · rcases before with ⟨planned, allowed⟩ | running
    · simp [validAttemptRevision, identity, planned, allowed]
    · simp [validAttemptRevision, identity, running, continuationForFailure]
  rw [state_of_latest held.fits latest]
  rcases before with ⟨h, -⟩ | h <;> (rw [h]; decide)

theorem completed_extends (moved : last.transition .succeeded = .ok next) {step' : ObjectiveStep}
    (made : step' = { step with attempts := replaceLast step.attempts next, state := .succeeded }) :
    Extends o (o.revise index step'
      (if ((o.steps.set index step').all fun candidate => candidate.state = .succeeded) = true
        then .acceptancePending else .running)) := by
  subst made
  obtain ⟨member, held, none⟩ := located sound live found
  have attempt := held.attempts last (mem_of_getLast? latest)
  have from_ : step.state = .running ∨ step.state = .succeeded := by
    rw [state_of_latest held.fits latest]
    rcases transition_from moved with same | allowed
    · exact .inr (by rw [← same]; rfl)
    · cases state : last.state <;> simp [state, attemptTransitionAllowed] at allowed
      exact .inl rfl
  refine replace_extends sound live below found
    ⟨latest, transition_identity moved, transition_failureFits moved attempt.failure (by decide)⟩
    (transition_revision moved (by decide)) ?_ ?_ ?_ ?_ ?_
  · rcases from_ with running | succeeded
    · rw [running]
      decide
    · rw [succeeded]
      decide
  · intro active
    have idle := held.exclusive active
    rcases from_ with running | succeeded
    · exact absurd running idle.1
    · exact absurd succeeded idle.2.1
  · simp [stepStateMatchesAttempts, transition_state moved]
  · split
    · rename_i all
      simp only [checkObjectiveState, Objective.revise, all, bind_eq_ok, reject_eq_ok]
      exact ⟨(), rfl, rfl⟩
    · rename_i notAll
      simp only [checkObjectiveState, Objective.revise, ok_iff]
      exact Bool.eq_false_iff.mpr notAll
  · rcases live_cases live with state | state | state | state
    · simp [(sound.fresh state step member).attempts] at latest
    · rw [state]
      split <;> decide
    · rw [state, if_pos]
      · decide
      rw [all_eq_true]
      intro other inside
      rcases mem_or_eq_of_mem_set inside with old | rfl
      · exact decide_eq_true (sound.all_succeeded state other old)
      · rfl
    · rw [state, if_neg]
      · decide
      intro all
      obtain ⟨other, inside, asks⟩ := sound.unreconciled state
      -- The step that asks is another one, and it has not succeeded.
      rw [all_eq_true] at all
      have failed : other.state = .failed := by
        cases latest : other.attempts.getLast? with
        | none => simp [unreconciled, latest] at asks
        | some last =>
          rw [state_of_latest (sound.steps other inside).fits latest, ((unreconciled_of_latest latest).mp asks).1]
          rfl
      obtain ⟨place, at_⟩ := List.getElem?_of_mem inside
      have apart : place ≠ index := by
        rintro rfl
        rw [at_, Option.some.injEq] at found
        rcases from_ with h | h <;> (rw [← found, failed] at h; cases h)
      have still : other ∈ o.steps.set index
          { step with attempts := replaceLast step.attempts next, state := .succeeded } := by
        refine mem_of_getElem? (i := place) ?_
        rw [List.getElem?_set_ne apart.symm]
        exact at_
      have done := all other still
      rw [failed] at done
      cases done

omit latest

theorem refined_extends {additional normalized : List Requirement}
    (inactive : activeProvisioning step = false) (free : step.acceptanceContract = none)
    (normal : normalizeRequirementList (step.requirements ++ additional) = .ok normalized) :
    Extends o (o.revise index { step with requirements := normalized } o.state) := by
  obtain ⟨member, held, none⟩ := located sound live found
  obtain ⟨valid, rfl⟩ := normalizeRequirementList_eq_ok.mp normal
  obtain ⟨-, own⟩ := normalizeRequirementList_eq_ok.mp held.normal
  have rule := sound.state
  rw [countP_of_none (sound.receipts_none live)] at rule
  have sound' : StepSound (o.revise index
      { step with requirements := canonical (step.requirements ++ additional) } o.state)
      { step with requirements := canonical (step.requirements ++ additional) } := by
    refine ⟨held.named, held.few, ?_, held.attempts, held.chain, by simp [free], by simp [none],
      held.classes, held.fewProvisions, held.provisions, held.settled, held.exclusive, ?_, held.fits⟩
    · refine normalizeRequirementList_eq_ok.mpr ⟨?_, (canonical_idem _).symm⟩
      intro id inside
      exact valid id (mem_canonical.mp inside)
    exact fun active => by cases inactive.symm.trans active
  have identities : ((o.steps.set index
      { step with requirements := canonical (step.requirements ++ additional) }).flatMap
        identities).Nodup := by
    rw [identities_set found]
    · exact sound.identities
    · rfl
  refine .revise sound live (sound.revise live below found sound' rfl rfl none identities ?_) found ?_ ?_
  · refine Eq.trans (checkState_same found ?_ ?_ ?_ ?_ 0) rule <;> rfl
  · have same : StepExtends o.state o.state step step := .refl held none
    refine ⟨?_, same.provisions, same.authorized, rfl, rfl, ?_, ?_, same.state, same.longer, same.oneMore,
      same.attempts⟩
    · exact fun active => by cases inactive.symm.trans active
    · simp [validAcceptanceReceiptTransition, none]
    rw [requirementsSubset, requirementsLeft_of_sublist]
    · rfl
    · have sorted : step.requirements.Pairwise (· < ·) := by
        rw [own]
        exact canonical_pairwise _
      refine sublist_of_subset sorted (canonical_pairwise _) ?_
      intro id inside
      exact mem_canonical.mpr (mem_append_left _ inside)
    · exact canonical_pairwise _
  · simp [validObjectiveStateTransition]

theorem planned_extends {attemptID : String} {candidates : List EnvironmentAttestation} {resolution : Resolution}
    (contracted : ∀ contract, step.acceptanceContract = some contract →
      Text.trimSpace sourceDigest = contract.sourceDigest)
    (inactive : activeProvisioning step = false) (unfinished : step.state ≠ .succeeded)
    (room : step.attempts.length < maxAttemptsPerStep)
    (resolved : Objective.nextAttempt o.policy step attemptID sourceDigest candidates =
      .ok (attempt, resolution))
    (open_ : step.state ≠ .cancelled) (new : Text.trimSpace attemptID ∉ o.steps.flatMap identities) :
    Extends o (o.revise index
      { step with attempts := step.attempts ++ [attempt], state := .planned } .running) := by
  obtain ⟨member, held, none⟩ := located sound live found
  have planned := nextAttempt_planned held resolved
  have identities : ((o.steps.set index
      { step with attempts := step.attempts ++ [attempt], state := .planned }).flatMap
        identities).Nodup := by
    rw [(identities_add found).nodup_iff, nodup_cons, planned.name]
    exact ⟨new, sound.identities⟩
  have sound' := sound.revise live below found
    (held.addAttempt none rfl planned room inactive contracted) rfl rfl none identities
    (checkState_running found (by simp))
  refine .revise sound live sound' found (.ofAttempts held none ?_ (by simp) (by simp) ?_)
    (legal_running live ?_)
  · cases latest : step.attempts.getLast? with
    | none =>
      have fits := held.fits
      simp only [stepStateMatchesAttempts, latest, bool_iff] at fits
      rcases fits with planned | cancelled
      · rw [planned]
        decide
      · exact absurd cancelled open_
    | some previous =>
      obtain ⟨failed, -⟩ := planned.parent previous latest
      rw [state_of_latest held.fits latest, failed]
      decide
  · refine validAttemptHistory_add planned.state ?_ planned.parent
    intro empty
    simpa [follows, empty] using planned.follows
  · exact fun pending => unfinished (sound.all_succeeded pending step member)

omit below

theorem provisioned_extends {provisionID : String} {plan : ProvisionPlan}
    {provision : ProvisioningAttempt} (authorized : canPlanProvisioning step = true)
    (new : newProvisioningAttempt provisionID sourceDigest plan = .ok provision)
    (valid : (o.revise index { step with provisioning := step.provisioning ++ [provision] }
      .running).valid = true) :
    Extends o (o.revise index { step with provisioning := step.provisioning ++ [provision] } .running) := by
  obtain ⟨member, held, none⟩ := located sound live found
  have planned : provision.state = .planned := by
    simp only [newProvisioningAttempt, ok_iff] at new
    obtain ⟨-, -, rfl⟩ := new
    rfl
  have ready := authorized
  simp only [canPlanProvisioning, bool_iff] at ready
  refine .revise sound live (valid_iff.mp valid) found
    (.ofProvisioning held none (validProvisionHistory_add ready.1.1.2 planned) fun _ => authorized)
    (legal_running live ?_)
  intro pending
  have done := sound.all_succeeded pending step member
  rcases ready.1.1.1 with h | h <;> (rw [h] at done; cases done)

theorem advanced_extends {before after : ProvisioningAttempt}
    (latest : step.provisioning.getLast? = some before)
    (revision : validProvisionRevision before after = true)
    (valid : (o.revise index { step with provisioning := replaceLast step.provisioning after }
      o.state).valid = true) :
    Extends o (o.revise index { step with provisioning := replaceLast step.provisioning after } o.state) := by
  obtain ⟨member, held, none⟩ := located sound live found
  obtain ⟨earlier, whole⟩ := split_last latest
  refine .revise sound live (valid_iff.mp valid) found (.ofProvisioning held none ?_ ?_)
    (by simp [validObjectiveStateTransition])
  · rw [whole, replaceLast_append]
    exact validProvisionHistory_replaceLast revision
  · intro longer
    rw [whole, replaceLast_append] at longer
    simp at longer

end

theorem zip_map_eq {α β : Type} {f : α → β} :
    ∀ {left right : List α}, left.map f = right.map f → ∀ pair ∈ left.zip right, f pair.1 = f pair.2
  | [], _, _, pair, member => by simp at member
  | _ :: _, [], same, _, _ => by simp at same
  | a :: left, b :: right, same, pair, member => by
      rw [map_cons, map_cons, cons.injEq] at same
      rw [zip_cons_cons, mem_cons] at member
      rcases member with rfl | later
      · exact same.1
      · exact zip_map_eq same.2 pair later

variable {state : ObjectiveState} {steps : List ObjectiveStep} {o' : Objective} {op : Operation}

theorem Extends.settle (sound : SnapshotSound o)
    (live : o.terminal = false) (sound' : SnapshotSound (o.settle steps state))
    (count : o.steps.length = steps.length)
    (each : ∀ pair ∈ o.steps.zip steps, StepExtends o.state state pair.1 pair.2)
    (legal : validObjectiveStateTransition o.state state = true) : Extends o (o.settle steps state) :=
  ⟨valid_iff.mpr sound, valid_iff.mpr sound', live, rfl, rfl, rfl, rfl, rfl, count, legal, each⟩

theorem accepted_extends (sound : SnapshotSound o) (below : o.revision < 2 ^ 64 - 1)
    (pending : o.state = .acceptancePending)
    (free : o.steps.head?.any (fun step => step.acceptanceContract.isSome) = false) :
    Extends o (o.settle o.steps .accepted) := by
  have live : o.terminal = false := by simp [Objective.terminal, pending, ObjectiveState.settled]
  have none := sound.receipts_none live
  have sound' : SnapshotSound (o.settle o.steps .accepted) := by
    refine ⟨sound.version, sound.identity, ?_, sound.scope, sound.policy, sound.nonempty, sound.few,
      sound.mode, ?_, sound.names, sound.identities, sound.operations, ?_⟩
    · change (o.revision + 1) % 2 ^ 64 ≠ 0
      rw [next_revision below]
      omega
    · exact fun step member => (sound.steps step member).transfer (none step member) rfl
    change checkObjectiveState _ (o.steps.countP _) = _
    rw [countP_of_none none]
    have all : (o.steps.all fun step => decide (step.state = .succeeded)) = true := by
      rw [all_eq_true]
      exact fun step member => decide_eq_true (sound.all_succeeded pending step member)
    simp [checkObjectiveState, Objective.settle, all, free]
  refine .settle sound live sound' rfl ?_ (by rw [pending]; decide)
  intro pair member
  rw [zip_eq_zipWith, zipWith_self, mem_map] at member
  obtain ⟨step, inside, rfl⟩ := member
  exact .refl (sound.steps step inside) (none step inside)

theorem StepExtends.withReceipt {before after : ObjectiveState} {receipt : Option CommandAcceptanceReceipt}
    (kept : StepExtends before after step step)
    (legal : validAcceptanceReceiptTransition before after step
      { step with acceptanceReceipt := receipt } = true) :
    StepExtends before after step { step with acceptanceReceipt := receipt } :=
  ⟨kept.frozen, kept.provisions, kept.authorized, rfl, rfl, legal, kept.requirements, kept.state,
    kept.longer, kept.oneMore, kept.attempts⟩

theorem evidenced_extends {receipts : List CommandAcceptanceReceipt} {scan : List String × List ObjectiveStep}
    (sound : SnapshotSound o) (pending : o.state = .acceptancePending)
    (attached : receipts.foldlM o.attachReceipt ([], o.steps) = .ok scan)
    (valid : (o.settle scan.2 .accepted).valid = true) : Extends o (o.settle scan.2 .accepted) := by
  have live : o.terminal = false := by simp [Objective.terminal, pending, ObjectiveState.settled]
  have same := attachReceipts_same attached
  have sound' := valid_iff.mp valid
  refine .settle sound live sound' ?_ ?_ (by rw [pending]; decide)
  · have lengths := congrArg length same
    simpa using lengths.symm
  intro pair member
  obtain ⟨before, after⟩ := pair
  obtain ⟨left, right⟩ := of_mem_zip member
  have equal : before.unreceipted = after.unreceipted := zip_map_eq same.symm _ member
  have none := sound.receipts_none live before left
  have held := sound.steps before left
  have kept : StepExtends o.state .accepted before before := .refl held none
  have shape : after = { before with acceptanceReceipt := after.acceptanceReceipt } := by
    cases before
    cases after
    simp_all [unreceipted]
  rw [shape]
  refine kept.withReceipt ?_
  cases given : after.acceptanceReceipt with
  | none => simp [validAcceptanceReceiptTransition, none]
  | some receipt =>
    have contracted := ((sound'.steps after right).receipt receipt given).1
    rw [shape] at contracted
    simp only at contracted
    simp [validAcceptanceReceiptTransition, none, contracted, pending]

theorem cancel_revision {before after : ProvisioningAttempt} (run : before.cancel = .ok after) :
    validProvisionRevision before after = true ∧ after.valid = true ∧
      after.provisionID = before.provisionID ∧ after.plan = before.plan ∧ after.state = .cancelled := by
  simp only [ProvisioningAttempt.cancel, ok_iff, bool_iff] at run
  obtain ⟨-, ⟨valid, active⟩, rfl⟩ := run
  have valid' := valid
  simp only [ProvisioningAttempt.valid, bool_iff] at valid'
  obtain ⟨⟨⟨name, source⟩, plan⟩, rule⟩ := valid'
  have cancelled : ProvisioningAttempt.valid
      { before with state := .cancelled, receiptDigest := "", failure := none } = true := by
    cases state : before.state <;> simp [state] at active rule <;>
      simp [ProvisioningAttempt.valid, name, source, plan, rule]
  refine ⟨?_, cancelled, rfl, rfl, rfl⟩
  simp only [validProvisionRevision, valid, cancelled, bool_iff]
  refine ⟨⟨⟨⟨⟨trivial, trivial⟩, trivial⟩, trivial⟩, trivial⟩, .inr ?_⟩
  cases state : before.state <;> simp [state] at active rule ⊢
  exact ⟨rule.1.1.1, rule.1.1.2⟩

structure Released (policy : ResolutionPolicy) (before after : List ProvisioningAttempt) : Prop where
  history : validProvisionHistory before after = true
  names : after.map provisionID = before.map provisionID
  sound : ∀ provision ∈ after, ProvisionSound policy provision

theorem cancelProvisioning_released {middle : ObjectiveStep} (held : StepSound o step)
    (run : Objective.cancelProvisioning step = .ok middle) :
    Released o.policy step.provisioning middle.provisioning := by
  have same : Released o.policy step.provisioning step.provisioning :=
    ⟨validProvisionHistory_refl fun p member => (held.provisions p member).valid, rfl, held.provisions⟩
  unfold Objective.cancelProvisioning at run
  split at run
  · cases run
    exact same
  rename_i last latest
  split at run
  · simp only [ok_iff] at run
    obtain ⟨cancelled, cancels, rfl⟩ := run
    obtain ⟨revision, valid, name, plan, -⟩ := cancel_revision cancels
    obtain ⟨earlier, whole⟩ := split_last latest
    have sounds := held.provisions
    dsimp only
    rw [whole] at sounds ⊢
    rw [replaceLast_append]
    refine ⟨validProvisionHistory_replaceLast revision, by simp [name], ?_⟩
    intro provision member
    rcases mem_append.mp member with old | new
    · exact sounds provision (mem_append_left _ old)
    · rw [mem_singleton.mp new]
      exact ⟨valid, plan ▸ (sounds last (by simp)).allowed⟩
  · cases run
    exact same

structure StepCancelled (o' : Objective) (state : ObjectiveState) (before after : ObjectiveStep) : Prop where
  sound : StepSound o' after
  extends' : StepExtends state .cancelled before after
  name : after.stepID = before.stepID
  identities : after.identities = before.identities
  contract : after.acceptanceContract = before.acceptanceContract
  receipt : after.acceptanceReceipt = none
  ended : after.state ≠ .running ∧ after.state ≠ .planned
  inactive : activeProvisioning after = false

theorem cancelStep_cancelled {step' : ObjectiveStep} (held : StepSound o step)
    (none : step.acceptanceReceipt = none) (policy : o'.policy = o.policy)
    (run : Objective.cancelStep step = .ok step') : StepCancelled o' o.state step step' := by
  simp only [Objective.cancelStep, ok_iff] at run
  obtain ⟨middle, released, run⟩ := run
  obtain ⟨inactive, same, earlier⟩ := cancelProvisioning_spec released
  obtain ⟨history, names, provisions⟩ := cancelProvisioning_released held released
  generalize middle.provisioning = provisioning at same earlier history names provisions
  have length : provisioning.length = step.provisioning.length := by
    simpa using congrArg List.length names
  have authorized : step.provisioning.length < provisioning.length → canPlanProvisioning step = true :=
    fun longer => absurd longer (by omega)
  subst same
  have reached : StepSound o { step with provisioning := provisioning } := by
    refine ⟨held.named, held.few, held.normal, held.attempts, held.chain, held.contract, by simp [none],
      held.classes, ?_, provisions, ?_, ?_, ?_, held.fits⟩
    · rw [length]
      exact held.fewProvisions
    · dsimp only
      rw [earlier]
      exact held.settled
    · exact fun active => by cases inactive.symm.trans active
    · exact fun active => by cases inactive.symm.trans active
  have identities : identities { step with provisioning := provisioning } = step.identities := by
    rw [identities, identities, names]
  dsimp only at run
  split at run
  · rename_i finished
    rw [pure_eq_ok] at run
    subst run
    refine ⟨reached.transfer none policy, .ofProvisioning held none history authorized, rfl, identities, rfl,
      none, ?_, inactive⟩
    change step.state ≠ .running ∧ step.state ≠ .planned
    constructor <;> (intro state; simp [state] at finished)
  · rename_i unfinished
    simp only [bool_iff, not_or] at unfinished
    split at run
    · rename_i latest
      rw [pure_eq_ok] at run
      subst run
      have fits := held.fits
      simp only [stepStateMatchesAttempts, latest, bool_iff] at fits
      have planned : step.state = .planned := by
        rcases fits with planned | cancelled
        · exact planned
        · exact absurd cancelled unfinished.2
      have empty := List.getLast?_eq_none_iff.mp latest
      have kept : StepExtends o.state .cancelled step step := .refl held none
      refine ⟨?_, .change held none history authorized (by rw [planned]; decide) kept.longer kept.oneMore
        kept.attempts, rfl, identities, rfl, none, by simp, inactive⟩
      have moved : StepSound o { step with provisioning := provisioning, state := .cancelled } := by
        refine ⟨reached.named, reached.few, reached.normal, reached.attempts, reached.chain,
          reached.contract, by simp [none], reached.classes, reached.fewProvisions, reached.provisions,
          reached.settled, ?_, reached.covered, by simp [stepStateMatchesAttempts, empty]⟩
        exact fun active => by cases inactive.symm.trans active
      exact moved.transfer none policy
    · rename_i last latest
      simp only [ok_iff] at run
      obtain ⟨-, live, next, moved, rfl⟩ := run
      have attempt := held.attempts last (mem_of_getLast? latest)
      have revision : Revision { step with provisioning := provisioning } last next :=
        ⟨latest, transition_identity moved, transition_failureFits moved attempt.failure (by decide)⟩
      have legal : validStepStateTransition step.state .cancelled = true := by
        rw [state_of_latest held.fits latest]
        cases state : last.state <;> simp [state] at live <;> decide
      have count : (replaceLast step.attempts next).length = step.attempts.length := by
        simpa using congrArg List.length revision.attemptIDs
      refine ⟨?_, ?_, rfl, ?_, rfl, none, by simp, inactive⟩
      · refine reached.reviseAttempt none policy revision ?_ ?_
        · exact fun active => by cases inactive.symm.trans active
        · simp [stepStateMatchesAttempts, transition_state moved]
      · exact .change held none history authorized legal count.ge (by omega)
          (validAttemptHistory_replaceLast latest (transition_revision moved (by decide)))
      · rw [← identities]
        change _ ++ _ = _ ++ _
        rw [← revision.attemptIDs]

theorem cancelled_extends (sound : SnapshotSound o) (live : o.terminal = false)
    (below : o.revision < 2 ^ 64 - 1) (each : o.steps.mapM Objective.cancelStep = .ok steps) :
    Extends o (o.settle steps .cancelled) := by
  have related : List.Forall₂ (StepCancelled (o.settle steps .cancelled) o.state) o.steps steps :=
    mapM_forall₂ (fun step member _ run => cancelStep_cancelled (sound.steps step member)
      (sound.receipts_none live step member) rfl run) each
  have count := related.length_eq
  have names := forall₂_map_eq (fun _ _ cancelled => cancelled.name) related
  have identities := forall₂_map_eq (fun _ _ cancelled => cancelled.identities) related
  have contracts := forall₂_map_eq (fun _ _ cancelled => cancelled.contract) related
  have none := forall₂_right (fun _ _ cancelled => cancelled.receipt) related
  have sound' : SnapshotSound (o.settle steps .cancelled) := by
    refine ⟨sound.version, sound.identity, ?_, sound.scope, sound.policy, ?_, ?_, ?_,
      forall₂_right (fun _ _ cancelled => cancelled.sound) related, ?_, ?_, ?_, ?_⟩
    · change (o.revision + 1) % 2 ^ 64 ≠ 0
      rw [next_revision below]
      omega
    · intro empty
      apply sound.nonempty
      rw [← length_eq_zero_iff, count, length_eq_zero_iff]
      exact empty
    · change steps.length ≤ _
      rw [← count]
      exact sound.few
    · exact (contractMode_of_map contracts).trans sound.mode
    · change (steps.map _).Nodup
      rw [names]
      exact sound.names
    · change (steps.flatMap _).Nodup
      rw [flatMap_def, identities, ← flatMap_def]
      exact sound.identities
    · change (operationIDs steps).Nodup
      rw [operationIDs_of_none none]
      exact nodup_nil
    have ended : (steps.any fun step => decide (step.state = .running) || decide (step.state = .planned) ||
        activeProvisioning step) = false := by
      rw [any_eq_false]
      refine forall₂_right (fun _ step cancelled => ?_) related
      simp [cancelled.ended, cancelled.inactive]
    simp [checkObjectiveState, Objective.settle, ended]
  refine .settle sound live sound' count ?_ ?_
  · exact fun pair member => ((List.forall₂_iff_zip.mp related).2 member).extends'
  · rcases live_cases live with state | state | state | state <;> (rw [state]; decide)

def Objective.stepNamed (o : Objective) (stepID : String) : Option ObjectiveStep :=
  (o.stepIndex stepID).bind fun index => o.steps[index]?

/-- An attempt is planned under a new identity in a step that is not cancelled, and started while nothing is
provisioned. -/
def Operation.suits (o : Objective) : Operation → Bool
  | .planAttempt stepID attemptID _ _ =>
    (o.stepNamed stepID).all (fun step => step.state ≠ .cancelled) &&
      !(o.steps.flatMap identities).contains (Text.trimSpace attemptID)
  | .startAttempt stepID => (o.stepNamed stepID).all fun step => !activeProvisioning step
  | _ => true

theorem Extends.at (extends' : Extends o (o.revise index step' state)) (found : o.steps[index]? = some step) :
    StepExtends o.state state step step' ∧ StepSound (o.revise index step' state) step' := by
  have here : (o.steps.set index step')[index]? = some step' := by
    rw [List.getElem?_set_self (List.getElem?_eq_some_iff.mp found).1]
  refine ⟨extends'.steps (step, step') ?_, ?_⟩
  · apply mem_of_getElem? (i := index)
    rw [getElem?_zip_eq_some]
    exact ⟨found, here⟩
  · exact (valid_iff.mp extends'.valid').steps step' (mem_of_getElem? here)

theorem step_extends (sound : SnapshotSound o) (live : o.terminal = false) (below : o.revision < 2 ^ 64 - 1)
    (located : o.stepIndex op.stepID = some index) (found : o.steps[index]? = some step)
    (move : StepMove o index step op step' state) :
    Extends o (o.revise index step' state) ↔ op.suits o = true := by
  have named : o.stepNamed op.stepID = some step := by
    rw [Objective.stepNamed, located, Option.bind_some, found]
  cases move with
  | refined idle unfinished inactive free normal =>
    exact iff_of_true (refined_extends sound live below found inactive free normal) rfl
  | planned contracted inactive unfinished room resolved =>
    rename_i stepID attemptID sourceDigest candidates attempt resolution
    have plan := nextAttempt_planned (sound.steps step (mem_of_getElem? found)) resolved
    change o.stepNamed stepID = _ at named
    simp only [suits, named, Option.all_some, bool_iff, contains_eq_mem]
    constructor
    · intro extends'
      constructor
      · intro cancelled
        have legal := (extends'.at found).1.state
        rw [cancelled] at legal
        cases legal
      · have distinct := (valid_iff.mp extends'.valid').identities
        have distinct' := (identities_add found).nodup_iff.mp distinct
        rw [← plan.name]
        exact (List.nodup_cons.mp distinct').1
    · rintro ⟨open_, new⟩
      exact planned_extends sound live below found contracted inactive unfinished room resolved open_ new
  | started latest moved =>
    rename_i stepID last next
    change o.stepNamed stepID = _ at named
    simp only [suits, named, Option.all_some, Bool.not_eq_eq_eq_not, Bool.not_true]
    constructor
    · intro extends'
      rw [← Bool.not_eq_true]
      intro active
      exact ((extends'.at found).2.exclusive active).1 rfl
    · intro inactive
      exact started_extends sound live below found latest moved inactive
  | rejected latest before allowed =>
    exact iff_of_true (failure_extends sound live below found latest (.inl ⟨before, allowed⟩)) rfl
  | failed latest before =>
    exact iff_of_true (failure_extends sound live below found latest (.inr before)) rfl
  | completed latest moved =>
    exact iff_of_true (completed_extends sound live below found latest moved rfl) rfl
  | provisioned authorized new valid =>
    exact iff_of_true (provisioned_extends sound live found authorized new valid) rfl
  | advanced latest changes changed revision different valid =>
    refine iff_of_true (advanced_extends sound live found latest revision valid) ?_
    cases op <;> first | rfl | cases changes

theorem settlement_extends (sound : SnapshotSound o)
    (below : o.revision < 2 ^ 64 - 1) (settled : Settlement o op o') : Extends o o' := by
  cases settled with
  | accepted pending free => exact accepted_extends sound below pending free
  | evidenced pending attached valid => exact evidenced_extends sound pending attached valid
  | cancelled live each => exact cancelled_extends sound live below each

/-- What an operation makes of a valid objective can be saved exactly when the operation suits the
step it names. -/
theorem apply_saved_iff {o' : Objective} {op : Operation} (valid : o.valid = true)
    (live : o.terminal = false) (below : o.revision < 2 ^ 64 - 1) (run : o.apply op = .ok o')
    (changed : o' ≠ o) : (o'.valid = true ∧ validateTransition o o' = .ok ()) ↔ op.suits o = true := by
  have sound := valid_iff.mp valid
  have saved : (o'.valid = true ∧ validateTransition o o' = .ok ()) ↔ Extends o o' := by
    rw [validateTransition_eq_ok]
    exact ⟨And.right, fun extends' => ⟨extends'.valid', extends'⟩⟩
  rw [saved]
  cases (apply_move run).resolve_left changed with
  | step _ located found move => exact step_extends sound live below located found move
  | settle settled =>
    refine iff_of_true (settlement_extends sound below settled) ?_
    cases settled <;> rfl

/-- Starting the planned attempt of the sample. -/
theorem apply_saved_sample : ∃ o : Objective, o.valid = true ∧ o.terminal = false ∧
    ∃ o', o.apply (.startAttempt "a") = .ok o' ∧
      ((o'.valid = true ∧ validateTransition o o' = .ok ()) ↔
        suits o (.startAttempt "a") = true) := by
  have valid : (sampleObjective 2 .running
      [sampleStep "a" [sampleAttempt "a1" "a" .planned none] .planned,
        sampleStep "b" [] .planned]).valid = true := by
    decide +kernel
  exact ⟨_, valid, rfl, _, sample_started, apply_saved_iff valid rfl (by decide) sample_started (by decide)⟩

/-- An attempt planned in a cancelled step cannot be saved. -/
theorem cancelled_step_replanned : ¬ ∀ (o o' : Objective) (op : Operation), o.valid = true →
    o.terminal = false → o.revision < 2 ^ 64 - 1 →
    (∀ stepID attemptID sourceDigest candidates, op = .planAttempt stepID attemptID sourceDigest candidates →
      Text.trimSpace attemptID ∉ o.steps.flatMap identities) →
    o.apply op = .ok o' → o' ≠ o → o'.valid = true ∧ validateTransition o o' = .ok () := by
  intro always
  have valid : (sampleObjective 2 .running
      [sampleStep "a" [] .cancelled, sampleStep "b" [] .planned]).valid = true := by
    decide +kernel
  have run : (sampleObjective 2 .running [sampleStep "a" [] .cancelled, sampleStep "b" [] .planned]).apply
      (.planAttempt "a" "a1" sampleSource [sampleEnvironment]) =
      .ok (sampleObjective 3 .running
        [sampleStep "a" [sampleAttempt "a1" "a" .planned none] .planned, sampleStep "b" [] .planned]) := by
    decide +kernel
  have saved := always _ _ _ valid rfl (by decide) (by simp [sampleObjective, sampleStep,
    identities]) run (by decide)
  have step := (validateTransition_eq_ok.mp saved.2).steps
    (sampleStep "a" [] .cancelled, sampleStep "a" [sampleAttempt "a1" "a" .planned none] .planned)
    mem_cons_self
  cases step.state

end Aeontra.Development
