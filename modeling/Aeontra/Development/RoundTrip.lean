import Aeontra.Development.Preservation
import Aeontra.Development.Record
import Aeontra.Workqueue.ObjectiveChanges

/-!
The body of a record determines the record, and what is read back from the body of an
objective is that objective.
-/

namespace Aeontra.Development

open Library Workqueue JsonText List

theorem objectiveState_text_inj {a b : ObjectiveState} : a.text = b.text ↔ a = b := by
  cases a <;> cases b <;> decide

theorem stepState_text_inj {a b : StepState} : a.text = b.text ↔ a = b := by
  cases a <;> cases b <;> decide

theorem attemptState_text_inj {a b : AttemptState} : a.text = b.text ↔ a = b := by
  cases a <;> cases b <;> decide

theorem provisioningState_text_inj {a b : ProvisioningState} : a.text = b.text ↔ a = b := by
  cases a <;> cases b <;> decide

theorem executionClass_text_inj {a b : ExecutionClass} : a.text = b.text ↔ a = b :=
  ExecutionClass.text_injective.eq_iff

theorem failureText_inj {a b : Option FailureClass} : failureText a = failureText b ↔ a = b := by
  have all : ∀ a b : FailureClass, a.text = b.text → a = b := by
    intro a b
    cases a <;> cases b <;> decide
  have present : ∀ a : FailureClass, a.text ≠ "" := by
    intro a
    cases a <;> decide
  cases a with
  | none =>
    cases b with
    | none => simp
    | some b => simp [failureText, (present b).symm]
  | some a =>
    cases b with
    | none => simp [failureText, present a]
    | some b =>
      simp only [failureText, Option.elim_some, Option.some.injEq]
      exact ⟨all a b, fun same => by rw [same]⟩

theorem anchor_layout : Layout anchorSlots where
  alike _ _ := by simp only [anchorSlots, map_cons, map_nil, textSlot, natSlot]
  names _ := by
    simp only [anchorSlots, map_cons, map_nil, textSlot, natSlot]
    decide
  filled _ := by simp [Filled, anchorSlots]
  injective a b same := by
    cases a
    cases b
    simpa [anchorSlots] using same

theorem scope_layout : Layout scopeSlots where
  alike _ _ := by simp only [scopeSlots, map_cons, map_nil, textSlot]
  names _ := by
    simp only [scopeSlots, map_cons, map_nil, textSlot]
    decide
  filled _ := by simp [Filled, scopeSlots, holds_map _ anchor_layout.isValue]
  injective a b same := by
    cases a
    cases b
    simpa [scopeSlots, anchor_layout.option_inj] using same

theorem policy_layout : Layout policySlots where
  alike _ _ := by simp only [policySlots, map_cons, map_nil, natSlot, arraySlot]
  names _ := by
    simp only [policySlots, map_cons, map_nil, natSlot, arraySlot]
    decide
  filled _ := by simp [Filled, policySlots, holds_arraySlot, texts, IsValue.text]
  injective a b same := by
    cases a
    cases b
    simp only [policySlots, cons.injEq, natSlot_inj, and_true,
      arraySlot_inj (isValue_quotes _) (isValue_quotes _), texts, map_quote_inj] at same
    rw [same.1, map_inj_right (fun _ _ => executionClass_text_inj.mp) |>.mp same.2]

theorem attempt_layout : Layout attemptSlots where
  alike _ _ := by simp only [attemptSlots, map_cons, map_nil, textSlot, natSlot, optionalText]
  names _ := by
    simp only [attemptSlots, map_cons, map_nil, textSlot, natSlot, optionalText]
    decide
  filled _ := by simp [Filled, attemptSlots]
  injective a b same := by
    cases a
    cases b
    simpa [attemptSlots, executionClass_text_inj, attemptState_text_inj, failureText_inj] using same

theorem plan_layout : Layout planSlots where
  alike _ _ := by simp only [planSlots, map_cons, map_nil, textSlot, intSlot, arraySlot, optionalText]
  names _ := by
    simp only [planSlots, map_cons, map_nil, textSlot, intSlot, arraySlot, optionalText]
    decide
  filled _ := by simp [Filled, planSlots, holds_arraySlot, texts, IsValue.text]
  injective a b same := by
    cases a
    cases b
    simpa [planSlots, executionClass_text_inj, texts,
      arraySlot_inj (isValue_quotes _) (isValue_quotes _), map_quote_inj] using same

theorem provision_layout : Layout provisionSlots where
  alike _ _ := by simp only [provisionSlots, map_cons, map_nil, textSlot, optionalText, optionalNat]
  names _ := by
    simp only [provisionSlots, map_cons, map_nil, textSlot, optionalText, optionalNat]
    decide
  filled provision := by
    simp [Filled, provisionSlots, holds_of_isValue _ (plan_layout.isValue provision.plan)]
  injective a b same := by
    cases a
    cases b
    simpa [provisionSlots, provisioningState_text_inj, failureText_inj, plan_layout.inj] using same

theorem contract_layout : Layout contractSlots where
  alike _ _ := by simp only [contractSlots, map_cons, map_nil, textSlot, arraySlot, optionalArray]
  names _ := by
    simp only [contractSlots, map_cons, map_nil, textSlot, arraySlot, optionalArray]
    decide
  filled _ := by simp [Filled, contractSlots, holds_arraySlot, holds_optionalArray, texts, IsValue.text]
  injective a b same := by
    cases a
    cases b
    simpa [contractSlots, texts, arraySlot_inj (isValue_quotes _) (isValue_quotes _),
      optionalArray_inj (isValue_quotes _) (isValue_quotes _), map_quote_inj] using same

theorem receipt_layout : Layout receiptSlots where
  alike _ _ := by simp only [receiptSlots, map_cons, map_nil, textSlot, optionalText, optionalInt, intSlot,
      optionalArray]
  names _ := by
    simp only [receiptSlots, map_cons, map_nil, textSlot, optionalText, optionalInt, intSlot, optionalArray]
    decide
  filled _ := by simp [Filled, receiptSlots, holds_optionalArray, texts, IsValue.text]
  injective a b same := by
    cases a
    cases b
    simpa [receiptSlots, texts, optionalArray_inj (isValue_quotes _) (isValue_quotes _),
      map_quote_inj] using same

theorem step_layout : Layout stepSlots where
  alike _ _ := by simp only [stepSlots, map_cons, map_nil, textSlot, arraySlot, optionalArray]
  names _ := by
    simp only [stepSlots, map_cons, map_nil, textSlot, arraySlot, optionalArray]
    decide
  filled step := by
    simp [Filled, stepSlots, holds_arraySlot, texts, IsValue.text, attempt_layout.isValue,
      holds_optionalArray, provision_layout.isValue, holds_map _ contract_layout.isValue,
      holds_map _ receipt_layout.isValue]
  injective a b same := by
    cases a
    cases b
    simpa [stepSlots, stepState_text_inj, texts, map_quote_inj,
      arraySlot_inj (isValue_quotes _) (isValue_quotes _),
      arraySlot_inj (attempt_layout.isValue_map _) (attempt_layout.isValue_map _),
      optionalArray_inj (provision_layout.isValue_map _) (provision_layout.isValue_map _),
      attempt_layout.map_inj, provision_layout.map_inj, contract_layout.option_inj,
      receipt_layout.option_inj] using same

theorem objective_layout : Layout objectiveSlots where
  alike _ _ := by simp only [objectiveSlots, map_cons, map_nil, textSlot, intSlot, natSlot, arraySlot]
  names _ := by
    simp only [objectiveSlots, map_cons, map_nil, textSlot, intSlot, natSlot, arraySlot]
    decide
  filled objective := by
    simp [Filled, objectiveSlots, holds_map _ scope_layout.isValue,
      holds_of_isValue _ (policy_layout.isValue objective.policy), holds_arraySlot, step_layout.isValue]
  injective a b same := by
    cases a
    cases b
    simpa [objectiveSlots, objectiveState_text_inj, scope_layout.option_inj, policy_layout.inj,
      arraySlot_inj (step_layout.isValue_map _) (step_layout.isValue_map _), step_layout.map_inj] using same

theorem encodeRecord_inj {a b : ObjectiveRecord} : encodeRecord a = encodeRecord b ↔ a = b :=
  objective_layout.inj

theorem capabilityTail_lower : ∀ {separated : Bool} {word : List Char},
    capabilityTail separated word = true → ∀ c ∈ word, isLowerVisible c = true
  | _, [], _, _, member => by simp at member
  | separated, d :: word, valid, c, member => by
      rw [capabilityTail] at valid
      have kept : isLowerVisible d = true ∧ ∃ separated', capabilityTail separated' word = true := by
        split at valid
        · rename_i alnum
          exact ⟨isLowerVisible_of_isLowerAlnum alnum, false, valid⟩
        · simp only [bool_iff, beq_iff_eq] at valid
          refine ⟨?_, true, valid.2⟩
          rcases valid.1.1 with rfl | rfl <;> decide
      obtain ⟨first, separated', rest⟩ := kept
      rcases mem_cons.mp member with rfl | later
      · exact first
      · exact capabilityTail_lower rest c later

theorem capability_lower {id : CapabilityID} (valid : validCapabilityID id = true) :
    ∀ c ∈ id.toList, isLowerVisible c = true := by
  rw [validCapabilityID, chars_eq_toList] at valid
  cases text : id.toList with
  | nil => simp
  | cons d word =>
    rw [text] at valid
    simp only [bool_iff] at valid
    intro c member
    rcases mem_cons.mp member with rfl | later
    · apply isLowerVisible_of_isLowerAlnum
      simp [isLowerAlnum, valid.1]
    · exact capabilityTail_lower valid.2 c later

theorem lower_trimSpace {text : String} (lower : ∀ c ∈ text.toList, isLowerVisible c = true) :
    Text.lowerText (Text.trimSpace text) = text := by
  rw [trimSpace_of_visible fun c member => isVisible_of_isLowerVisible (lower c member),
    lowerText_of_lower lower]

theorem mapM_normalize {ids : List CapabilityID} (valid : ∀ id ∈ ids, validCapabilityID id = true) :
    ids.mapM normalizeCapabilityID = .ok ids := by
  induction ids with
  | nil => rfl
  | cons id ids ih =>
    have first : normalizeCapabilityID id = .ok id := by
      have own := valid id mem_cons_self
      simp [normalizeCapabilityID, lower_trimSpace (capability_lower own), own, reject, bind, Except.bind,
        pure, Except.pure]
    rw [mapM_cons, first, ih fun other member => valid other (mem_cons_of_mem _ member)]
    rfl

theorem parseRequirements_normal {ids : List Requirement} (normal : normalizeRequirementList ids = .ok ids) :
    parseRequirements ids = .ok ids := by
  obtain ⟨valid, same⟩ := normalizeRequirementList_eq_ok.mp normal
  have read : requirements ids = .ok ids := by
    simp only [requirements, mapM_normalize valid, ok_iff]
    refine ⟨ids, rfl, ⟨ids⟩, ?_, rfl⟩
    simp only [capabilitySetFromIDs, ok_iff]
    exact ⟨(), by simpa using valid, by rw [← same]⟩
  simp [parseRequirements, read, orFail, reject, bind, Except.bind, pure, Except.pure]

theorem newResolutionPolicy_normal {policy : ResolutionPolicy} (valid : policy.valid = true) :
    newResolutionPolicy policy.maxTier policy.allowed = .ok policy := by
  simp only [ResolutionPolicy.valid, bool_iff, all_eq_true] at valid
  obtain ⟨⟨⟨⟨low, high⟩, nonempty⟩, within⟩, sorted⟩ := valid
  have order : policy.allowed.Pairwise fun a b => a.text < b.text := by
    have texts := ascending_iff.mp sorted
    rwa [pairwise_map] at texts
  have distinct : policy.allowed.Nodup := order.imp fun less same => by
    subst same
    exact lt_irrefl _ less
  have fixed : policy.allowed.dedup.insertionSort (fun a b => a.text ≤ b.text) = policy.allowed := by
    rw [distinct.dedup]
    exact Pairwise.insertionSort_eq (order.imp fun less => less.le)
  simp only [newResolutionPolicy, ok_iff, bool_iff, any_eq_false, not_lt, fixed]
  exact ⟨(), ⟨⟨⟨low, high⟩, nonempty⟩, within⟩, trivial⟩

theorem alias_lower {inner : Nat} {text : String} (matched : (aliasPattern inner).matchString text = true) :
    ∀ c ∈ text.toList, isLowerVisible c = true := by
  have tail : ∀ c, aliasTail c = true → isLowerVisible c = true := by
    intro c inside
    simp only [aliasTail, bool_iff, beq_iff_eq] at inside
    rcases inside with alnum | rfl
    · exact isLowerVisible_of_isLowerAlnum alnum
    · decide
  simp only [aliasPattern, Pattern.matchString, any_cons, any_nil, Bool.or_false, bool_iff,
    chars_eq_toList] at matched
  rcases matched with long | short
  · refine Pattern.forall_of_matchBlocks ?_ long
    simp only [mem_cons, not_mem_nil, or_false]
    rintro b (rfl | rfl | rfl) c inside
    · exact isLowerVisible_of_isLowerAlnum inside
    · exact tail c inside
    · exact isLowerVisible_of_isLowerAlnum inside
  · refine Pattern.forall_of_matchBlocks ?_ short
    simp only [mem_cons, not_mem_nil, or_false]
    rintro b rfl c inside
    exact isLowerVisible_of_isLowerAlnum inside

theorem parseScope_record {scope : ObjectiveScope} (valid : scope.validOrEmpty = true) :
    parseScope scope.record = .ok scope := by
  have unbound : ObjectiveScope.empty.bound = false := by decide
  have unanchored : WorkspaceAnchor.empty.valid = false := by decide
  simp only [ObjectiveScope.validOrEmpty, bool_iff] at valid
  rcases valid with rfl | bound
  · rw [ObjectiveScope.record, unbound]
    rfl
  obtain ⟨project, target, anchor⟩ := scope
  have matched := bound
  simp only [ObjectiveScope.bound, Bool.and_eq_true] at matched
  obtain ⟨⟨projects, targets⟩, anchors⟩ := matched
  have read : newObjectiveScope project target = .ok ⟨project, target, .empty⟩ := by
    simp [newObjectiveScope, lower_trimSpace (alias_lower projects), lower_trimSpace (alias_lower targets),
      ObjectiveScope.bound, projects, targets, reject, bind, Except.bind, pure, Except.pure]
  simp only [Bool.or_eq_true, decide_eq_true_eq] at anchors
  rw [ObjectiveScope.record, if_pos bound]
  rcases anchors with rfl | anchored
  · simp [parseScope, read, orFail, reject, unanchored, bind, Except.bind, pure, Except.pure]
  · simp [parseScope, read, orFail, reject, anchored, bind, Except.bind, pure, Except.pure]

theorem attempt_record {attempt : ExecutionAttempt} {stepID : String} (owner : attempt.stepID = stepID) :
    attempt.record.attempt stepID = attempt := by
  subst owner
  rfl

theorem parseStep_record {o : Objective} {step : ObjectiveStep} (sound : StepSound o step) :
    parseStep step.record = .ok step := by
  have requirements : parseRequirements step.record.requirements = .ok step.requirements :=
    parseRequirements_normal sound.normal
  have attempts : step.record.attempts.map (fun attempt => attempt.attempt step.record.stepID) =
      step.attempts := by
    change (step.attempts.map ExecutionAttempt.record).map (fun attempt => attempt.attempt step.stepID) = _
    rw [map_map]
    refine (map_congr_left ?_).trans (map_id _)
    intro attempt member
    exact attempt_record (sound.attempts attempt member).owner
  have contract : parseContract step.record.acceptanceContract = .ok step.acceptanceContract := by
    change parseContract step.acceptanceContract = _
    cases bound : step.acceptanceContract with
    | none => rfl
    | some contract =>
      have valid := (sound.contract contract bound).1
      simp only [CommandAcceptanceContract.validFor, bool_iff] at valid
      have normal := sound.normal
      rw [← valid.2] at normal
      simp [parseContract, parseRequirements_normal normal, bind, Except.bind, pure, Except.pure]
  simp only [parseStep, requirements, contract, attempts, bind, Except.bind, pure, Except.pure]
  rfl

theorem mapM_parseStep {o : Objective} {steps : List ObjectiveStep} (sound : ∀ step ∈ steps, StepSound o step) :
    (steps.map ObjectiveStep.record).mapM parseStep = .ok steps := by
  induction steps with
  | nil => rfl
  | cons step steps ih =>
    rw [map_cons, mapM_cons, parseStep_record (sound step mem_cons_self),
      ih fun other member => sound other (mem_cons_of_mem _ member)]
    rfl

theorem marshalRecord_eq_ok {o : Objective} {result : String × String} :
    o.marshalRecord = .ok result ↔ SnapshotSound o ∧ byteLength (encodeRecord o.record) ≠ 0 ∧
      byteLength (encodeRecord o.record) ≤ maxObjectiveRecordBytes ∧
      result = (encodeRecord o.record, objectiveRecordDigest (encodeRecord o.record)) := by
  rw [← valid_iff, Objective.valid, accepted_iff]
  simp only [Objective.marshalRecord, ok_iff, bool_iff, not_lt, gt_iff_lt]
  constructor
  · rintro ⟨u, valid, -, ⟨nonempty, bound⟩, rfl⟩
    exact ⟨⟨u, valid⟩, nonempty, bound, rfl⟩
  · rintro ⟨⟨u, valid⟩, nonempty, bound, rfl⟩
    exact ⟨u, valid, (), ⟨nonempty, bound⟩, rfl⟩

theorem parse_record [RecordDecoder] {o : Objective} (sound : SnapshotSound o)
    (nonempty : byteLength (encodeRecord o.record) ≠ 0)
    (bound : byteLength (encodeRecord o.record) ≤ maxObjectiveRecordBytes)
    (sized : o.record.sized = true) : parseObjectiveRecord (encodeRecord o.record) = .ok o := by
  have policy : newResolutionPolicy o.record.policy.maxTier o.record.policy.allowedClasses = .ok o.policy :=
    newResolutionPolicy_normal sound.policy
  have scope : parseScope o.record.scope = .ok o.scope := parseScope_record sound.scope
  have steps : o.record.steps.mapM parseStep = .ok o.steps := mapM_parseStep sound.steps
  obtain ⟨u, valid⟩ := accepted_iff.mp (valid_iff.mpr sound)
  simp only [parseObjectiveRecord, ok_iff, bool_iff, not_lt, gt_iff_lt, not_not]
  exact ⟨(), ⟨nonempty, bound⟩, o.record, RecordDecoder.faithful o.record sized, o.policy, policy, (), rfl,
    o.scope, scope, o.steps, steps, u, valid, rfl⟩

theorem toOption_eq_some {α : Type} {x : Except String α} {a : α} : x.toOption = some a ↔ x = .ok a := by
  cases x <;> simp [Except.toOption]

theorem objectiveRecordDigest_ne_empty (body : String) : objectiveRecordDigest body ≠ "" := by
  intro empty
  have hashed := payloadDigest_matches (objectiveRecordDigestDomain ++ body)
  rw [objectiveRecordDigest] at empty
  rw [empty] at hashed
  revert hashed
  decide

section

variable [RecordDecoder] {o : Objective} {row : DevelopmentObjectiveRow}

theorem scan_marshals (scanned : scanDevelopmentObjective Objective row = .ok o) :
    o.marshalRecord = .ok (row.recordJSON, row.recordDigest) :=
  toOption_eq_some.mp (scan_identity scanned).2.2.2

theorem scan_row {body digest : String} {created updated : UnixNano} (sized : o.record.sized = true)
    (marshalled : o.marshalRecord = .ok (body, digest)) :
    scanDevelopmentObjective Objective
      ⟨o.objectiveID, o.revision, o.state, digest, body, created, updated⟩ = .ok o := by
  obtain ⟨sound, nonempty, bound, same⟩ := marshalRecord_eq_ok.mp marshalled
  obtain ⟨rfl, rfl⟩ := Prod.mk.inj same
  have digests : recordDigest (encodeRecord o.record) = objectiveRecordDigest (encodeRecord o.record) := by
    simp [recordDigest, nonempty, bound]
  have named : validObjectiveID o.objectiveID = true := by
    rw [validObjectiveID, trimSpace_identity sound.identity]
    exact sound.identity
  have positive : 1 ≤ o.revision := Nat.one_le_iff_ne_zero.mpr sound.revision
  simp only [scanDevelopmentObjective, ok_iff, bool_iff, not_not, not_lt]
  refine ⟨(), ⟨⟨⟨positive, named⟩, objectiveRecordDigest_ne_empty _⟩, digests⟩, o, ?_, (),
    ⟨⟨rfl, rfl⟩, rfl⟩, _, ?_, (), rfl, rfl⟩
  · exact toOption_eq_some.mpr (parse_record sound nonempty bound sized)
  · exact toOption_eq_some.mpr marshalled

end

/-- A body that `MarshalRecord` writes is read back as the objective it is of, and a body that
the store accepts is the record of the objective it returns. -/
theorem record_round_trip [RecordDecoder] :
    (∀ (o : Objective) (body digest : String), o.record.sized = true →
      o.marshalRecord = .ok (body, digest) →
      ∃ o', parseObjectiveRecord body = .ok o' ∧ o' = o ∧ o'.marshalRecord = .ok (body, digest)) ∧
    ∀ (row : DevelopmentObjectiveRow) (o : Objective), scanDevelopmentObjective Objective row = .ok o →
      o.marshalRecord = .ok (row.recordJSON, row.recordDigest) := by
  constructor
  · intro o body digest sized marshalled
    obtain ⟨sound, nonempty, bound, same⟩ := marshalRecord_eq_ok.mp marshalled
    obtain ⟨rfl, rfl⟩ := Prod.mk.inj same
    exact ⟨o, parse_record sound nonempty bound sized, rfl, marshalled⟩
  · intro row o scanned
    exact scan_marshals scanned

@[reducible] noncomputable def inverseDecoder : RecordDecoder where
  decode body := by
    classical
    exact if written : ∃ objective, encodeRecord objective = body then some written.choose else none
  faithful objective _ := by
    have written : ∃ other, encodeRecord other = encodeRecord objective := ⟨objective, rfl⟩
    rw [dif_pos written, encodeRecord_inj.mp written.choose_spec]

theorem sample_marshals : ∃ body digest,
    (sampleObjective 1 .planned [sampleStep "a" [] .planned]).marshalRecord = .ok (body, digest) := by
  refine ⟨_, _, marshalRecord_eq_ok.mpr ⟨valid_iff.mp ?_, ?_, ?_, rfl⟩⟩ <;> decide +kernel

def samplePlan : ProvisionPlan :=
  ⟨1, "builder", "pool", "profile", .l3Sandbox, "", ["git"],
    "sha256:4323341d1d6ca688d32e88041dafa6e7bf1e6e25b39f557e42a0727a380e7f97"⟩

def sampleLate : Objective :=
  { sampleObjective 7 .running
      [{ sampleStep "a" [sampleAttempt "a1" "a" .failed (some .dependencyMissing),
            { sampleAttempt "a2" "a" .running none with
              parentAttemptID := "a1"
              environmentDigest := sampleSource }] .running with
          requirements := ["git"]
          provisioning := [⟨"p1", sampleSource, samplePlan, .succeeded,
            "wj_" ++ String.ofList (replicate 32 '0'), 1, sampleSource, none⟩] }] with
    scope := ⟨"project", "target", .empty⟩ }

theorem sampleLate_marshals : ∃ body digest, sampleLate.marshalRecord = .ok (body, digest) := by
  refine ⟨_, _, marshalRecord_eq_ok.mpr ⟨valid_iff.mp ?_, ?_, ?_, rfl⟩⟩ <;> decide +kernel

theorem record_round_trip_sample : ∃ (_ : RecordDecoder) (row : DevelopmentObjectiveRow),
    parseObjectiveRecord row.recordJSON = .ok sampleLate ∧
      sampleLate.marshalRecord = .ok (row.recordJSON, row.recordDigest) := by
  obtain ⟨body, digest, marshalled⟩ := sampleLate_marshals
  let decoder := inverseDecoder
  have sized : sampleLate.record.sized = true := by
    decide +kernel
  obtain ⟨o', parsed, rfl, -⟩ := record_round_trip.1 _ body digest sized marshalled
  exact ⟨decoder, ⟨_, _, _, digest, body, .ofTime 0, .ofTime 0⟩, parsed,
    record_round_trip.2 _ _ (scan_row sized marshalled)⟩

end Aeontra.Development
