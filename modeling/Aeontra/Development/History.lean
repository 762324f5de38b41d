import Aeontra.Development.RoundTrip
import Aeontra.Library.Log

/-!
The stored revisions of one objective: each extends the one before it, and together they
never rewrite what an earlier one recorded.
-/

namespace Aeontra.Development

open Library Workqueue List

def ProvisionPlan.digestOnly (plan : ProvisionPlan) : ProvisionPlan :=
  ⟨0, "", "", "", .l3Sandbox, "", [], plan.digest⟩

def ProvisioningAttempt.digested (provision : ProvisioningAttempt) : ProvisioningAttempt :=
  { provision with plan := provision.plan.digestOnly }

def ProvisioningAttempt.identity (provision : ProvisioningAttempt) : ProvisioningAttempt :=
  { provision.digested with state := .planned, jobID := "", jobFence := 0, receiptDigest := "", failure := none }

variable {left right : ProvisioningAttempt} {text body digest : String} {after before : ObjectiveStep}
  {o o' : Objective} {s : Store}

theorem sameProvisionAttempt_iff : sameProvisionAttempt left right = true ↔ right.digested = left.digested := by
  obtain ⟨_, _, _, _, _, _, _, _⟩ := left
  obtain ⟨_, _, _, _, _, _, _, _⟩ := right
  simp only [sameProvisionAttempt, ProvisioningAttempt.digested, ProvisionPlan.digestOnly, bool_iff,
    ProvisioningAttempt.mk.injEq, ProvisionPlan.mk.injEq, true_and]
  constructor
  · rintro ⟨⟨⟨⟨⟨⟨⟨rfl, rfl⟩, digest⟩, rfl⟩, rfl⟩, rfl⟩, rfl⟩, rfl⟩
    simp [digest]
  · rintro ⟨rfl, rfl, digest, rfl, rfl, rfl, rfl, rfl⟩
    simp [digest]

theorem identity_of_same (same : sameProvisionAttempt left right = true) : right.identity = left.identity := by
  rw [ProvisioningAttempt.identity, ProvisioningAttempt.identity, sameProvisionAttempt_iff.mp same]

theorem identity_of_revision
    (revision : validProvisionRevision left right = true) : right.identity = left.identity := by
  simp only [validProvisionRevision, bool_iff] at revision
  obtain ⟨⟨⟨⟨-, name⟩, source⟩, digest⟩, -⟩ := revision
  simp [ProvisioningAttempt.identity, ProvisioningAttempt.digested, ProvisionPlan.digestOnly, name, source,
    digest]

theorem validProvisionHistory_grows {before after : List ProvisioningAttempt}
    (history : validProvisionHistory before after = true) :
    Grows ProvisioningAttempt.digested ProvisioningAttempt.identity before after := by
  simp only [validProvisionHistory, bool_iff, all_eq_true] at history
  obtain ⟨⟨⟨longer, -⟩, each⟩, -⟩ := history
  have pair : ∀ (i : Nat) (old : i < before.length), (((before[i], after[i]), i)) ∈ (before.zip after).zipIdx := by
    intro i old
    rw [mem_zipIdx_iff_getElem?, List.getElem?_zip_eq_some]
    simp [old, old.trans_le longer]
  constructor
  · rw [prefix_iff_getElem?]
    intro i place
    rw [length_map, length_dropLast] at place
    have entry := each _ (pair i (by omega))
    rw [if_neg (by simp; omega)] at entry
    rw [List.getElem?_map, List.getElem?_eq_getElem (by omega), Option.map_some, getElem_map,
      getElem_dropLast, sameProvisionAttempt_iff.mp entry]
  · rw [prefix_iff_getElem?]
    intro i place
    rw [length_map] at place
    have entry := each _ (pair i place)
    have kept : after[i].identity = before[i].identity := by
      split at entry
      · exact identity_of_revision entry
      · exact identity_of_same entry
    rw [List.getElem?_map, List.getElem?_eq_getElem (by omega), Option.map_some, getElem_map, kept]

def PlanCollision (left right : ProvisionPlan) : Prop :=
  provisionPlanContent left ≠ provisionPlanContent right ∧
    sha256Hex (provisionPlanContent left) = sha256Hex (provisionPlanContent right)

theorem toList_zeroTerminated (values : List String) :
    (zeroTerminated values).toList = values.flatMap fun value => value.toList ++ ['\x00'] := by
  induction values with
  | nil => rfl
  | cons value values ih =>
    rw [flatMap_cons, ← ih]
    simp [zeroTerminated, String.join_cons]

theorem zeroTerminated_inj : ∀ {left right : List String}, (∀ text ∈ left, '\x00' ∉ text.toList) →
    (∀ text ∈ right, '\x00' ∉ text.toList) → zeroTerminated left = zeroTerminated right → left = right
  | [], [], _, _, _ => rfl
  | [], b :: right, _, _, same => by
      have texts := congrArg String.toList same
      rw [toList_zeroTerminated, toList_zeroTerminated] at texts
      simp at texts
  | a :: left, [], _, _, same => by
      have texts := congrArg String.toList same
      rw [toList_zeroTerminated, toList_zeroTerminated] at texts
      simp at texts
  | a :: left, b :: right, clean, clean', same => by
      have texts := congrArg String.toList same
      rw [toList_zeroTerminated, toList_zeroTerminated, flatMap_cons, flatMap_cons,
        append_assoc, append_assoc] at texts
      have taken : ∀ {text : String} {rest : List Char}, '\x00' ∉ text.toList →
          (text.toList ++ (['\x00'] ++ rest)).takeWhile (fun c => c != '\x00') = text.toList := by
        intro text rest free
        rw [takeWhile_append_of_pos]
        · simp
        intro c member
        rw [bne_iff_ne]
        rintro rfl
        exact free member
      have first : a.toList = b.toList := by
        rw [← taken (clean a mem_cons_self), texts, taken (clean' b mem_cons_self)]
      rw [first] at texts
      have rest := append_cancel_left (append_cancel_left texts)
      rw [← toList_zeroTerminated, ← toList_zeroTerminated] at rest
      rw [String.toList_inj.mp first, zeroTerminated_inj
        (fun text member => clean text (mem_cons_of_mem _ member))
        (fun text member => clean' text (mem_cons_of_mem _ member)) (String.toList_inj.mp rest)]

theorem zero_not_visible (visible : ∀ c ∈ text.toList, isVisible c = true) : '\x00' ∉ text.toList := by
  intro member
  cases visible _ member

theorem provisionIdentity_visible
    (matched : provisionIdentityPattern.matchString text = true) : ∀ c ∈ text.toList, isVisible c = true := by
  rw [provisionIdentityPattern, Pattern.matchString_singleton] at matched
  refine Pattern.forall_of_matchBlocks ?_ matched
  simp only [mem_cons, not_mem_nil, or_false]
  rintro b (rfl | rfl) c inside
  · simp only [bool_iff] at inside
    apply isVisible_of_isLowerVisible
    apply isLowerVisible_of_isLowerAlnum
    simp [isLowerAlnum, inside]
  · simp only [provisionTail, bool_iff, beq_iff_eq] at inside
    rcases inside with ((alnum | rfl) | rfl) | rfl
    · exact isVisible_of_isLowerVisible (isLowerVisible_of_isLowerAlnum alnum)
    all_goals decide

def ProvisionPlan.texts (plan : ProvisionPlan) : List String :=
  [plan.provider, plan.pool, plan.profile, plan.outputClass.text, plan.baseEnvironmentDigest] ++
    plan.capabilities

theorem plan_texts_clean {plan : ProvisionPlan} (valid : plan.valid = true) :
    ∀ text ∈ plan.texts, '\x00' ∉ text.toList := by
  have read : ∃ ids, canonicalCapabilityIDs plan.capabilities = .ok ids := by
    simp only [ProvisionPlan.valid, bool_iff] at valid
    cases canonical : canonicalCapabilityIDs plan.capabilities with
    | ok ids => exact ⟨ids, rfl⟩
    | error e => simp [canonical] at valid
  simp only [ProvisionPlan.valid, bool_iff] at valid
  obtain ⟨⟨⟨⟨⟨⟨-, provider⟩, pool⟩, profile⟩, base⟩, -⟩, -⟩ := valid
  obtain ⟨ids, canonical⟩ := read
  simp only [canonicalCapabilityIDs, capabilitySetFromIDs, ok_iff, any_eq_false, Bool.not_eq_true',
    Bool.not_eq_false] at canonical
  obtain ⟨-, ⟨-, named, -⟩, -⟩ := canonical
  have classes : ∀ c : ExecutionClass, '\x00' ∉ c.text.toList := by
    intro c
    cases c <;> decide
  intro text member
  simp only [ProvisionPlan.texts, cons_append, nil_append, mem_cons] at member
  rcases member with rfl | rfl | rfl | rfl | rfl | member
  · exact zero_not_visible (provisionIdentity_visible provider)
  · exact zero_not_visible (provisionIdentity_visible pool)
  · exact zero_not_visible (provisionIdentity_visible profile)
  · exact classes plan.outputClass
  · rcases base with empty | matched
    · rw [empty]
      simp
    · exact zero_not_visible fun c inside => isVisible_of_isLowerVisible (digest_lower matched c inside)
  · exact zero_not_visible fun c inside =>
      isVisible_of_isLowerVisible (capability_lower (named text member) c inside)

theorem append_left_cancel {lead a b : String} (same : lead ++ a = lead ++ b) : a = b := by
  have texts := congrArg String.toList same
  rw [String.toList_append, String.toList_append] at texts
  exact String.toList_inj.mp (append_cancel_left texts)

theorem plan_eq_or_collision {left right : ProvisionPlan} (valid : left.valid = true)
    (valid' : right.valid = true) (same : right.digest = left.digest) :
    right = left ∨ PlanCollision left right := by
  have own : ∀ {plan : ProvisionPlan}, plan.valid = true → plan.version = provisionPlanVersion ∧
      plan.digest = provisionPlanDigest plan := by
    intro plan sound
    simp only [ProvisionPlan.valid, bool_iff] at sound
    refine ⟨sound.1.1.1.1.1.1, ?_⟩
    have last := sound.2
    split at last
    · simp only [bool_iff] at last
      exact last.2
    · cases last
  by_cases equal : provisionPlanContent left = provisionPlanContent right
  · left
    have texts : left.texts = right.texts := by
      exact zeroTerminated_inj (plan_texts_clean valid) (plan_texts_clean valid') (append_left_cancel equal)
    have versions := (own valid).1.trans (own valid').1.symm
    obtain ⟨_, _, _, _, _, _, _, _⟩ := left
    obtain ⟨_, _, _, _, _, _, _, _⟩ := right
    simp only [ProvisionPlan.texts, cons_append, nil_append, cons.injEq, executionClass_text_inj] at texts
    simp_all
  · right
    refine ⟨equal, ?_⟩
    rw [(own valid).2, (own valid').2] at same
    exact (append_left_cancel same).symm

theorem validAttemptHistory_grows {before after : List ExecutionAttempt}
    (history : validAttemptHistory before after = true) : Grows id ExecutionAttempt.identity before after := by
  unfold validAttemptHistory at history
  split at history
  · simp only [validAttemptAddition, bool_iff] at history
    have whole : after = before ++ after.drop before.length := by
      conv_lhs => rw [← take_append_drop before.length after, history.1]
    rw [whole]
    exact .append before _
  unfold validAttemptChange at history
  split at history
  · rename_i old new latest latest'
    simp only [bool_iff, validAttemptRevision] at history
    obtain ⟨same, identity, -⟩ := history
    obtain ⟨earlier, rfl⟩ := split_last latest
    obtain ⟨earlier', rfl⟩ := split_last latest'
    rw [dropLast_concat, dropLast_concat] at same
    subst same
    exact .revise identity.symm
  · rw [List.isEmpty_iff] at history
    subst history
    exact .append [] after

theorem mem_of_requirementsLeft : ∀ {before after : List Requirement}, requirementsLeft before after = [] →
    ∀ requirement ∈ before, requirement ∈ after
  | _, [], left, requirement, member => by
      rw [requirementsLeft] at left
      subst left
      exact member
  | [], _ :: _, _, _, member => by simp at member
  | first :: before, next :: after, left, requirement, member => by
      rw [requirementsLeft] at left
      split at left
      · rename_i same
        subst same
        rcases mem_cons.mp member with rfl | later
        · exact mem_cons_self
        · exact mem_cons_of_mem _ (mem_of_requirementsLeft left requirement later)
      · exact mem_cons_of_mem _ (mem_of_requirementsLeft left requirement member)

structure StepKept (before after : ObjectiveStep) : Prop where
  name : after.stepID = before.stepID
  contract : after.acceptanceContract = before.acceptanceContract
  requirements : ∀ requirement ∈ before.requirements, requirement ∈ after.requirements
  attempts : Grows id ExecutionAttempt.identity before.attempts after.attempts
  provisions : Grows ProvisioningAttempt.digested ProvisioningAttempt.identity before.provisioning
    after.provisioning

theorem StepKept.refl (step : ObjectiveStep) : StepKept step step :=
  ⟨rfl, rfl, fun _ member => member, .refl _ _ _, .refl _ _ _⟩

theorem StepKept.trans {middle : ObjectiveStep} (first : StepKept before middle)
    (second : StepKept middle after) : StepKept before after where
  name := second.name.trans first.name
  contract := second.contract.trans first.contract
  requirements requirement member := second.requirements requirement (first.requirements requirement member)
  attempts := first.attempts.trans second.attempts
  provisions := first.provisions.trans second.provisions

theorem StepExtends.kept {previous next : ObjectiveState}
    (extends' : StepExtends previous next before after) : StepKept before after where
  name := extends'.name.symm
  contract := extends'.contract.symm
  requirements := mem_of_requirementsLeft (isEmpty_iff.mp extends'.requirements)
  attempts := validAttemptHistory_grows extends'.attempts
  provisions := validProvisionHistory_grows extends'.provisions

structure Kept (before after : Objective) : Prop where
  identity : after.objectiveID = before.objectiveID
  scope : after.scope = before.scope
  policy : after.policy = before.policy
  revision : before.revision ≤ after.revision
  steps : Forall₂ StepKept before.steps after.steps

theorem Kept.refl (o : Objective) : Kept o o :=
  ⟨rfl, rfl, rfl, le_refl _, forall₂_same.mpr fun step _ => .refl step⟩

theorem Kept.trans {before middle after : Objective} (first : Kept before middle)
    (second : Kept middle after) : Kept before after where
  identity := second.identity.trans first.identity
  scope := second.scope.trans first.scope
  policy := second.policy.trans first.policy
  revision := first.revision.trans second.revision
  steps := by
    have compose : ∀ {x y z : List ObjectiveStep}, Forall₂ StepKept x y → Forall₂ StepKept y z →
        Forall₂ StepKept x z := by
      intro x y z left
      induction left generalizing z with
      | nil => exact id
      | cons step _ ih =>
        intro right
        cases right with
        | cons step' rest => exact .cons (step.trans step') (ih rest)
    exact compose first.steps second.steps

theorem Extends.kept {before after : Objective} (extends' : Extends before after)
    (next : after.revision = before.revision + 1) : Kept before after where
  identity := extends'.identity.symm
  scope := extends'.scope.symm
  policy := extends'.policy.symm
  revision := by omega
  steps := forall₂_iff_zip.mpr
    ⟨extends'.count, fun {_ _} member => (extends'.steps _ member).kept⟩

theorem eq_of_record (sound : SnapshotSound o) (sound' : SnapshotSound o')
    (same : o.record = o'.record) : o = o' := by
  have scopes : Except.ok o.scope = (Except.ok o'.scope : Except String _) := by
    rw [← parseScope_record sound.scope, ← parseScope_record sound'.scope]
    exact congrArg (fun record => parseScope record.scope) same
  have steps : Except.ok o.steps = (Except.ok o'.steps : Except String _) := by
    rw [← mapM_parseStep sound.steps, ← mapM_parseStep sound'.steps]
    exact congrArg (fun record => record.steps.mapM parseStep) same
  obtain ⟨version, objectiveID, revision, state, scope, ⟨maxTier, allowed⟩, steps⟩ := o
  obtain ⟨version', objectiveID', revision', state', scope', ⟨maxTier', allowed'⟩, steps'⟩ := o'
  simp only [Objective.record, ObjectiveRecord.mk.injEq, PolicyRecord.mk.injEq] at same
  obtain ⟨rfl, rfl, rfl, rfl, -, ⟨rfl, rfl⟩, -⟩ := same
  cases scopes
  cases steps
  rfl

theorem eq_of_marshalRecord {result : String × String}
    (marshalled : o.marshalRecord = .ok result) (marshalled' : o'.marshalRecord = .ok result) : o = o' := by
  obtain ⟨sound, -, -, rfl⟩ := marshalRecord_eq_ok.mp marshalled
  obtain ⟨sound', -, -, same⟩ := marshalRecord_eq_ok.mp marshalled'
  exact eq_of_record sound sound' (encodeRecord_inj.mp (Prod.mk.inj same).1)

section

variable [RecordDecoder]

def storedObjective (s : Store) (id : String) : Option Objective :=
  match s.db.developmentObjectiveByID Objective id with
  | .ok found => found
  | .error _ => none

variable {o o' : Objective} {s : Store} {calls : List (Call Objective)} {n : Nat}

theorem storedObjective_eq_some {id : String} :
    storedObjective s id = some o ↔ ∃ row ∈ s.db.developmentObjectives, row.objectiveID = id ∧
      scanDevelopmentObjective Objective row = .ok o := by
  rw [← developmentObjectiveByID_eq_some, storedObjective]
  cases s.db.developmentObjectiveByID Objective id <;> simp

theorem stored_step {call : Call Objective} {id : String}
    (before : storedObjective s id = some o) (after : storedObjective (s.exec call).2 id = some o') :
    o' = o ∨ o'.revision = o.revision + 1 ∧ Extends o o' := by
  obtain ⟨row, member, named, scanned⟩ := storedObjective_eq_some.mp before
  obtain ⟨row', member', named', scanned'⟩ := storedObjective_eq_some.mp after
  have unchanged : row' ∈ s.db.developmentObjectives → o' = o := by
    intro old
    have same := Table.eq_of_key old member (named'.trans named.symm)
    rw [same, scanned] at scanned'
    exact (Except.ok.inj scanned').symm
  rcases exec_objective_cases s call with same | ⟨objective, now, rfl, creates | ⟨old, revises⟩⟩
  · rw [same] at member'
    exact .inl (unchanged member')
  · obtain ⟨body, digest, pruned, -, prune, inserted⟩ := creates.rows
    rcases (Table.mem_insert inserted).mp member' with kept | new
    · exact .inl (unchanged ((prune_rows prune).1 row' kept))
    · have identity : row.objectiveID = ObjectiveRecords.objectiveID objective := by
        rw [named, ← named', new]
      exact absurd identity (creates.absent row member)
  obtain ⟨first, body, digest, scannedFirst, identity, marshalled, replaced⟩ := revises.rows
  rcases replaced.mem_or_eq member' with kept | new
  · exact .inl (unchanged kept)
  right
  have own : row = first := by
    apply Table.eq_of_key member replaced.old_mem
    rw [named, ← named', new]
  rw [own, scannedFirst] at scanned
  cases scanned
  have record := scan_marshals scanned'
  rw [new] at record
  have next : o' = objective := eq_of_marshalRecord record (toOption_eq_some.mp marshalled)
  subst next
  refine ⟨revises.next, ?_⟩
  obtain ⟨u, legal⟩ := accepted_iff.mp revises.legal
  exact validateTransition_eq_ok.mp legal

theorem run_take_succ (inside : n < calls.length) :
    s.run (calls.take (n + 1)) = ((s.run (calls.take n)).exec calls[n]).2 := by
  rw [take_succ_eq_append_getElem inside, run_append]
  rfl

theorem stored_kept {id : String} {k : Nat} (inside : n + k ≤ calls.length)
    (present : ∀ i ≤ k, (storedObjective (s.run (calls.take (n + i))) id).isSome = true)
    (first : storedObjective (s.run (calls.take n)) id = some o)
    (last : storedObjective (s.run (calls.take (n + k))) id = some o') :
    Kept o o' ∧ (o.terminal = true → o' = o) := by
  induction k generalizing o' with
  | zero =>
    have same : o' = o := Option.some.inj (last.symm.trans first)
    subst same
    exact ⟨.refl o', fun _ => rfl⟩
  | succ k ih =>
    obtain ⟨middle, held⟩ := Option.isSome_iff_exists.mp (present k (Nat.le_succ k))
    obtain ⟨kept, settled⟩ := ih (by omega) (fun i bound => present i (by omega)) held
    rw [← Nat.add_assoc, run_take_succ (by omega)] at last
    rcases stored_step held last with rfl | ⟨next, extends'⟩
    · exact ⟨kept, settled⟩
    refine ⟨kept.trans (extends'.kept next), ?_⟩
    intro ended
    have live := extends'.live
    rw [settled ended, ended] at live
    cases live

end

structure StepHistory (before after : ObjectiveStep) : Prop where
  name : after.stepID = before.stepID
  contract : after.acceptanceContract = before.acceptanceContract
  requirements : ∀ requirement ∈ before.requirements, requirement ∈ after.requirements
  attempts : before.attempts.dropLast <+: after.attempts
  attemptIdentities :
    before.attempts.map ExecutionAttempt.identity <+: after.attempts.map ExecutionAttempt.identity
  count : before.provisioning.length ≤ after.provisioning.length
  provisions : ∀ (i : Nat) (p q : ProvisioningAttempt), i + 1 < before.provisioning.length →
    before.provisioning[i]? = some p → after.provisioning[i]? = some q →
      q = p ∨ q = { p with plan := q.plan } ∧ PlanCollision p.plan q.plan
  provisionIdentities : ∀ (i : Nat) (p q : ProvisioningAttempt), before.provisioning[i]? = some p →
    after.provisioning[i]? = some q → q.provisionID = p.provisionID ∧ q.sourceDigest = p.sourceDigest ∧
      (q.plan = p.plan ∨ PlanCollision p.plan q.plan)

theorem StepKept.history (kept : StepKept before after)
    (valid : ∀ provision ∈ before.provisioning, provision.plan.valid = true)
    (valid' : ∀ provision ∈ after.provisioning, provision.plan.valid = true) : StepHistory before after := by
  have plans : ∀ {i : Nat} {p q : ProvisioningAttempt}, before.provisioning[i]? = some p →
      after.provisioning[i]? = some q → q.plan.digest = p.plan.digest →
      q.plan = p.plan ∨ PlanCollision p.plan q.plan := by
    intro i p q old new same
    exact plan_eq_or_collision (valid p (mem_of_getElem? old)) (valid' q (mem_of_getElem? new)) same
  refine ⟨kept.name, kept.contract, kept.requirements, by simpa using kept.attempts.settled,
    kept.attempts.named, kept.provisions.length_le, ?_, ?_⟩
  · intro i p q earlier old new
    have same := kept.provisions.view_eq earlier old new
    have digest : q.plan.digest = p.plan.digest := by
      have plans := congrArg (fun provision : ProvisioningAttempt => provision.plan.digest) same
      exact plans
    have rest : q = { p with plan := q.plan } := by
      obtain ⟨_, _, _, _, _, _, _, _⟩ := p
      obtain ⟨_, _, _, _, _, _, _, _⟩ := q
      simp only [ProvisioningAttempt.digested, ProvisioningAttempt.mk.injEq] at same ⊢
      exact ⟨same.1, same.2.1, trivial, same.2.2.2⟩
    rcases plans old new digest with equal | collision
    · left
      rw [rest, equal]
    · exact .inr ⟨rest, collision⟩
  · intro i p q old new
    have same := kept.provisions.identity_eq old new
    have fields := ProvisioningAttempt.mk.inj same
    have digest : q.plan.digest = p.plan.digest := by
      have plans := congrArg (fun provision : ProvisioningAttempt => provision.plan.digest) same
      exact plans
    exact ⟨fields.1, fields.2.1, plans old new digest⟩

theorem stored_next [RecordDecoder] {id : String} {now : UnixNano}
    (stored : storedObjective s id = some o) (sized : o'.record.sized = true)
    (marshalled : o'.marshalRecord = .ok (body, digest)) (next : o'.revision = o.revision + 1)
    (legal : validateTransition o o' = .ok ()) :
    storedObjective (s.exec (.saveDevelopmentObjective o' now : Call Objective)).2 id = some o' := by
  obtain ⟨row, member, named, scanned⟩ := storedObjective_eq_some.mp stored
  have extends' := validateTransition_eq_ok.mp legal
  have identity : row.objectiveID = o'.objectiveID := by
    rw [← extends'.identity]
    exact (scan_identity scanned).1.symm
  have hashed : row.recordDigest ≠ "" := by
    obtain ⟨-, -, -, same⟩ := marshalRecord_eq_ok.mp (scan_marshals scanned)
    rw [(Prod.mk.inj same).2]
    exact objectiveRecordDigest_ne_empty _
  have record : ObjectiveRecords.marshalRecord o' = some (body, digest) := toOption_eq_some.mpr marshalled
  have accepts : ObjectiveRecords.validateTransition o o' = true := by
    change accepted (validateTransition o o') = true
    rw [legal]
    rfl
  let db' := s.db.reviseObjective o' o.revision row.recordDigest body digest now
  have run : saveDevelopmentObjectiveTx o' now s.db = .ok (.ok (o', false), db') :=
    saveDevelopmentObjectiveTx_next extends'.valid' record member identity scanned hashed next accepts
  have revises : RevisesObjective o' o now s.db db' :=
    reviseObjective_revises extends'.valid' record member identity scanned next accepts
  obtain ⟨first, body', digest', -, namedFirst, record', replaced⟩ := revises.rows
  have same : (body', digest') = (body, digest) := Option.some.inj (record'.symm.trans record)
  obtain ⟨rfl, rfl⟩ := Prod.mk.inj same
  have after : (s.exec (.saveDevelopmentObjective o' now : Call Objective)).2.db = db' := by
    simp only [Store.exec, reply, Store.saveDevelopmentObjective, Store.transact, run]
  rw [storedObjective_eq_some, after]
  refine ⟨_, replaced.new_mem, namedFirst.trans (identity.symm.trans named), ?_⟩
  rw [show first.objectiveID = o'.objectiveID from namedFirst]
  exact scan_row sized marshalled

theorem stored_sound [RecordDecoder] {id : String}
    (stored : storedObjective s id = some o) : SnapshotSound o := by
  obtain ⟨row, -, -, scanned⟩ := storedObjective_eq_some.mp stored
  exact (marshalRecord_eq_ok.mp (scan_marshals scanned)).1

theorem plans_valid (sound : SnapshotSound o) : ∀ step ∈ o.steps,
    ∀ provision ∈ step.provisioning, provision.plan.valid = true := by
  intro step member provision inside
  have valid := ((sound.steps step member).provisions provision inside).valid
  simp only [ProvisioningAttempt.valid, bool_iff] at valid
  exact valid.1.2

/-- The objective `o` is stored at the beginning of a run, `o'` at its end, and the objective is never
missing in between: `o'` continues the history of `o`. -/
theorem stored_history [RecordDecoder] {s : Store} {calls : List (Call Objective)} {id : String}
    (present : ∀ n ≤ calls.length, (storedObjective (s.run (calls.take n)) id).isSome = true)
    {o o' : Objective} (first : storedObjective s id = some o)
    (last : storedObjective (s.run calls) id = some o') :
    (o'.objectiveID = o.objectiveID ∧ o'.scope = o.scope ∧ o'.policy = o.policy ∧
      Forall₂ StepHistory o.steps o'.steps) ∧
    (∀ (call : Call Objective) next, storedObjective (s.run [call]) id = some next →
      next = o ∨ next.revision = o.revision + 1) ∧
    o.revision ≤ o'.revision ∧ (o.terminal = true → o' = o) := by
  have all : calls.take (0 + calls.length) = calls := by rw [Nat.zero_add, take_length]
  have whole : 0 + calls.length ≤ calls.length := by omega
  obtain ⟨kept, settled⟩ := stored_kept whole
    (fun n inside => by rw [Nat.zero_add]; exact present n inside) first (by rw [all]; exact last)
  refine ⟨⟨kept.identity, kept.scope, kept.policy, ?_⟩, ?_, kept.revision, settled⟩
  · have steps := forall₂_iff_zip.mp kept.steps
    refine forall₂_iff_zip.mpr ⟨steps.1, fun {before after} member => ?_⟩
    obtain ⟨left, right⟩ := of_mem_zip member
    exact (steps.2 member).history (plans_valid (stored_sound first) before left)
      (plans_valid (stored_sound last) after right)
  · intro call next stored
    rcases stored_step first stored with same | ⟨raised, -⟩
    · exact .inl same
    · exact .inr raised

theorem exists_stored [RecordDecoder] (sized : o.record.sized = true)
    (marshalled : o.marshalRecord = .ok (body, digest)) : ∃ s, storedObjective s o.objectiveID = some o := by
  let row : DevelopmentObjectiveRow := ⟨o.objectiveID, o.revision, o.state, digest, body, .ofTime 0, .ofTime 0⟩
  refine ⟨⟨smallConfig, smallConfig_valid,
    { DB.empty with developmentObjectives := ⟨[row], by simp, by simp⟩ }, initialFair⟩, ?_⟩
  rw [storedObjective_eq_some]
  exact ⟨row, mem_singleton.mpr rfl, rfl, scan_row sized marshalled⟩

theorem sample_next_marshals : ∃ body digest, (sampleObjective 2 .running
    [sampleStep "a" [sampleAttempt "a1" "a" .planned none] .planned]).marshalRecord = .ok (body, digest) := by
  refine ⟨_, _, marshalRecord_eq_ok.mpr ⟨valid_iff.mp ?_, ?_, ?_, rfl⟩⟩ <;> decide +kernel

theorem sample_next_legal : validateTransition (sampleObjective 1 .planned [sampleStep "a" [] .planned])
    (sampleObjective 2 .running [sampleStep "a" [sampleAttempt "a1" "a" .planned none] .planned]) = .ok () := by
  decide

/-- The sample is stored, and its first attempt is planned. -/
theorem stored_history_sample : ∃ (_ : RecordDecoder) (s : Store) (call : Call Objective) (id : String)
    (o o' : Objective), storedObjective s id = some o ∧ storedObjective (s.run [call]) id = some o' ∧
      (o' = o ∨ o'.revision = o.revision + 1) ∧ Forall₂ StepHistory o.steps o'.steps := by
  obtain ⟨decoder⟩ : Nonempty RecordDecoder := ⟨inverseDecoder⟩
  obtain ⟨body, digest, marshalled⟩ := sample_marshals
  obtain ⟨body', digest', marshalled'⟩ := sample_next_marshals
  obtain ⟨s, first⟩ := exists_stored (by decide) marshalled
  have sized : (sampleObjective 2 .running
      [sampleStep "a" [sampleAttempt "a1" "a" .planned none] .planned]).record.sized = true := by
    decide
  have last : storedObjective (s.run [.saveDevelopmentObjective _ (.ofTime 0)]) _ = some _ :=
    stored_next first sized marshalled' rfl sample_next_legal
  refine ⟨decoder, s, _, _, _, _, first, last, ?_⟩
  have history := stored_history ?_ first last
  · exact ⟨history.2.1 _ _ last, history.1.2.2.2⟩
  intro n inside
  rcases Nat.le_one_iff_eq_zero_or_eq_one.mp inside with rfl | rfl
  · exact Option.isSome_iff_exists.mpr ⟨_, first⟩
  · exact Option.isSome_iff_exists.mpr ⟨_, last⟩

end Aeontra.Development
