import Aeontra.Catalogrollout.Runner

/-!
What the calls of a rollout ensure under any rules, and what a compensation ensures when its
parts do.
-/

namespace Aeontra.Catalogrollout

open Library Process

/-- Neither the journal nor the platform is changed by the call. -/
def Call.Quiet : Call → Prop
  | .advance _ | .mutate _ => False
  | _ => True

/-- The rules hold, and they allow all that changes nothing. -/
structure Calm (rules : Rules Call World Choice) (w : World) : Prop where
  held : rules.holds w
  quiet : ∀ call : Call, call.Quiet → rules.allows ⟨call, w, w⟩

section

variable {rules : Rules Call World Choice} {w : World} {next : Status} {mutation : Mutation}

section

variable (calm : Calm rules w)

include calm

theorem ensures_still (call : Call) (quiet : call.Quiet) :
    (perform call : Program call.Answer).Ensures environment rules
      (fun answer after => after = w ∧ ∃ choice, rules.may call choice w ∧ answer = (react call choice w).1) w := by
  refine ensures_quiet (fun choice => ?_) calm.held (calm.quiet call quiet)
  cases call with
  | advance => exact quiet.elim
  | mutate => exact quiet.elim
  | readJournal =>
    simp only [environment, react]
    split
    · rfl
    · rfl
  | _ => rfl

theorem ensures_contextDone : contextDone.Ensures environment rules (fun _ after => after = w) w :=
  (ensures_still calm .cancelled trivial).mono fun _ _ seen => seen.1

theorem ensures_verifyBackend (candidate : Identity) :
    (verifyBackend candidate).Ensures environment rules (fun _ after => after = w) w :=
  (ensures_still calm (.verify candidate) trivial).mono fun _ _ seen => seen.1

theorem ensures_publishStatus (status : Status) :
    (publishStatus status).Ensures environment rules (fun _ after => after = w) w :=
  (ensures_still calm (.publish status) trivial).mono fun _ _ seen => seen.1

theorem ensures_observe :
    observe.Ensures environment rules (fun answer after => after = w ∧
      (answer = none → ∃ choice, rules.may .observe choice w ∧ choice.reported = false) ∧
      ∀ o, answer = some o → o = w.platform) w := by
  refine (ensures_still calm .observe trivial).mono ?_
  rintro answer after ⟨same, choice, permitted, rfl⟩
  refine ⟨same, ?_⟩
  simp only [react]
  cases reported : choice.reported with
  | true => simp
  | false => exact ⟨fun _ => ⟨choice, permitted, reported⟩, by simp⟩

theorem ensures_readJournal :
    readJournal.Ensures environment rules
      (fun answer after => after = w ∧ ∀ status, answer = some status → status = w.journal) w := by
  refine (ensures_still calm .readJournal trivial).mono ?_
  rintro answer after ⟨same, choice, -, rfl⟩
  refine ⟨same, fun status read => ?_⟩
  simp only [react] at read
  split at read
  · split at read
    · exact (Option.some.inj read).symm
    · cases read
  · cases read

end

structure Offered (w : World) (next : Status) (choice : Choice) (outcome : Outcome) (after : World) : Prop where
  state : after = (advance next choice w).2
  written : ∀ status, (advance next choice w).1 = some status → outcome.1 = status
  refused : (advance next choice w).1 = none → outcome.2 ≠ none

theorem ensures_persist (held : rules.holds w)
    (allowed : ∀ choice, rules.may (.advance next) choice w →
      rules.allows ⟨.advance next, w, (advance next choice w).2⟩ ∧ Calm rules (advance next choice w).2) :
    (persist next).Ensures environment rules
      (fun outcome after => ∃ choice, rules.may (.advance next) choice w ∧ Offered w next choice outcome after) w := by
  refine ensures_via (fun answer after => Calm rules after ∧ ∃ choice, rules.may (.advance next) choice w ∧
    answer = (advance next choice w).1 ∧ after = (advance next choice w).2) ?_ ?_
  · refine ensures_perform held fun choice permitted => ?_
    obtain ⟨allows, calm⟩ := allowed choice permitted
    exact ⟨allows, calm, choice, permitted, rfl, rfl⟩
  · rintro answer after ⟨calm, choice, permitted, answered, rfl⟩
    cases answer with
    | none => exact ensures_pure ⟨choice, permitted, rfl, by simp [← answered], by simp⟩
    | some status =>
      refine (ensures_publishStatus calm status).bind fun published later same => ?_
      subst same
      split
      · exact ensures_pure ⟨choice, permitted, rfl, by simp [← answered], by simp [← answered]⟩
      · exact ensures_pure ⟨choice, permitted, rfl, by simp [← answered], by simp⟩

theorem ensures_mutate (held : rules.holds w) (failed : rules.allows ⟨.mutate mutation, w, w⟩)
    (applied : rules.allows ⟨.mutate mutation, w, { w with platform := mutation.apply w.platform }⟩) :
    (mutate mutation).Ensures environment rules
      (fun answer after => ∃ choice, rules.may (.mutate mutation) choice w ∧ answer.2 = choice.reported ∧
        after = if choice.applied then { w with platform := mutation.apply w.platform } else w) w := by
  refine ensures_perform held fun choice permitted => ⟨?_, choice, permitted, rfl, rfl⟩
  change rules.allows ⟨.mutate mutation, w,
    if choice.applied then { w with platform := mutation.apply w.platform } else w⟩
  split
  · exact applied
  · exact failed

end

/-- A condition on the world and one on the status, which the parts of a compensation keep, and what they
ensure once it has ended. -/
structure Compensates (rules : Rules Call World Choice) (q : Request) (keeps : World → Prop)
    (handed : Status → Prop) (ended : World → Prop) : Prop where
  calm : ∀ {w}, keeps w → Calm rules w
  persist : ∀ {w} phase deploymentID reason, keeps w →
    (persist (compensatingStatus q phase deploymentID reason)).Ensures environment rules
      (fun outcome after => after.platform = w.platform ∧ keeps after ∧ handed outcome.1) w
  backend : ∀ {w}, keeps w →
    (mutate (.rollbackBackend q.previous)).Ensures environment rules (fun _ after => keeps after) w
  front : ∀ {w}, keeps w → w.platform.backend = q.previous →
    (mutate (.rollbackFront q.previous)).Ensures environment rules (fun _ after => keeps after) w
  named : ∀ {status} deploymentID, handed status → handed (withDeployment status deploymentID)
  fails : ∀ {w status} reason, keeps w → handed status →
    (Catalogrollout.persist { status with state := .failed, phase := .complete, reason := reason }).Ensures
      environment rules (fun _ after => ended after) w

namespace Compensates

variable {rules : Rules Call World Choice} {q : Request} {keeps ended : World → Prop} {handed : Status → Prop}

variable {w : World} {reason failureDeploymentID : String} {status : Status}

variable (parts : Compensates rules q keeps handed ended) (kept : keeps w)

include parts kept

theorem fail (sound : handed status) :
    (fail status reason).Ensures environment rules (fun _ after => ended after) w := by
  refine (parts.fails reason kept sound).bind fun outcome after done => ?_
  split
  · exact ensures_pure done
  · exact ensures_pure done

theorem compensateFront {observation : Observation} (seen : observation = w.platform) (sound : handed status) :
    (compensateFront q reason failureDeploymentID status observation).Ensures environment rules
      (fun _ after => ended after) w := by
  unfold Catalogrollout.compensateFront
  split
  · exact parts.fail kept sound
  next restored =>
  split
  · exact parts.fail kept (parts.named _ sound)
  refine (parts.persist _ _ _ kept).bind ?_
  rintro first after ⟨platform, kept, sound⟩
  have previous : after.platform.backend = q.previous := by
    rw [platform, ← seen]
    exact not_not.mp restored
  refine (parts.front kept previous).bind fun rollback after kept => ?_
  split
  · refine (parts.persist _ _ _ kept).bind ?_
    rintro persisted after ⟨-, kept, sound⟩
    refine (ensures_observe (parts.calm kept)).bind ?_
    rintro observed _ ⟨rfl, -⟩
    cases observed with
    | none => exact parts.fail kept sound
    | some final =>
      dsimp only
      split
      · exact parts.fail kept sound
      · exact parts.fail kept (parts.named _ sound)
  · exact parts.fail kept (parts.named _ sound)

theorem compensateBackend :
    (compensateBackend q reason failureDeploymentID).Ensures environment rules (fun _ after => ended after) w := by
  refine (parts.persist _ _ _ kept).bind ?_
  rintro first after ⟨-, kept, sound⟩
  refine (parts.backend kept).bind fun rollback after kept => ?_
  split
  · refine (parts.persist _ _ _ kept).bind ?_
    rintro persisted after ⟨-, kept, sound⟩
    refine (ensures_observe (parts.calm kept)).bind ?_
    rintro observed _ ⟨rfl, -, seen⟩
    cases observed with
    | none => exact parts.fail kept sound
    | some observation => exact parts.compensateFront kept (seen observation rfl) sound
  · exact parts.fail kept (parts.named _ sound)

theorem compensate :
    (compensate q status reason).Ensures environment rules (fun _ after => ended after) w := by
  refine (parts.persist _ _ _ kept).bind ?_
  rintro persisted after ⟨-, kept, sound⟩
  split
  · exact parts.compensateBackend kept
  refine (ensures_observe (parts.calm kept)).bind ?_
  rintro observed _ ⟨rfl, -, seen⟩
  cases observed with
  | none => exact parts.fail kept sound
  | some observation =>
    dsimp only
    split
    · exact parts.compensateBackend kept
    · exact parts.compensateFront kept (seen observation rfl) sound

theorem giveUp (stopped : ended w) :
    (giveUp q status reason).Ensures environment rules (fun _ after => ended after) w := by
  refine (ensures_contextDone (parts.calm kept)).bind fun done after same => ?_
  subst same
  split
  · exact ensures_pure stopped
  · exact parts.compensate kept

end Compensates

end Aeontra.Catalogrollout
