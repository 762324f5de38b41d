import Aeontra.Catalogrollout.Calls

/-!
When a catalog rollout keeps the running backend admitted by the front door.

The rollout walks through four platforms, from the previous backend behind its own catalog to the
candidate behind its own.  Compensation moves the backend before the front door, which is safe
from the first three and not from the last.
-/

namespace Aeontra.Catalogrollout

open Library Process Mutation

/-- The catalog of the running backend is one the front door admits. -/
def Observation.Compatible (o : Observation) : Prop :=
  o.backend.catalogHash = o.front.primary ∨ o.backend.catalogHash = o.front.transition

instance (o : Observation) : Decidable o.Compatible := by
  unfold Observation.Compatible
  infer_instance

inductive Stage
  | old
  | prepared
  | switched
  | new
  deriving DecidableEq

def Stage.platform (q : Request) : Stage → Observation
  | .old => ⟨q.previous, ⟨q.previous.catalogHash, ""⟩⟩
  | .prepared => ⟨q.previous, ⟨q.candidate.catalogHash, q.previous.catalogHash⟩⟩
  | .switched => ⟨q.candidate, ⟨q.candidate.catalogHash, q.previous.catalogHash⟩⟩
  | .new => ⟨q.candidate, ⟨q.candidate.catalogHash, ""⟩⟩

theorem Stage.compatible (q : Request) (stage : Stage) : (stage.platform q).Compatible := by
  cases stage with
  | old => exact .inl rfl
  | prepared => exact .inr rfl
  | switched => exact .inl rfl
  | new => exact .inl rfl

def Request.Changes (q : Request) : Prop := q.candidate.catalogHash ≠ q.previous.catalogHash

def Finalizing (q : Request) (status : Status) : Prop :=
  (status.phase = .finalizeFront ∨ status.phase = .complete) ∧ status.request.requestID = q.requestID

/-- The platform is at a stage, and one that cannot be undone is only met while the journal
says so. -/
def Sound (q : Request) (w : World) : Prop :=
  ∃ stage : Stage, w.platform = stage.platform q ∧ (stage = .new → q.Changes → Finalizing q w.journal)

/-- The platform is at a stage from which compensation is safe. -/
def Behind (q : Request) (o : Observation) : Prop :=
  ∃ stage : Stage, o = stage.platform q ∧ (stage = .new → ¬ q.Changes)

def Mutation.Forward : Mutation → Prop
  | .prepareFront _ _ | .deployBackend _ | .finalizeFront _ => True
  | .rollbackBackend _ | .rollbackFront _ => False

/-- The platform reports no forward mutation that it did not apply, applies no finalisation that it reports
as failed, and can be observed once the front door is finalised. -/
def Reliable (q : Request) (call : Call) (choice : Choice) (w : World) : Prop :=
  q.Changes →
    match call with
    | .mutate (.finalizeFront _) => choice.reported = choice.applied
    | .mutate mutation => mutation.Forward → choice.reported = true → choice.applied = true
    | .observe => w.platform = Stage.new.platform q → choice.reported = true
    | _ => True

def rules (q : Request) : Rules Call World Choice where
  may := Reliable q
  holds := Sound q
  allows := fun e => Sound q e.before ∧ Sound q e.after

abbrev Safe {α : Type} (q : Request) (p : Program α) (w : World) : Prop :=
  p.Ensures environment (rules q) (fun _ after => Sound q after) w

section

variable {q : Request}

theorem validate_candidate (valid : q.validate = .ok ()) : q.candidate.validate = .ok () := by
  unfold Request.validate at valid
  simp only [ok_iff] at valid
  obtain ⟨_, -, _, -, _, checked, -⟩ := valid
  exact checked

theorem catalogHash_ne_empty {i : Identity} (valid : i.validate = .ok ()) : i.catalogHash ≠ "" := by
  intro empty
  unfold Identity.validate at valid
  simp only [ok_iff, empty] at valid
  obtain ⟨_, -, _, -, _, -, hash⟩ := valid
  exact absurd hash (by decide)

theorem validateObservation_new (valid : q.validate = .ok ()) :
    validateObservation (Stage.new.platform q) q = .ok () := by
  have written := catalogHash_ne_empty (validate_candidate valid)
  unfold validateObservation
  simp [Stage.platform, validate_candidate valid, written, reject]

end

section

variable {q : Request} {w : World}

theorem Behind.sound {o : Observation} (behind : Behind q o) (journal : Status) : Sound q ⟨o, journal⟩ := by
  obtain ⟨stage, same, early⟩ := behind
  exact ⟨stage, same, fun last changes => absurd changes (early last)⟩

theorem Behind.sound_self (behind : Behind q w.platform) : Sound q w := behind.sound w.journal

theorem Sound.calm (sound : Sound q w) : Calm (rules q) w := ⟨sound, fun _ _ => ⟨sound, sound⟩⟩

theorem ensures_observe_sound (sound : Sound q w) :
    observe.Ensures environment (rules q)
      (fun answer after => after = w ∧ (answer = none → Behind q w.platform) ∧
        ∀ o, answer = some o → o = w.platform) w := by
  refine (ensures_observe sound.calm).mono ?_
  rintro answer after ⟨same, failed, seen⟩
  refine ⟨same, fun unseen => ?_, seen⟩
  obtain ⟨choice, reliable, silent⟩ := failed unseen
  obtain ⟨stage, at_stage, -⟩ := sound
  refine ⟨stage, at_stage, ?_⟩
  rintro rfl changes
  exact absurd (silent.symm.trans (reliable changes at_stage)) (by decide)

theorem advance_cases (next : Status) (choice : Choice) (w : World) :
    advance next choice w = (none, w) ∨ advance next choice w =
      (some (stamp w.journal next choice.now), { w with journal := stamp w.journal next choice.now }) := by
  unfold advance
  split
  · split
    · exact .inr rfl
    · exact .inl rfl
  · exact .inl rfl

structure Persisted (w : World) (next : Status) (outcome : Outcome) (after : World) : Prop where
  platform : after.platform = w.platform
  journal : after.journal = w.journal ∨ ∃ now, after.journal = stamp w.journal next now
  returned : outcome.2 = none → outcome.1 = after.journal ∧ ∃ now, after.journal = stamp w.journal next now

variable {next : Status}

theorem ensures_persist_sound (sound : Sound q w)
    (fits : ∀ now, Sound q { w with journal := stamp w.journal next now }) :
    (persist next).Ensures environment (rules q) (Persisted w next) w := by
  refine (ensures_persist sound fun choice _ => ?_).mono ?_
  · rcases advance_cases next choice w with same | same
    · rw [same]
      exact ⟨⟨sound, sound⟩, sound.calm⟩
    · rw [same]
      exact ⟨⟨sound, fits _⟩, Sound.calm (fits _)⟩
  · rintro outcome after ⟨choice, -, offered⟩
    obtain ⟨rfl, written, refused⟩ := offered
    rcases advance_cases next choice w with same | same
    · rw [same] at refused ⊢
      exact ⟨rfl, .inl rfl, fun none => absurd none (refused rfl)⟩
    · rw [same] at written ⊢
      exact ⟨rfl, .inr ⟨_, rfl⟩, fun _ => ⟨written _ rfl, _, rfl⟩⟩

theorem ensures_mutate_sound {mutation : Mutation} (sound : Sound q w)
    (applied : Sound q { w with platform := mutation.apply w.platform }) :
    (mutate mutation).Ensures environment (rules q)
      (fun answer after => ∃ choice, Reliable q (.mutate mutation) choice w ∧ answer.2 = choice.reported ∧
        after = if choice.applied then { w with platform := mutation.apply w.platform } else w) w :=
  ensures_mutate sound ⟨sound, sound⟩ ⟨sound, applied⟩

theorem ensures_persist_behind (behind : Behind q w.platform) :
    (persist next).Ensures environment (rules q)
      (fun outcome after => Persisted w next outcome after ∧ Behind q after.platform) w := by
  refine (ensures_persist_sound behind.sound_self fun now => behind.sound _).mono fun outcome after persisted => ?_
  rw [persisted.platform]
  exact ⟨persisted, behind⟩

end

section

variable {q : Request} {w : World}

variable {o : Observation} {reason failureDeploymentID : String} {status : Status}

theorem Behind.rollbackBackend (behind : Behind q o) : Behind q ((rollbackBackend q.previous).apply o) := by
  obtain ⟨stage, rfl, early⟩ := behind
  cases stage with
  | old => exact ⟨.old, rfl, by simp⟩
  | prepared => exact ⟨.prepared, rfl, by simp⟩
  | switched => exact ⟨.prepared, rfl, by simp⟩
  | new =>
    have same : q.candidate.catalogHash = q.previous.catalogHash := not_not.mp (early rfl)
    refine ⟨.old, ?_, by simp⟩
    simp only [apply, Stage.platform, same]

theorem behind_rollbackFront (restored : o.backend = q.previous) :
    Behind q ((rollbackFront q.previous).apply o) := by
  refine ⟨.old, ?_, by simp⟩
  simp only [apply, Stage.platform, restored]

theorem ensures_mutate_behind {mutation : Mutation} (behind : Behind q w.platform)
    (applied : Behind q (mutation.apply w.platform)) :
    (mutate mutation).Ensures environment (rules q) (fun _ after => Behind q after.platform) w := by
  refine (ensures_mutate_sound behind.sound_self (applied.sound _)).mono ?_
  rintro _ after ⟨choice, -, -, rfl⟩
  split
  · exact applied
  · exact behind

theorem compensates : Compensates (rules q) q (fun w => Behind q w.platform) (fun _ => True) (Sound q) where
  calm behind := behind.sound_self.calm
  persist _ _ _ behind := (ensures_persist_behind behind).mono fun _ _ persisted =>
    ⟨persisted.1.platform, persisted.2, trivial⟩
  backend behind := ensures_mutate_behind behind behind.rollbackBackend
  front behind restored := ensures_mutate_behind behind (behind_rollbackFront restored)
  named _ _ := trivial
  fails _ behind _ := (ensures_persist_behind behind).mono fun _ _ persisted => persisted.2.sound_self

theorem ensures_giveUp (behind : Behind q w.platform) : Safe q (giveUp q status reason) w :=
  compensates.giveUp behind behind.sound_self

end

section

variable {q : Request} {w : World}

def remaining : Stage → Phase → Nat
  | .old, _ => 5
  | .prepared, _ => 4
  | .switched, phase => if phase = .finalizeFront ∨ phase = .complete then 2 else 3
  | .new, _ => 1

theorem remaining_pos (stage : Stage) (phase : Phase) : 0 < remaining stage phase := by
  cases stage with
  | switched =>
    change 0 < if phase = .finalizeFront ∨ phase = .complete then 2 else 3
    split
    · exact Nat.two_pos
    · exact Nat.succ_pos 2
  | _ => exact Nat.succ_pos _

/-- The journal holds the status the loop works with, and the attempts suffice. -/
structure Going (q : Request) (attempts : Nat) (status : Status) (w : World) : Prop where
  journal : w.journal = status
  request : status.request.requestID = q.requestID
  stage : ∃ stage : Stage, w.platform = stage.platform q ∧ (stage = .new → q.Changes → Finalizing q status) ∧
    (q.Changes → remaining stage status.phase ≤ attempts)

variable {attempts : Nat} {status next : Status} {after : World} {outcome : Outcome} {stage : Stage}

variable {rest : Status → Program Outcome}

theorem Going.sound (going : Going q attempts status w) : Sound q w := by
  obtain ⟨stage, here, last, -⟩ := going.stage
  exact ⟨stage, here, going.journal ▸ last⟩

theorem Persisted.going (persisted : Persisted w next outcome after) (written : outcome.2 = none)
    (request : next.request.requestID = q.requestID) (here : w.platform = stage.platform q)
    (last : stage = .new → q.Changes → Finalizing q next)
    (enough : q.Changes → remaining stage next.phase ≤ attempts) : Going q attempts outcome.1 after := by
  obtain ⟨returned, now, journal⟩ := persisted.returned written
  have same : outcome.1 = stamp w.journal next now := returned.trans journal
  rw [same]
  exact ⟨journal, request, stage, persisted.platform.trans here, last, enough⟩

def Continues (q : Request) (attempts : Nat) (rest : Status → Program Outcome) : Prop :=
  ∀ status after, Going q attempts status after →
    Safe q (rest status) after

theorem ensures_proceed (stage : Stage) (persisted : Persisted w next outcome after) (sound : Sound q after)
    (continues : Continues q attempts rest) (request : next.request.requestID = q.requestID)
    (here : w.platform = stage.platform q) (last : stage = .new → q.Changes → Finalizing q next)
    (enough : q.Changes → remaining stage next.phase ≤ attempts) : Safe q (proceed outcome rest) after := by
  unfold proceed
  split
  · exact ensures_pure sound
  · next written => exact continues _ _ (persisted.going written request here last enough)

section

variable {attempts : Nat} {rest : Status → Program Outcome}

variable {stage : Stage}

theorem ensures_verifyPhase (continues : Continues q attempts rest)
    (here : w.platform = stage.platform q) (early : stage = .new → ¬ q.Changes)
    (enough : q.Changes → remaining stage .finalizeFront ≤ attempts) : Safe q (verifyPhase q rest) w := by
  have behind : Behind q w.platform := ⟨stage, here, early⟩
  refine (ensures_persist_behind behind).bind fun first after persisted => ?_
  refine (ensures_verifyBackend persisted.2.sound_self.calm _).bind fun verified after same => ?_
  subst same
  split
  · refine (ensures_persist_behind persisted.2).bind fun outcome later again => ?_
    exact ensures_proceed stage again.1 again.2.sound_self continues rfl (persisted.1.platform.trans here)
      (fun last changes => absurd changes (early last)) enough
  · exact ensures_giveUp persisted.2

/-- The finalisation is the one step that cannot be undone, so its report must be right. -/
theorem ensures_finalizePhase (continues : Continues q attempts rest) (changes : q.Changes)
    (here : w.platform = Stage.switched.platform q) (finalizing : Finalizing q w.journal)
    (enough : 1 ≤ attempts) : Safe q (finalizePhase q rest) w := by
  have behind : Behind q w.platform := ⟨.switched, here, by simp⟩
  refine (ensures_persist_behind behind).bind fun first after persisted => ?_
  have stays : Finalizing q after.journal := by
    rcases persisted.1.journal with same | ⟨now, written⟩
    · rw [same]
      exact finalizing
    · rw [written]
      exact ⟨.inl rfl, rfl⟩
  have now : after.platform = Stage.switched.platform q := persisted.1.platform.trans here
  have finalized : (finalizeFront q.candidate).apply after.platform = Stage.new.platform q := by
    rw [now]
    rfl
  have reached : ∀ journal, Finalizing q journal →
      Sound q ⟨(finalizeFront q.candidate).apply after.platform, journal⟩ := fun journal last =>
    ⟨.new, finalized, fun _ _ => last⟩
  refine (ensures_mutate_sound persisted.2.sound_self (reached _ stays)).bind ?_
  rintro answer later ⟨choice, reliable, reported, rfl⟩
  have honest : choice.reported = choice.applied := reliable changes
  rw [reported, honest]
  cases choice.applied with
  | true =>
    refine (ensures_persist_sound (reached _ stays) fun now => reached _ ⟨.inr rfl, rfl⟩).bind
      fun outcome later again => ?_
    refine ensures_proceed .new again ?_ continues rfl finalized (fun _ _ => ⟨.inr rfl, rfl⟩)
      fun _ => enough
    refine ⟨.new, again.platform.trans finalized, fun _ _ => ?_⟩
    rcases again.journal with same | ⟨now, written⟩
    · rw [same]
      exact stays
    · rw [written]
      exact ⟨.inr rfl, rfl⟩
  | false => exact ensures_giveUp persisted.2

theorem ensures_preparePhase (continues : Continues q attempts rest) (changes : q.Changes)
    (here : w.platform = Stage.old.platform q) (enough : 4 ≤ attempts) : Safe q (preparePhase q rest) w := by
  have behind : Behind q w.platform := ⟨.old, here, by simp⟩
  refine (ensures_persist_behind behind).bind fun first after persisted => ?_
  have prepared : (prepareFront q.previous q.candidate).apply after.platform =
      Stage.prepared.platform q := by
    rw [persisted.1.platform, here]
    rfl
  have moved : Behind q ((prepareFront q.previous q.candidate).apply after.platform) :=
    ⟨.prepared, prepared, by simp⟩
  refine (ensures_mutate_sound persisted.2.sound_self (moved.sound _)).bind ?_
  rintro answer later ⟨choice, reliable, reported, rfl⟩
  have honest : choice.reported = true → choice.applied = true := reliable changes trivial
  split
  · next success =>
    rw [if_pos (honest (reported.symm.trans success))]
    refine (ensures_persist_behind moved).bind fun outcome later again => ?_
    exact ensures_proceed .prepared again.1 again.2.sound_self continues rfl prepared
      (by simp) fun _ => enough
  · refine ensures_giveUp ?_
    split
    · exact moved
    · exact persisted.2

theorem ensures_deployPhase (next : Stage) (continues : Continues q attempts rest)
    (here : w.platform = stage.platform q) (early : stage = .new → ¬ q.Changes)
    (deployed : (deployBackend q.candidate).apply (stage.platform q) = next.platform q)
    (undoable : next = .new → ¬ q.Changes) (enough : q.Changes → remaining next .verifyBackend ≤ attempts) :
    Safe q (deployPhase q rest) w := by
  have behind : Behind q w.platform := ⟨stage, here, early⟩
  refine (ensures_persist_behind behind).bind fun first after persisted => ?_
  have applied : (deployBackend q.candidate).apply after.platform = next.platform q := by
    rw [persisted.1.platform, here, deployed]
  have moved : Behind q ((deployBackend q.candidate).apply after.platform) := ⟨next, applied, undoable⟩
  refine (ensures_mutate_sound persisted.2.sound_self (moved.sound _)).bind ?_
  rintro answer later ⟨choice, reliable, reported, rfl⟩
  have either : Behind q (if choice.applied then
      { after with platform := (deployBackend q.candidate).apply after.platform } else after).platform := by
    split
    · exact moved
    · exact persisted.2
  split
  · next success =>
    refine (ensures_persist_behind either).bind fun outcome later again => ?_
    by_cases changes : q.Changes
    · have honest : choice.applied = true := reliable changes trivial (reported.symm.trans success)
      refine ensures_proceed next again.1 again.2.sound_self continues rfl ?_
        (fun last changes => absurd changes (undoable last)) enough
      rw [if_pos honest]
      exact applied
    · obtain ⟨stage, here, -⟩ := either
      exact ensures_proceed stage again.1 again.2.sound_self continues rfl here
        (fun _ contrary => absurd contrary changes) fun contrary => absurd contrary changes
  · refine (ensures_contextDone either.sound_self.calm).bind fun stopped later same => ?_
    subst same
    split
    · exact ensures_pure either.sound_self
    refine (ensures_persist_behind either).bind fun outcome later again => ?_
    unfold proceed
    split
    · exact ensures_pure again.2.sound_self
    · exact compensates.compensate again.2

end

theorem stage_of_candidate (changes : q.Changes)
    (runs : (stage.platform q).backend = q.candidate) : stage = .switched ∨ stage = .new := by
  have other : q.previous ≠ q.candidate := fun same => changes (congrArg Identity.catalogHash same).symm
  cases stage with
  | old => exact absurd runs other
  | prepared => exact absurd runs other
  | switched => exact .inl rfl
  | new => exact .inr rfl

theorem ensures_decideOn (continues : Continues q attempts rest) (going : Going q (attempts + 1) status w) :
    Safe q (decideOn q status w.platform rest) w := by
  obtain ⟨stage, here, last, enough⟩ := going.stage
  unfold decideOn
  rw [here]
  split
  · next runs =>
    split
    · next phases =>
      -- the journal does not say that the last phases began, so this is not the last stage
      have early : stage = .new → ¬ q.Changes := by
        intro isNew changes
        rcases (last isNew changes).1 with same | same
        · exact phases.1 same
        · exact phases.2 same
      refine ensures_verifyPhase continues here early fun changes => ?_
      rcases stage_of_candidate changes runs with rfl | rfl
      · have bound := enough changes
        rw [remaining, if_neg (fun either => either.elim phases.1 phases.2)] at bound
        exact Nat.le_of_succ_le_succ bound
      · exact absurd changes (early rfl)
    · next phases =>
      have final : status.phase = .finalizeFront ∨ status.phase = .complete := by
        by_contra other
        exact phases ⟨fun same => other (.inl same), fun same => other (.inr same)⟩
      split
      · refine (ensures_persist_sound going.sound fun now => ?_).mono ?_
        · exact ⟨stage, here, fun _ _ => ⟨.inr rfl, rfl⟩⟩
        · intro outcome after persisted
          refine ⟨stage, persisted.platform.trans here, fun isNew changes => ?_⟩
          rcases persisted.journal with same | ⟨now, stamped⟩
          · rw [same, going.journal]
            exact last isNew changes
          · rw [stamped]
            exact ⟨.inr rfl, rfl⟩
      · next open_ =>
        have changes : q.Changes := fun same => open_ (.inl same)
        rcases stage_of_candidate changes runs with rfl | rfl
        · split
          · next lost => simp [frontBoth, Stage.platform] at lost
          · have bound := enough changes
            rw [remaining, if_pos final] at bound
            exact ensures_finalizePhase continues changes here
              (going.journal ▸ ⟨final, going.request⟩) (Nat.le_of_succ_le_succ bound)
        · exact absurd (.inr (by simp [frontNew, Stage.platform])) open_
  · next runs =>
    have early : stage = .new → ¬ q.Changes := by
      rintro rfl
      exact absurd rfl runs
    split
    · exact compensates.compensate ⟨stage, here, early⟩
    next previous =>
    split
    · next alone =>
      split
      · exact compensates.compensate ⟨stage, here, early⟩
      cases stage with
      | old => exact ensures_preparePhase continues alone.1 here (Nat.le_of_succ_le_succ (enough alone.1))
      | prepared => simp [frontBoth, Stage.platform] at alone
      | switched => exact absurd rfl runs
      | new => exact absurd rfl runs
    · next both =>
      cases stage with
      | old =>
        have same : q.candidate.catalogHash = q.previous.catalogHash := by
          by_contra changes
          refine both ⟨changes, ?_⟩
          simp [frontBoth, Stage.platform, Ne.symm changes]
        refine ensures_deployPhase .new continues here early ?_
          (fun _ changes => changes same) fun changes => absurd same changes
        simp only [apply, Stage.platform, same]
      | prepared =>
        exact ensures_deployPhase .switched continues here early rfl (by simp)
          fun changes => Nat.le_of_succ_le_succ (enough changes)
      | switched => exact absurd rfl runs
      | new => exact absurd rfl runs

theorem ensures_attempt (valid : q.validate = .ok ()) (attempts : Nat) (going : Going q attempts status w) :
    Safe q (attempt q attempts status) w := by
  induction attempts generalizing w status with
  | zero =>
    obtain ⟨stage, here, -, enough⟩ := going.stage
    refine compensates.compensate ⟨stage, here, fun _ changes => ?_⟩
    exact absurd (enough changes) (Nat.not_le_of_lt (remaining_pos stage status.phase))
  | succ attempts ih =>
    unfold attempt
    refine (ensures_contextDone going.sound.calm).bind fun stopped after same => ?_
    subst same
    split
    · exact ensures_pure going.sound
    refine (ensures_observe_sound going.sound).bind ?_
    rintro observed _ ⟨rfl, failed, seen⟩
    cases observed with
    | none => exact ensures_giveUp (failed rfl)
    | some observation =>
      rw [seen observation rfl]
      dsimp only
      split
      · next message refused =>
        obtain ⟨stage, here, -⟩ := going.stage
        refine compensates.compensate ⟨stage, here, ?_⟩
        rintro rfl
        rw [here, validateObservation_new valid] at refused
        cases refused
      · exact ensures_decideOn (fun status after going => ih going) going

theorem remaining_le (stage : Stage) (phase : Phase) : remaining stage phase ≤ phaseBudget := by
  cases stage with
  | switched =>
    change (if phase = .finalizeFront ∨ phase = .complete then 2 else 3) ≤ phaseBudget
    split
    · decide
    · decide
  | _ => exact Nat.le_of_ble_eq_true rfl

theorem ensures_run (sound : Sound q w) : Safe q (run q) w := by
  unfold run
  split
  · exact ensures_pure sound
  next valid =>
  refine (ensures_readJournal sound.calm).bind ?_
  rintro read _ ⟨rfl, seen⟩
  cases read with
  | none => exact ensures_pure sound
  | some status =>
    have journal := seen status rfl
    obtain ⟨stage, here, last⟩ := sound
    dsimp only
    split
    · exact ensures_pure ⟨stage, here, last⟩
    split
    · refine (ensures_publishStatus (Sound.calm ⟨stage, here, last⟩) status).bind fun published after same => ?_
      subst same
      split
      · split
        · exact ensures_pure ⟨stage, here, last⟩
        · exact ensures_pure ⟨stage, here, last⟩
      · exact ensures_pure ⟨stage, here, last⟩
    split
    · next other =>
      -- the journal is of another request, so the last stage was not reached by this one
      have early : stage = .new → ¬ q.Changes := fun isNew changes =>
        other (journal ▸ (last isNew changes).2)
      refine (ensures_persist_behind ⟨stage, here, early⟩).bind fun outcome after persisted => ?_
      exact ensures_proceed stage persisted.1 persisted.2.sound_self
        (fun status after going => ensures_attempt valid _ going) rfl here
        (fun isNew changes => absurd changes (early isNew)) fun _ => remaining_le _ _
    · next own =>
      exact ensures_attempt valid _ ⟨journal.symm, not_not.mp own, stage, here, journal ▸ last,
        fun _ => remaining_le _ _⟩

end

def session (q : Request) (history : List (List Choice)) : List (Program Outcome × List Choice) :=
  history.map fun choices => (run q, choices)

/-- As long as the platform is reliable, the running backend is admitted at every moment. -/
theorem backend_admitted (q : Request) (journal : Status) (history : List (List Choice))
    (reliable : SessionPermitted environment (rules q) (session q history) ⟨Stage.old.platform q, journal⟩) :
    ∀ e ∈ sessionEvents environment (session q history) ⟨Stage.old.platform q, journal⟩,
      e.before.platform.Compatible ∧ e.after.platform.Compatible := by
  have start : Sound q ⟨Stage.old.platform q, journal⟩ := ⟨.old, rfl, by simp⟩
  have each : ∀ entry ∈ session q history, ∀ w, Sound q w →
      Safe q entry.1 w := by
    intro entry member w sound
    obtain ⟨choices, -, rfl⟩ := List.mem_map.mp member
    exact ensures_run sound
  intro e member
  obtain ⟨⟨stage, here, -⟩, later, there, -⟩ := (session_keeps each start reliable).1 e member
  rw [here, there]
  exact ⟨stage.compatible q, later.compatible q⟩

def sampleIdentity (commit catalog : String) : Identity := ⟨commit, "2024-11-05", 137, "sha256:" ++ catalog⟩

def sampleRequest : Request where
  requestID := "abcdefghijklmnopqrstuvwxyzABCDEFGHIJKLMNOPQ"
  previous := sampleIdentity "aaaaaaaaaaaaaaaaaaaaaaaaaaaaaaaaaaaaaaaa"
    "1111111111111111111111111111111111111111111111111111111111111111"
  candidate := sampleIdentity "bbbbbbbbbbbbbbbbbbbbbbbbbbbbbbbbbbbbbbbb"
    "2222222222222222222222222222222222222222222222222222222222222222"

def fine : Choice := {}

def sampleHistory : List (List Choice) := [List.replicate 15 fine, List.replicate 40 fine]

theorem backend_admitted_sample :
    (∀ e ∈ sessionEvents environment (session sampleRequest sampleHistory)
        ⟨Stage.old.platform sampleRequest, idleStatus⟩,
      e.before.platform.Compatible ∧ e.after.platform.Compatible) ∧
    (sessionState environment (session sampleRequest sampleHistory)
        ⟨Stage.old.platform sampleRequest, idleStatus⟩).journal.state = .succeeded := by
  have free : ∀ call choice w, choice = fine → (rules sampleRequest).may call choice w := by
    rintro call choice w rfl -
    cases call with
    | mutate mutation => cases mutation <;> simp [fine]
    | observe => exact fun _ => rfl
    | _ => trivial
  refine ⟨backend_admitted sampleRequest idleStatus sampleHistory ?_, by decide⟩
  exact sessionPermitted_of_choices free (by decide) _

def misreported : List Choice :=
  List.replicate 28 fine ++ { fine with reported := false } :: List.replicate 7 fine

/-- Then compensation moves the backend back behind a front door that admits only the candidate. -/
theorem backend_cut_off :
    ¬ ∀ e ∈ sessionEvents environment (session sampleRequest [misreported])
        ⟨Stage.old.platform sampleRequest, idleStatus⟩,
      e.before.platform.Compatible ∧ e.after.platform.Compatible := by
  decide

end Aeontra.Catalogrollout
