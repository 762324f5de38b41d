import Aeontra.Catalogrollout.Compatible

/-!
When a catalog rollout that has begun to compensate stays on that way.

Only the journal keeps the decision, and `Run` decides from what it observes.
-/

namespace Aeontra.Catalogrollout.Lasting

open Library List
open Library.Process

def Begun (id : String) (w : World) : Prop := w.journal.request.requestID = id ∧ w.journal.state = .compensating

def Settled (id : String) (w : World) : Prop :=
  w.journal.request.requestID = id ∧ (w.journal.state = .compensating ∨ w.journal.state = .failed)

instance (id : String) (w : World) : Decidable (Begun id w) := inferInstanceAs (Decidable (_ ∧ _))

instance (id : String) (w : World) : Decidable (Settled id w) := inferInstanceAs (Decidable (_ ∧ _))

def Readable (w : World) : Prop := validateJournal w.journal = .ok ()

def GoesForward : Call → Prop
  | .mutate mutation => mutation.Forward
  | _ => False

instance : (mutation : Mutation) → Decidable mutation.Forward
  | .prepareFront _ _ | .deployBackend _ | .finalizeFront _ => isTrue trivial
  | .rollbackBackend _ | .rollbackFront _ => isFalse id

instance : (call : Call) → Decidable (GoesForward call)
  | .mutate mutation => inferInstanceAs (Decidable mutation.Forward)
  | .readJournal | .advance _ | .observe | .verify _ | .publish _ | .cancelled => isFalse id

def rules (id : String) : Rules Call World Choice where
  may := fun call choice _ => match call with
    | .advance _ => choice.applied = true
    | _ => True
  holds := Readable
  allows := fun e => Settled id e.before → Settled id e.after ∧ ¬ GoesForward e.op

section

variable {q : Request} {w : World}

variable {next : Status}

theorem readable_stamp (valid : q.validate = .ok ()) (current : Status)
    (request : next.request = q) (now : Time) : validateJournal (stamp current next now) = .ok () := by
  unfold validateJournal
  simp only [stamp, request, valid, bne_self_eq_false, reject_false, ok_bind]
  split
  · rfl
  · rfl

theorem Readable.calm {id : String} (readable : Readable w) : Calm (rules id) w := by
  refine ⟨readable, fun call quiet settled => ⟨settled, ?_⟩⟩
  cases call with
  | mutate => exact quiet.elim
  | _ => exact not_false

theorem ensures_mutate_readable {mutation : Mutation} (readable : Readable w)
    (forward : mutation.Forward → ¬ Settled q.requestID w) :
    (mutate mutation).Ensures environment (rules q.requestID) (fun _ after => after.journal = w.journal) w := by
  refine (ensures_mutate readable ?_ ?_).mono ?_
  · exact fun settled => ⟨settled, fun goes => forward goes settled⟩
  · exact fun settled => ⟨settled, fun goes => forward goes settled⟩
  · rintro _ after ⟨choice, -, -, rfl⟩
    split
    · rfl
    · rfl

theorem ensures_persist_readable (valid : q.validate = .ok ()) (readable : Readable w) (request : next.request = q)
    (fits : Settled q.requestID w → next.state = .compensating ∨ next.state = .failed) :
    (persist next).Ensures environment (rules q.requestID)
      (fun outcome after => after.platform = w.platform ∧ Readable after ∧ after.journal.request = q ∧
        after.journal.state = next.state ∧ outcome.1 = after.journal) w := by
  have written : ∀ choice, (rules q.requestID).may (.advance next) choice w → advance next choice w =
      (some (stamp w.journal next choice.now), { w with journal := stamp w.journal next choice.now }) := by
    intro choice applied
    unfold Readable at readable
    unfold advance
    simp only [readable]
    exact if_pos applied
  have readable' : ∀ now, Readable { w with journal := stamp w.journal next now } :=
    readable_stamp valid _ request
  refine (ensures_persist readable fun choice applied => ?_).mono ?_
  · rw [written choice applied]
    exact ⟨fun settled => ⟨⟨congrArg Request.requestID request, fits settled⟩, not_false⟩, (readable' _).calm⟩
  · rintro outcome after ⟨choice, applied, offered⟩
    obtain ⟨rfl, returned, -⟩ := offered
    rw [written choice applied] at returned ⊢
    exact ⟨rfl, readable' _, request, rfl, returned _ rfl⟩

end

section

variable {q : Request} {w : World}

structure Returned (id : String) (w : World) : Prop where
  readable : Readable w
  closed : ¬ Begun id w

abbrev Returns (q : Request) (p : Program Outcome) (w : World) : Prop :=
  p.Ensures environment (rules q.requestID) (fun _ after => Returned q.requestID after) w

theorem withDeployment_request (status : Status) (deploymentID : String) :
    (withDeployment status deploymentID).request = status.request := by
  unfold withDeployment
  split
  · rfl
  · rfl

theorem ensures_rollback (mutation : Mutation) (readable : Readable w) (back : ¬ mutation.Forward) :
    (mutate mutation).Ensures environment (rules q.requestID) (fun _ after => Readable after) w := by
  refine (ensures_mutate_readable readable fun goes => absurd goes back).mono fun _ after same => ?_
  unfold Readable at readable ⊢
  rw [same]
  exact readable

theorem compensates (valid : q.validate = .ok ()) :
    Compensates (rules q.requestID) q Readable (fun status => status.request = q) (Returned q.requestID) where
  calm readable := readable.calm
  persist _ _ _ readable := by
    refine (ensures_persist_readable valid readable rfl fun _ => .inl rfl).mono ?_
    rintro outcome after ⟨platform, readable, request, -, same⟩
    exact ⟨platform, readable, same ▸ request⟩
  backend readable := ensures_rollback _ readable not_false
  front readable _ := ensures_rollback _ readable not_false
  named _ request := (withDeployment_request _ _).trans request
  fails _ readable request := by
    refine (ensures_persist_readable valid readable (by exact request) fun _ => .inr rfl).mono ?_
    rintro outcome after ⟨-, readable, -, state, -⟩
    refine ⟨readable, fun begun => ?_⟩
    rw [Begun, state] at begun
    cases begun.2

structure Working (w : World) : Prop where
  readable : Readable w
  state : ¬ (w.journal.state = .compensating ∨ w.journal.state = .failed)

theorem Working.returned (working : Working w) (id : String) : Returned id w :=
  ⟨working.readable, fun begun => working.state (.inl begun.2)⟩

theorem Working.not_settled (working : Working w) (id : String) : ¬ Settled id w := fun settled =>
  working.state settled.2

theorem ensures_persist_working {next : Status} (valid : q.validate = .ok ()) (working : Working w)
    (request : next.request = q) (state : next.state = .running ∨ next.state = .succeeded) :
    (persist next).Ensures environment (rules q.requestID) (fun _ after => Working after) w := by
  refine (ensures_persist_readable valid working.readable request
    fun settled => absurd settled (working.not_settled _)).mono ?_
  rintro outcome after ⟨-, readable, -, same, -⟩
  refine ⟨readable, ?_⟩
  rw [same]
  rcases state with running | succeeded
  · rw [running]
    decide
  · rw [succeeded]
    decide

variable {mutation : Mutation} {status : Status} {rest : Status → Program Outcome}

theorem ensures_mutate_working (working : Working w) :
    (mutate mutation).Ensures environment (rules q.requestID) (fun _ after => Working after) w := by
  refine (ensures_mutate_readable working.readable fun _ => working.not_settled _).mono fun _ after same => ?_
  have readable := working.readable
  have state := working.state
  unfold Readable at readable
  rw [← same] at readable state
  exact ⟨readable, state⟩

theorem ensures_giveUp {reason : String} (valid : q.validate = .ok ()) (working : Working w) :
    Returns q (giveUp q status reason) w :=
  (compensates valid).giveUp working.readable (working.returned _)

def Continues (q : Request) (rest : Status → Program Outcome) : Prop :=
  ∀ status after, Working after →
    Returns q (rest status) after

theorem ensures_proceed {outcome : Outcome} (continues : Continues q rest) (working : Working w) :
    Returns q (proceed outcome rest) w := by
  unfold proceed
  split
  · exact ensures_pure (working.returned _)
  · exact continues _ _ working

theorem ensures_phase (second : String → Status) (otherwise : Status → String → Program Outcome)
    {first : Status} (valid : q.validate = .ok ()) (working : Working w) (continues : Continues q rest)
    (running : first.request = q ∧ first.state = .running)
    (next : ∀ deploymentID, (second deploymentID).request = q ∧ (second deploymentID).state = .running)
    (fails : ∀ status deploymentID after, Working after → Returns q (otherwise status deploymentID) after) :
    Returns q (do
      let persisted ← persist first
      let answer ← mutate mutation
      if answer.2 then do
        let persisted ← persist (second answer.1)
        proceed persisted rest
      else otherwise persisted.1 answer.1 : Program Outcome) w := by
  refine (ensures_persist_working valid working running.1 (.inl running.2)).bind fun _ after working => ?_
  refine (ensures_mutate_working working).bind fun answer after working => ?_
  split
  · refine (ensures_persist_working valid working (next _).1 (.inl (next _).2)).bind fun _ after working => ?_
    exact ensures_proceed continues working
  · exact fails _ _ _ working

theorem ensures_decideOn {observation : Observation}
    (valid : q.validate = .ok ()) (working : Working w) (continues : Continues q rest) :
    Returns q (decideOn q status observation rest) w := by
  have gives : ∀ reason status (_ : String) after, Working after → Returns q (giveUp q status reason) after :=
    fun reason status _ after working => ensures_giveUp valid working
  unfold decideOn
  split
  · split
    · refine (ensures_persist_working valid working rfl (.inl rfl)).bind fun _ after working => ?_
      refine (ensures_verifyBackend working.readable.calm _).bind fun verified after same => ?_
      subst same
      split
      · refine (ensures_persist_working valid working rfl (.inl rfl)).bind fun _ after working => ?_
        exact ensures_proceed continues working
      · exact ensures_giveUp valid working
    split
    · exact (ensures_persist_working valid working rfl (.inr rfl)).mono fun _ _ working => working.returned _
    split
    · exact (compensates valid).compensate working.readable
    · exact ensures_phase (fun deploymentID => runningStatus q .complete deploymentID "")
        (fun status _ => giveUp q status "front_finalize_failed") valid working continues ⟨rfl, rfl⟩
        (fun _ => ⟨rfl, rfl⟩) (gives _)
  · split
    · exact (compensates valid).compensate working.readable
    split
    · split
      · exact (compensates valid).compensate working.readable
      · exact ensures_phase (fun deploymentID => runningStatus q .deployBackend deploymentID "")
          (fun status _ => giveUp q status "front_prepare_failed") valid working continues ⟨rfl, rfl⟩
          (fun _ => ⟨rfl, rfl⟩) (gives _)
    refine ensures_phase (fun deploymentID => runningStatus q .verifyBackend deploymentID "")
      (fun status deploymentID => do
        let stopped ← contextDone
        if stopped then pure (status, some .interrupted)
        else do
          let persisted ← persist (runningStatus q .deployBackend deploymentID "backend_deploy_failed")
          proceed persisted fun status => compensate q status "backend_deploy_failed")
      valid working continues ⟨rfl, rfl⟩ (fun _ => ⟨rfl, rfl⟩) ?_
    intro status deploymentID after working
    refine (ensures_contextDone working.readable.calm).bind fun stopped after same => ?_
    subst same
    split
    · exact ensures_pure (working.returned _)
    · refine (ensures_persist_working valid working rfl (.inl rfl)).bind fun _ after working => ?_
      refine ensures_proceed (fun status after working => ?_) working
      exact (compensates valid).compensate working.readable

theorem ensures_attempt (valid : q.validate = .ok ()) (attempts : Nat) (status : Status) (working : Working w) :
    Returns q (attempt q attempts status) w := by
  induction attempts generalizing w status with
  | zero => exact (compensates valid).compensate working.readable
  | succ attempts ih =>
    unfold attempt
    refine (ensures_contextDone working.readable.calm).bind fun stopped after same => ?_
    subst same
    split
    · exact ensures_pure (working.returned _)
    refine (ensures_observe working.readable.calm).bind ?_
    rintro observed _ ⟨rfl, -⟩
    cases observed with
    | none => exact ensures_giveUp valid working
    | some observation =>
      dsimp only
      split
      · exact (compensates valid).compensate working.readable
      · exact ensures_decideOn valid working fun status after working => ih status working

theorem ensures_run (readable : Readable w) (fresh : ¬ Begun q.requestID w) : Returns q (run q) w := by
  unfold run
  split
  · exact ensures_pure ⟨readable, fresh⟩
  next valid =>
  refine (ensures_readJournal readable.calm).bind ?_
  rintro read _ ⟨rfl, seen⟩
  cases read with
  | none => exact ensures_pure ⟨readable, fresh⟩
  | some status =>
    have journal := seen status rfl
    subst journal
    dsimp only
    split
    · exact ensures_pure ⟨readable, fresh⟩
    split
    · refine (ensures_publishStatus readable.calm _).bind fun published after same => ?_
      subst same
      split
      · split
        · exact ensures_pure ⟨readable, fresh⟩
        · exact ensures_pure ⟨readable, fresh⟩
      · exact ensures_pure ⟨readable, fresh⟩
    next unfinished =>
    split
    · next other =>
      refine (ensures_persist_readable valid readable rfl fun settled => absurd settled.1 other).bind ?_
      rintro outcome after ⟨-, readable, -, state, -⟩
      have working : Working after := ⟨readable, by rw [state]; simp⟩
      exact ensures_proceed (fun status after working => ensures_attempt valid _ status working) working
    next own =>
    have same := not_not.mp own
    refine ensures_attempt valid _ _ ⟨readable, ?_⟩
    rintro (begun | failed)
    · exact fresh ⟨same, begun⟩
    · exact unfinished ⟨same, .inr failed⟩

end

def session (history : List (Request × List Choice)) : List (Program Outcome × List Choice) :=
  history.map fun entry => (run entry.1, entry.2)

/-- Nothing goes forward any more, and a run that returns has ended the request as failed. -/
structure Final (id : String) (w : World) (history : List (Request × List Choice)) : Prop where
  back : (sessionEvents environment (session history) w).Pairwise fun e later =>
    Begun id e.after → ¬ GoesForward later.op ∧ Settled id later.after
  ends : ∀ earlier q choices rest, history = earlier ++ (q, choices) :: rest →
    ((run q).run environment choices (sessionState environment (session earlier) w)).1.isSome →
    (∃ e ∈ sessionEvents environment (session (earlier ++ [(q, choices)])) w, Begun id e.after) →
      (sessionState environment (session (earlier ++ [(q, choices)])) w).journal.request.requestID = id ∧
        (sessionState environment (session (earlier ++ [(q, choices)])) w).journal.state = .failed
section

variable {id : String} {history : List (Request × List Choice)} {w : World}

variable (same : ∀ entry ∈ history, entry.1.requestID = id)

include same

theorem history_ensures :
    ∀ entry ∈ session history, ∀ w, Readable w → ¬ Begun id w →
      entry.1.Ensures environment (rules id) (fun _ after => Returned id after) w := by
  intro entry member w readable fresh
  obtain ⟨input, inside, rfl⟩ := mem_map.mp member
  have request := same input inside
  subst request
  exact ensures_run readable fresh

theorem history_keeps (readable : Readable w)
    (writes : SessionPermitted environment (rules id) (session history) w)
    (fresh : SessionStarts environment (fun w => ¬ Begun id w) (session history) w) :
    (∀ e ∈ sessionEvents environment (session history) w, (rules id).allows e) ∧
      Readable (sessionState environment (session history) w) :=
  session_keeps_from
    (fun entry member w readable fresh =>
      (history_ensures same entry member w readable fresh).mono fun _ _ returned => returned.readable)
    readable fresh writes

theorem history_settled {e : Event Call World}
    (readable : Readable w) (writes : SessionPermitted environment (rules id) (session history) w)
    (fresh : SessionStarts environment (fun w => ¬ Begun id w) (session history) w)
    (member : e ∈ sessionEvents environment (session history) w) (begun : Begun id e.after) :
    Settled id (sessionState environment (session history) w) := by
  have allowed := (history_keeps same readable writes fresh).1
  have chained := sessionEvents_chained environment (session history) w
  have reached : Settled id e.after := ⟨begun.1, .inl begun.2⟩
  exact chained.reaches (fun e member settled => (allowed e member settled).1) member reached

omit same

theorem history_returned {q : Request} {choices : List Choice} (same : q.requestID = id) (readable : Readable w)
    (writes : (run q).Permitted environment (rules id) choices w) (fresh : ¬ Begun id w)
    (returned : ((run q).run environment choices w).1.isSome) :
    ¬ Begun id ((run q).run environment choices w).2 := by
  subst same
  obtain ⟨outcome, result⟩ := Option.isSome_iff_exists.mp returned
  have final := ((ensures_run readable fresh).run writes).2
  rw [result] at final
  exact final.closed

end

/-- A compensation is final in every history in which no run takes one up. -/
theorem compensation_final (id : String) (w : World) (history : List (Request × List Choice))
    (same : ∀ entry ∈ history, entry.1.requestID = id) (readable : Readable w)
    (writes : SessionPermitted environment (rules id) (session history) w)
    (fresh : SessionStarts environment (fun w => ¬ Begun id w) (session history) w) : Final id w history := by
  constructor
  · have allowed := (history_keeps same readable writes fresh).1
    have chained := sessionEvents_chained environment (session history) w
    have settles := chained.pairwise fun (_ : Unit) e member settled => (allowed e member settled).1
    refine settles.imp_of_mem fun {e later} _ inside settles begun => ?_
    have settled := settles () ⟨begun.1, .inl begun.2⟩
    exact ⟨(allowed later inside settled).2, (allowed later inside settled).1⟩
  rintro earlier q choices rest rfl returned ⟨e, member, begun⟩
  have parts : session (earlier ++ (q, choices) :: rest) = session earlier ++ session ((q, choices) :: rest) :=
    map_append
  rw [parts] at writes fresh
  obtain ⟨writesFirst, writesHere, -⟩ := sessionPermitted_append.mp writes
  obtain ⟨freshFirst, freshHere, -⟩ := sessionStarts_append.mp fresh
  have before : Readable (sessionState environment (session earlier) w) :=
    (history_keeps (fun entry member => same entry (mem_append_left _ member)) readable writesFirst
      freshFirst).2
  have own : q.requestID = id := same (q, choices) (mem_append_right _ mem_cons_self)
  have closed := history_returned own before writesHere freshHere returned
  have upTo : session (earlier ++ [(q, choices)]) = session earlier ++ session [(q, choices)] := map_append
  have settled : Settled id (sessionState environment (session (earlier ++ [(q, choices)])) w) := by
    refine history_settled ?_ readable ?_ ?_ member begun
    · intro entry member
      refine same entry ?_
      rcases mem_append.mp member with first | here
      · exact mem_append_left _ first
      · exact mem_append_right _ (mem_singleton.mp here ▸ mem_cons_self)
    · rw [upTo]
      exact sessionPermitted_append.mpr ⟨writesFirst, writesHere, trivial⟩
    · rw [upTo]
      exact sessionStarts_append.mpr ⟨freshFirst, freshHere, trivial⟩
  have left : sessionState environment (session (earlier ++ [(q, choices)])) w =
      ((run q).run environment choices (sessionState environment (session earlier) w)).2 := by
    rw [upTo, sessionState_append]
    rfl
  refine ⟨settled.1, settled.2.resolve_left fun compensating => closed ?_⟩
  rw [← left]
  exact ⟨settled.1, compensating⟩

def misread : Choice := { fine with reported := false }

def sampleWorld : World := ⟨Stage.old.platform sampleRequest, idleStatus⟩

def sampleHistory : List (Request × List Choice) :=
  [(sampleRequest, replicate 14 fine ++ misread :: replicate 40 fine), (sampleRequest, replicate 5 fine)]

theorem compensation_final_sample :
    Final sampleRequest.requestID sampleWorld sampleHistory ∧
      (∃ e ∈ sessionEvents environment (session sampleHistory) sampleWorld,
        Begun sampleRequest.requestID e.after) ∧
      (sessionState environment (session sampleHistory) sampleWorld).journal.state = .failed := by
  have free : ∀ call choice w, choice.applied = true → (rules sampleRequest.requestID).may call choice w := by
    intro call choice w applied
    cases call with
    | advance next => exact applied
    | _ => trivial
  refine ⟨compensation_final _ _ _ (by decide) rfl ?_ ⟨by decide, by decide, trivial⟩, by decide, by decide⟩
  exact sessionPermitted_of_choices free (by decide) _

def resumedHistory : List (Request × List Choice) :=
  [(sampleRequest, replicate 14 fine ++ misread :: replicate 4 fine), (sampleRequest, replicate 40 fine)]

/-- The resumed run goes forward and succeeds. -/
theorem compensation_abandoned : ¬ Final sampleRequest.requestID sampleWorld resumedHistory := by
  intro final
  have back := final.back
  revert back
  decide

end Aeontra.Catalogrollout.Lasting
