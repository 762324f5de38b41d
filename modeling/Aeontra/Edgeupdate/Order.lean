import Aeontra.Edgeupdate.Steps

/-!
Installations never go back to an older release, whatever was cut off before.

The check of the order is skipped when a link names nothing.  A previous link that names nothing
is the same as the current one, and then the installation stops when it links the old release.
-/

namespace Aeontra.Edgeupdate

open Library Process
open Aeontra.Bundle
open Disk

variable {Content : Type} {given : Choice Content → Prop} {d : Disk Content} {v : Verifier Content}

section

variable {expected : Compatibility} {service : Bool}

theorem ensures_installRelease {replace : Bool} (sound : d.Sound) (named : expected.release ≠ "")
    (active : replace = true → d.current = expected.release) :
    Ensured true given (installRelease v service expected replace)
      (fun result after => after.Sound ∧
        match result with
        | .ok _ => after.current = expected.release ∧ Placed v expected after ∧
            (replace = false → d.current ≠ expected.release → d.Named d.current)
        | .error _ => True) d := by
  unfold installRelease
  refine (ensures_placeRelease (fun _ => sound) active).bind ?_
  intro placed after outcome
  cases placed with
  | error failure => exact ensures_pure ⟨outcome.1 rfl, trivial⟩
  | ok replaced =>
    obtain ⟨there, beside, repaired, _⟩ := outcome
    have still : after.Sound := beside.sound_of_directory there.isDirectory sound
    refine (ensures_activate (fun _ => still) named there (fun yes => beside.current.trans (active yes))
      fun yes => (repaired yes).1).mono ?_
    rintro result final ⟨safe, outcome⟩
    refine ⟨safe rfl, ?_⟩
    cases result with
    | error failure => trivial
    | ok status =>
      obtain ⟨current, placed, old, _⟩ := outcome
      refine ⟨current, placed, fun no apart => ?_⟩
      have kept := old no
      rw [beside.current] at kept
      exact kept.congr (beside.others _ apart).symm

theorem not_older_of_accepted {release active : String} (accepted : ¬ refusesOrder release active = true) :
    ¬ Older release active := by
  rintro ⟨order, found, negative⟩
  by_cases empty : active = ""
  · rw [empty] at found
    exact not_older_empty release ⟨order, found, negative⟩
  · apply accepted
    rw [refusesOrder, found, Option.all_some, decide_eq_true negative, Bool.and_true]
    exact bne_iff_ne.mpr empty

def Forward (v : Verifier Content) (expected : Compatibility) (d : Disk Content) (result : Except Failure Status)
    (after : Disk Content) : Prop :=
  after.Sound ∧
    match result with
    | .ok _ => after.current = expected.release ∧ Placed v expected after ∧ ¬ Older expected.release d.current
    | .error _ => True

theorem ensures_installOver {before : Status} (sound : d.Sound) (named : expected.release ≠ "")
    (seen : before.release = d.current ∨ before.release = "")
    (order : d.Named d.current → ¬ Older expected.release d.current) :
    Ensured true given (installOver v service expected d.current before)
      (Forward v expected d) d := by
  have repair : d.current = expected.release →
      Ensured true given (installRelease v service expected true) (Forward v expected d) d := by
    intro same
    refine (ensures_installRelease sound named fun _ => same).mono ?_
    rintro result after ⟨safe, outcome⟩
    refine ⟨safe, ?_⟩
    cases result with
    | error failure => trivial
    | ok status => exact ⟨outcome.1, outcome.2.1, same ▸ not_older_self expected.release⟩
  unfold installOver
  split
  · next equal =>
    have same : d.current = expected.release := by
      rcases seen with current | none
      · exact current.symm.trans equal
      · exact absurd (equal.symm.trans none) named
    refine (ensures_stat (fun _ => sound) expected.release).bind ?_
    rintro entry after ⟨rfl, found⟩
    split
    · next content =>
      split
      · next trusted =>
        exact ensures_pure ⟨sound, same, ⟨content, found.symm, trusted⟩, same ▸ not_older_self expected.release⟩
      · exact repair same
    · exact repair same
  · refine (ensures_installRelease sound named fun yes => eq_of_beq yes).mono ?_
    rintro result after ⟨safe, outcome⟩
    refine ⟨safe, ?_⟩
    cases result with
    | error failure => trivial
    | ok status =>
      refine ⟨outcome.1, outcome.2.1, ?_⟩
      by_cases same : d.current = expected.release
      · exact same ▸ not_older_self expected.release
      · exact order (outcome.2.2 (beq_eq_false_iff_ne.mpr same) same)

theorem ensures_install (sound : d.Sound) :
    Ensured true given (install v service expected) (Forward v expected d) d := by
  unfold install
  refine ensures_via (fun _ after => after = d) (ensures_step (fun _ => sound) (fun _ => trivial) fun _ _ => rfl) ?_
  rintro locked after rfl
  cases locked with
  | false => exact ensures_pure ⟨sound, trivial⟩
  | true =>
    refine ensures_via (fun _ next => next = after)
      (ensures_step (fun _ => sound) (fun _ => trivial) fun _ _ => rfl) ?_
    rintro source next rfl
    by_cases verified : v.trusted source = some expected
    · have named : expected.release ≠ "" := release_ne_empty (v.valid source expected verified)
      rw [if_pos verified]
      refine (ensures_readLink (fun _ => sound) .current).bind ?_
      rintro raw same ⟨rfl, rfl⟩
      refine (ensures_statusFromLinks (fun _ => sound) service).bind ?_
      rintro status last ⟨rfl, facts⟩
      dsimp only
      split
      · exact ensures_pure ⟨sound, trivial⟩
      next accepted =>
      have order := not_older_of_accepted accepted
      cases status with
      | ok status =>
        exact ensures_installOver sound named (.inl facts.1) fun _ => facts.1 ▸ order
      | error failure =>
        -- the status is missing because the current link names nothing
        refine ensures_installOver sound named (.inr rfl) fun current => ?_
        rcases sound with previous | same
        · exact absurd ⟨current, previous⟩ facts
        · exact absurd ⟨current, same ▸ current⟩ facts
    · rw [if_neg verified]
      exact ensures_pure ⟨sound, trivial⟩

end

section

variable {service : Bool}

theorem ensures_atomicLink_fine (link : Link) (release : String) (fine : d.Named d.previous) :
    Ensured true given (atomicLink link release)
      (fun _ after => after.Named after.previous) d := by
  refine (ensures_atomicLink (fun _ => .inl fine) link release).mono ?_
  intro result after outcome
  cases result with
  | error failure => rw [outcome.1]; exact fine
  | ok _ =>
    obtain ⟨rfl, _, directory⟩ := outcome
    cases link with
    | current => exact fine
    | previous => exact .inr directory

theorem ensures_startRolledBack (current previous : String) (fine : d.Named d.previous) :
    Ensured true given (startRolledBack service current previous) (fun _ after => after.Sound) d := by
  have sound : true = true → d.Sound := fun _ => .inl fine
  unfold startRolledBack
  refine (ensures_installUnit sound service previous).bind ?_
  rintro installed after rfl
  cases installed with
  | false =>
    refine (ensures_atomicLink_fine .current current fine).bind ?_
    intro _ first fine
    refine (ensures_atomicLink_fine .previous previous fine).bind ?_
    intro _ second fine
    exact ensures_pure (.inl fine)
  | true =>
    refine (ensures_restartHealthy sound).bind ?_
    rintro healthy next rfl
    cases healthy with
    | true =>
      refine (ensures_statusFromLinks sound service).mono ?_
      rintro result last ⟨rfl, _⟩
      exact .inl fine
    | false =>
      refine (ensures_atomicLink_fine .current current fine).bind ?_
      intro _ first fine
      refine (ensures_atomicLink_fine .previous previous fine).bind ?_
      intro _ second fine
      refine (ensures_installUnitStep (fun _ => .inl fine) current).bind ?_
      rintro _ third ⟨rfl, _⟩
      refine (ensures_restartEdge fun _ => .inl fine).bind ?_
      rintro _ fourth ⟨rfl, _⟩
      exact ensures_pure (.inl fine)

theorem ensures_rollback (sound : d.Sound) :
    Ensured true given (rollback v service) (fun _ after => after.Sound) d := by
  unfold rollback
  refine ensures_via (fun _ after => after = d) (ensures_step (fun _ => sound) (fun _ => trivial) fun _ _ => rfl) ?_
  rintro locked after rfl
  cases locked with
  | false => exact ensures_pure sound
  | true =>
    refine (ensures_readLink (fun _ => sound) .current).bind ?_
    rintro current same ⟨rfl, rfl⟩
    split
    · exact ensures_pure sound
    refine (ensures_readLink (fun _ => sound) .previous).bind ?_
    rintro previous same ⟨rfl, rfl⟩
    split
    · exact ensures_pure sound
    refine (ensures_validateReleaseLink (fun _ => sound) _).bind ?_
    rintro valid next ⟨rfl, decided⟩
    cases valid with
    | error failure => exact ensures_pure sound
    | ok _ =>
      have fine : next.Named next.previous := .inr (decided.mp rfl).2
      refine (ensures_stat (fun _ => sound) _).bind ?_
      rintro entry last ⟨rfl, _⟩
      split
      · split
        · unfold exchangeLinks
          refine (ensures_atomicLink_fine .current _ fine).bind ?_
          intro linked first fine
          cases linked with
          | error failure => exact ensures_pure (.inl fine)
          | ok _ =>
            refine (ensures_atomicLink_fine .previous _ fine).bind ?_
            intro linked second fine
            cases linked with
            | error failure =>
              refine (ensures_atomicLink_fine .current _ fine).bind ?_
              intro _ third fine
              exact ensures_pure (.inl fine)
            | ok _ => exact ensures_startRolledBack _ _ fine
        · exact ensures_pure sound
      · exact ensures_pure sound

end

def programs (v : Verifier Content) (history : List (Operation × List (Choice Content))) :
    List (Program Content (Except Failure Status) × List (Choice Content)) :=
  history.map fun entry => (entry.1.program v, entry.2)

def prunes (release : String) : Step → Prop
  | .spoil .pruning name => name = release
  | .remove .pruning name => name = release
  | _ => False

theorem history_sound (v : Verifier Content) {start : Disk Content} (sound : start.Sound)
    (history : List (Operation × List (Choice Content))) :
    (∀ e ∈ sessionEvents environment (programs v history) start,
      (rules true fun _ => True : Rules Step (Disk Content) (Choice Content)).allows e) ∧
    (sessionState environment (programs v history) start).Sound := by
  have permitted : SessionPermitted environment (rules true fun _ => True) (programs v history) start :=
    sessionPermitted_of_choices (fun _ _ _ (_ : True) => trivial) (fun _ _ _ _ => trivial) start
  have kept := session_keeps (fun entry member d held => ?_) (fun _ => sound) permitted
  · exact ⟨kept.1, kept.2 rfl⟩
  obtain ⟨⟨operation, choices⟩, _, rfl⟩ := List.mem_map.mp member
  cases operation with
  | install service expected => exact (ensures_install (held rfl)).mono fun _ _ both _ => both.1
  | rollback service => exact (ensures_rollback (held rfl)).mono fun _ _ safe _ => safe

/-- From a previous link that is absent or names a directory, after any calls that returned or were
cut off anywhere, with any failed writes: a successful installation leaves a verified release,
named by its manifest, that is not older than the one before, and pruning deletes nothing that a
link names. -/
theorem install_never_downgrades (v : Verifier Content) (start : Disk Content)
    (previous : start.Named start.previous) (history : List (Operation × List (Choice Content))) :
    (∀ (service : Bool) (expected : Compatibility) (choices : List (Choice Content)) (status : Status)
      (after : Disk Content),
      (install v service expected).run environment choices (sessionState environment (programs v history) start) =
        (some (.ok status), after) →
      ¬ Older after.current (sessionState environment (programs v history) start).current ∧
      ∃ content manifest, after.releases.read after.current = some (.directory content) ∧
        v.trusted content = some manifest ∧ manifest.release = after.current) ∧
    ∀ e ∈ sessionEvents environment (programs v history) start, ∀ release, prunes release e.op →
      release ≠ e.before.current ∧ release ≠ e.before.previous := by
  obtain ⟨allowed, sound⟩ := history_sound v (.inl previous) history
  refine ⟨fun service expected choices status after returned => ?_, fun e member release pruned => ?_⟩
  · have permitted : (install v service expected).Permitted environment (rules true fun _ => True) choices
        (sessionState environment (programs v history) start) :=
      permitted_of_choices (fun _ _ _ (_ : True) => trivial) _ (fun _ _ => trivial) _
    have final := ((ensures_install sound).run permitted).2
    rw [returned] at final
    obtain ⟨_, active, ⟨content, found, trusted⟩, order⟩ := final
    refine ⟨active ▸ order, content, expected, ?_, trusted, active.symm⟩
    rw [active]
    exact found
  · have fact := allowed e member
    obtain ⟨op, before, after⟩ := e
    cases op with
    | spoil purpose name =>
      cases purpose with
      | pruning => exact pruned ▸ fact
      | restoring => exact pruned.elim
    | remove purpose name =>
      cases purpose with
      | pruning => exact pruned ▸ fact
      | restoring => exact pruned.elim
    | _ => exact pruned.elim

/-- The service comes up on a release, with the bundle of it as the source. -/
def healthyChoice (release : String) : Choice Compatibility := ⟨true, true, .sample release⟩

def sampleHistory : List (Operation × List (Choice Compatibility)) :=
  [(.install true (.sample "v1.9.0"), List.replicate 30 (healthyChoice "v1.9.0")),
   (.install true (.sample "v1.10.0"), List.replicate 15 (healthyChoice "v1.10.0"))]

theorem install_never_downgrades_sample :
    (sessionState environment (programs .plain sampleHistory) {}).current = "v1.9.0" ∧
    (sessionState environment (programs .plain sampleHistory) {}).previous = "v1.9.0" ∧
    ∃ after : Disk Compatibility, after.current = "v1.10.0" ∧ after.previous = "v1.9.0" ∧
      ¬ Older after.current "v1.9.0" ∧
      ∃ content manifest, after.releases.read after.current = some (.directory content) ∧
        Verifier.plain.trusted content = some manifest ∧ manifest.release = after.current := by
  have started : (sessionState environment (programs .plain sampleHistory) {}).current = "v1.9.0" := by decide +kernel
  refine ⟨started, by decide +kernel, ((install .plain true (.sample "v1.10.0")).run environment
    (List.replicate 30 (healthyChoice "v1.10.0")) (sessionState environment (programs .plain sampleHistory) {})).2,
    by decide +kernel, by decide +kernel, ?_⟩
  have forward := (install_never_downgrades .plain {} (.inl rfl) sampleHistory).1 true (.sample "v1.10.0")
    (List.replicate 30 (healthyChoice "v1.10.0")) ⟨"v1.10.0", "v1.9.0", true⟩ _
    (Prod.ext (by decide +kernel) rfl)
  rwa [started] at forward

end Aeontra.Edgeupdate
