import Aeontra.Edgeupdate.Steps

/-!
What a failed call of the updater leaves, when the file system does what it is asked.

A rollback that fails restores both links.  An installation that fails because of the service turns
only the current link back.
-/

namespace Aeontra.Edgeupdate

open Library Process
open Aeontra.Bundle
open Disk

variable {Content : Type} {given : Choice Content → Prop} {d : Disk Content} {v : Verifier Content}

def Verified (v : Verifier Content) (d : Disk Content) (release : String) : Prop :=
  release ≠ "" ∧ ∃ content manifest, d.releases.read release = some (.directory content) ∧
    v.trusted content = some manifest

theorem Verified.isDirectory {release : String} (verified : Verified v d release) : d.isDirectory release = true := by
  obtain ⟨_, content, _, found, _⟩ := verified
  rw [Disk.isDirectory, found]
  rfl

structure Laid (v : Verifier Content) (d : Disk Content) : Prop where
  current : Verified v d d.current
  previous : Verified v d d.previous

/-- The current link and what is behind the links is the same, the previous link is lost. -/
structure Strayed (d after : Disk Content) : Prop where
  current : after.current = d.current
  previous : after.previous = d.current
  behindCurrent : after.releases.read d.current = d.releases.read d.current
  behindPrevious : after.releases.read d.previous = d.releases.read d.previous

/-- It does not come before the current release and is another one, there is a bundle of it, and what has its
name already is that bundle. -/
structure Installable (v : Verifier Content) (d : Disk Content) (expected : Compatibility) : Prop where
  order : refusesOrder expected.release d.current = false
  apart : d.current ≠ expected.release
  free : d.releases.read expected.release = none ∨ Placed v expected d
  bundle : ∃ content, v.trusted content = some expected

theorem uncut {x : Disk Content} : false = true → x.Sound := fun no => (nomatch no)

section

variable {expected : Compatibility} {service : Bool}

/-- What an installation leaves on a calm file system.  The last part says when it must stray. -/
def Settled (v : Verifier Content) (expected : Compatibility) (given : Choice Content → Prop) (d : Disk Content)
    (result : Except Failure Status) (after : Disk Content) : Prop :=
  match result with
  | .ok _ => d.current = expected.release ∨ ∃ choice, given choice ∧ choice.reply = true
  | .error _ =>
    (Spares d after ∨ (Installable v d expected ∧ Strayed d after)) ∧
      (Installable v d expected → ¬ Unlucky v expected given → Strayed d after)

theorem Placed.named_of_besides {d' : Disk Content} (placed : Placed v expected d')
    (beside : Besides expected.release d d') {release : String} (named : d.Named release) : d'.Named release := by
  by_cases here : release = expected.release
  · rw [here]
    exact .inr placed.isDirectory
  · exact named.congr (beside.others release here)

theorem ensures_installRelease_calm {replace : Bool} (calm : Calm given) (laid : Laid v d)
    (named : expected.release ≠ "") (active : replace = true → d.current = expected.release)
    (other : replace = false → d.current ≠ expected.release) :
    Ensured false given (installRelease v service expected replace)
      (fun result after => match result with
        | .ok _ => ∃ choice, given choice ∧ choice.reply = true
        | .error _ =>
          (Spares d after ∨
            (replace = false ∧ (d.releases.read expected.release = none ∨ Placed v expected d) ∧ Strayed d after)) ∧
          (replace = false → d.releases.read expected.release = none ∨ Placed v expected d →
            ¬ Unlucky v expected given → Strayed d after)) d := by
  unfold installRelease
  refine (ensures_placeRelease uncut active).bind ?_
  intro placed after outcome
  cases placed with
  | error failure =>
    obtain ⟨_, hidden, unlucky⟩ := outcome
    exact ensures_pure ⟨.inl (hidden calm).spares, fun _ free lucky => absurd (unlucky free) lucky⟩
  | ok replaced =>
    obtain ⟨there, beside, repaired, fresh⟩ := outcome
    refine (ensures_activate uncut named there (fun yes => beside.current.trans (active yes))
      fun yes => (repaired yes).1).mono ?_
    rintro result final ⟨_, outcome⟩
    cases result with
    | ok status => exact outcome.2.2.2
    | error failure =>
      have current : after.Named after.current := by
        rw [beside.current]
        exact there.named_of_besides beside (.inr laid.current.isDirectory)
      have previous : after.Named after.previous := by
        rw [beside.previous]
        exact there.named_of_besides beside (.inr laid.previous.isDirectory)
      have filled : after.current ≠ "" := by
        rw [beside.current]
        exact laid.current.1
      have undone := outcome calm filled current previous
      have links : final.current = d.current := undone.current.trans beside.current
      -- what has the name of the release is what had it, if anything did
      have content : d.isDirectory expected.release = true →
          final.releases.read expected.release = d.releases.read expected.release := by
        intro directory
        cases again : replaced with
        | true =>
          obtain ⟨_, present, backup⟩ := repaired again
          obtain ⟨entry, found⟩ := Option.ne_none_iff_exists'.mp present
          rw [found]
          exact undone.back again entry (backup.trans found)
        | false =>
          rw [undone.kept again]
          rcases fresh again with none | same
          · rw [Disk.isDirectory, none] at directory
            cases directory
          · change after.releases.read expected.release = _
            rw [same]
      have behind : ∀ release, d.isDirectory release = true →
          final.releases.read release = d.releases.read release := by
        intro release directory
        by_cases here : release = expected.release
        · subst here
          exact content directory
        · exact (undone.others release here).trans (beside.others release here)
      have behindCurrent := behind _ laid.current.isDirectory
      have behindPrevious := behind _ laid.previous.isDirectory
      cases replace with
      | true =>
        refine ⟨.inl ⟨links, undone.previous.trans beside.previous, behindCurrent, behindPrevious⟩,
          fun no => by cases no⟩
      | false =>
        have strayed : Strayed d final :=
          ⟨links, undone.previous.trans beside.current, behindCurrent, behindPrevious⟩
        have free : d.releases.read expected.release = none ∨ Placed v expected d := by
          rcases fresh (Bool.eq_false_iff.mpr fun yes => by cases (repaired yes).1) with none | same
          · exact .inl none
          · exact .inr (same ▸ there)
        exact ⟨.inr ⟨rfl, free, strayed⟩, fun _ _ _ => strayed⟩

theorem ensures_installOver_calm {before : Status} (calm : Calm given) (laid : Laid v d)
    (named : expected.release ≠ "") (seen : before.release = d.current)
    (order : refusesOrder expected.release d.current = false) (bundle : ∃ content, v.trusted content = some expected) :
    Ensured false given (installOver v service expected d.current before)
      (Settled v expected given d) d := by
  have repair : d.current = expected.release →
      Ensured false given (installRelease v service expected true) (Settled v expected given d) d := by
    intro same
    refine (ensures_installRelease_calm calm laid named (fun _ => same) fun (no : true = false) => (nomatch no)).mono ?_
    intro result after outcome
    cases result with
    | ok status => exact .inl same
    | error failure =>
      refine ⟨.inl ?_, fun installable => absurd same installable.apart⟩
      rcases outcome.1 with spares | ⟨no, _⟩
      · exact spares
      · cases no
  unfold installOver
  split
  · next equal =>
    have same : d.current = expected.release := seen.symm.trans equal
    refine (ensures_stat uncut expected.release).bind ?_
    rintro entry after ⟨rfl, found⟩
    split
    · split
      · exact ensures_pure (.inl same)
      · exact repair same
    · exact repair same
  · next differs =>
    have apart : d.current ≠ expected.release := fun same => differs (seen.trans same)
    have plain : (d.current == expected.release) = false := beq_eq_false_iff_ne.mpr apart
    rw [plain]
    refine (ensures_installRelease_calm calm laid named
      (fun (no : false = true) => (nomatch no)) fun _ => apart).mono ?_
    intro result after outcome
    cases result with
    | ok status => exact .inr outcome
    | error failure =>
      refine ⟨?_, fun installable lucky => outcome.2 rfl installable.free lucky⟩
      rcases outcome.1 with spares | ⟨_, free, strayed⟩
      · exact .inl spares
      · exact .inr ⟨⟨order, apart, free, bundle⟩, strayed⟩

theorem ensures_install_calm (calm : Calm given) (laid : Laid v d) :
    Ensured false given (install v service expected) (Settled v expected given d) d := by
  have unchanged : Spares d d := .refl d
  unfold install
  refine ensures_via (fun locked after => after = d ∧ locked = true)
    (ensures_step uncut (fun _ => trivial) fun choice permitted => ⟨rfl, calm choice permitted⟩) ?_
  rintro locked after ⟨rfl, rfl⟩
  refine ensures_via (fun source next => next = after ∧ ∃ choice, given choice ∧ source = choice.content)
    (ensures_step uncut (fun _ => trivial) fun choice permitted => ⟨rfl, choice, permitted, rfl⟩) ?_
  rintro source next ⟨rfl, choice, permitted, rfl⟩
  by_cases verified : v.trusted choice.content = some expected
  · have named : expected.release ≠ "" := release_ne_empty (v.valid _ expected verified)
    rw [if_pos verified]
    refine (ensures_readLink uncut .current).bind ?_
    rintro raw same ⟨rfl, rfl⟩
    refine (ensures_statusFromLinks uncut service).bind ?_
    rintro status last ⟨rfl, facts⟩
    cases status with
    | error failure => exact absurd ⟨.inr laid.current.isDirectory, .inr laid.previous.isDirectory⟩ facts
    | ok status =>
      dsimp only
      split
      · next refused =>
        have refused' : refusesOrder expected.release last.current = true := facts.1 ▸ refused
        refine ensures_pure ⟨.inl unchanged, fun installable => ?_⟩
        exact absurd refused' (by rw [installable.order]; decide)
      · next accepted =>
        refine ensures_installOver_calm calm laid named facts.1 ?_ ⟨_, verified⟩
        exact Bool.eq_false_iff.mpr fun refused => accepted (facts.1.symm ▸ refused)
  · rw [if_neg verified]
    exact ensures_pure ⟨.inl unchanged, fun _ lucky => absurd ⟨choice, permitted, .inr verified⟩ lucky⟩

end

section

variable {service : Bool}

theorem ensures_atomicLink_calm (link : Link) {release : String} (calm : Calm given) (named : release ≠ "")
    (directory : d.isDirectory release = true) :
    Ensured false given (atomicLink link release)
      (fun result after => result = .ok () ∧ after = d.setLink release link) d := by
  refine (ensures_atomicLink uncut link release).mono ?_
  intro result after outcome
  cases result with
  | ok _ => exact ⟨rfl, outcome.1⟩
  | error failure =>
    exact absurd (outcome.2 named directory) calm.not_fails

def Disk.exchanged (d : Disk Content) : Disk Content := { d with current := d.previous, previous := d.current }

def Reverted (d : Disk Content) (result : Except Failure Status) (after : Disk Content) : Prop :=
  match result with
  | .ok _ => True
  | .error _ => Spares d after

theorem ensures_startRolledBack_calm (calm : Calm given) (laid : Laid v d) :
    Ensured false given (startRolledBack service d.current d.previous) (Reverted d) d.exchanged := by
  have current : d.isDirectory d.current = true := laid.current.isDirectory
  have previous : d.isDirectory d.previous = true := laid.previous.isDirectory
  have back := @ensures_atomicLink_calm Content given d.exchanged
  have forth := @ensures_atomicLink_calm Content given (d.exchanged.setLink d.current .current)
  unfold startRolledBack
  refine (ensures_installUnit uncut service d.previous).bind ?_
  rintro installed after rfl
  cases installed with
  | false =>
    refine (back .current calm laid.current.1 current).bind ?_
    rintro _ first ⟨rfl, rfl⟩
    refine (forth .previous calm laid.previous.1 previous).bind ?_
    rintro _ second ⟨rfl, rfl⟩
    exact ensures_pure ⟨rfl, rfl, rfl, rfl⟩
  | true =>
    refine (ensures_restartHealthy uncut).bind ?_
    rintro healthy next rfl
    cases healthy with
    | true =>
      refine (ensures_statusFromLinks uncut service).mono ?_
      rintro result last ⟨rfl, facts⟩
      cases result with
      | ok status => trivial
      | error failure => exact absurd ⟨.inr previous, .inr current⟩ facts
    | false =>
      refine (back .current calm laid.current.1 current).bind ?_
      rintro _ first ⟨rfl, rfl⟩
      refine (forth .previous calm laid.previous.1 previous).bind ?_
      rintro _ second ⟨rfl, rfl⟩
      refine (ensures_installUnitStep uncut d.current).bind ?_
      rintro _ third ⟨rfl, _⟩
      refine (ensures_restartEdge uncut).bind ?_
      rintro _ fourth ⟨rfl, _⟩
      exact ensures_pure ⟨rfl, rfl, rfl, rfl⟩

theorem ensures_rollback_calm (calm : Calm given) (laid : Laid v d) :
    Ensured false given (rollback v service) (Reverted d) d := by
  have unchanged : Spares d d := .refl d
  unfold rollback
  refine ensures_via (fun _ after => after = d) (ensures_step uncut (fun _ => trivial) fun _ _ => rfl) ?_
  rintro locked after rfl
  cases locked with
  | false => exact ensures_pure unchanged
  | true =>
    refine (ensures_readLink uncut .current).bind ?_
    rintro current same ⟨rfl, rfl⟩
    split
    · exact ensures_pure unchanged
    refine (ensures_readLink uncut .previous).bind ?_
    rintro previous same ⟨rfl, rfl⟩
    split
    · exact ensures_pure unchanged
    refine (ensures_validateReleaseLink uncut _).bind ?_
    rintro valid next ⟨rfl, _⟩
    cases valid with
    | error failure => exact ensures_pure unchanged
    | ok _ =>
      refine (ensures_stat uncut _).bind ?_
      rintro entry last ⟨rfl, _⟩
      split
      · split
        · unfold exchangeLinks
          refine (ensures_atomicLink_calm .current calm laid.previous.1 laid.previous.isDirectory).bind ?_
          rintro _ first ⟨rfl, rfl⟩
          have other := @ensures_atomicLink_calm Content given (last.setLink last.previous .current)
          refine (other .previous calm laid.current.1 laid.current.isDirectory).bind ?_
          rintro _ second ⟨rfl, rfl⟩
          exact ensures_startRolledBack_calm calm laid
        · exact ensures_pure unchanged
      · exact ensures_pure unchanged

end

def RestoredBy (program : Program Content (Except Failure Status)) (d : Disk Content) : Prop :=
  ∀ (choices : List (Choice Content)) (failure : Failure) (after : Disk Content),
    (∀ choice ∈ choices, choice.ok = true) →
    program.run environment choices d = (some (.error failure), after) → Spares d after

theorem ensured_of_calm {program : Program Content (Except Failure Status)}
    {post : Except Failure Status → Disk Content → Prop} {choices : List (Choice Content)}
    {result : Except Failure Status} {after : Disk Content}
    (ensured : Ensured false given program post d) (made : ∀ choice ∈ choices, given choice)
    (returned : program.run environment choices d = (some result, after)) : post result after := by
  have permitted : program.Permitted environment (rules false given) choices d :=
    permitted_of_choices (fun _ _ _ holds => holds) _ made _
  have final := (ensured.run permitted).2
  rw [returned] at final
  exact final

/-- A service that never replies leaves the previous link astray after any installation that gets so far. -/
theorem install_strays (v : Verifier Content) (service : Bool) (expected : Compatibility) (laid : Laid v d)
    (installable : Installable v d expected) :
    ∃ (choices : List (Choice Content)) (failure : Failure) (after : Disk Content),
      (∀ choice ∈ choices, choice.ok = true) ∧
      (install v service expected).run environment choices d = (some (.error failure), after) ∧ Strayed d after := by
  obtain ⟨content, verified⟩ := installable.bundle
  let choice : Choice Content := ⟨true, false, content⟩
  obtain ⟨n, result, returned⟩ := returns_replicate environment (install v service expected) choice d
  have made : ∀ other ∈ List.replicate n choice, other = choice := fun other member => List.eq_of_mem_replicate member
  have calm : Calm (· = choice) := fun other same => by rw [same]
  have settled : Settled v expected (· = choice) d result _ :=
    ensured_of_calm (ensures_install_calm calm laid) made (Prod.ext returned rfl)
  cases result with
  | ok status =>
    rcases settled with same | ⟨other, rfl, replied⟩
    · exact absurd same installable.apart
    · cases replied
  | error failure =>
    refine ⟨List.replicate n choice, failure, _, ?_, Prod.ext returned rfl, settled.2 installable ?_⟩
    · intro other member
      rw [made other member]
    · rintro ⟨other, rfl, failed | differs⟩
      · cases failed
      · exact differs verified

/-- On a file system that does all it is asked, a rollback that fails changes nothing.  The same is
true of every installation that fails exactly when the previous link could not go astray: it names
the current release already, or the new release cannot be installed over it. -/
theorem failed_update_restores (v : Verifier Content) (d : Disk Content) (laid : Laid v d) (expected : Compatibility)
    (service : Bool) :
    (RestoredBy (install v service expected) d ↔ d.previous = d.current ∨ ¬ Installable v d expected) ∧
    RestoredBy (rollback v service) d := by
  refine ⟨⟨fun restored => ?_, fun harmless => ?_⟩, fun choices failure after calm returned => ?_⟩
  · by_contra astray
    obtain ⟨apart, installable⟩ := not_or.mp astray
    obtain ⟨choices, failure, after, calm, returned, strayed⟩ :=
      install_strays v service expected laid (not_not.mp installable)
    have spares := restored choices failure after calm returned
    exact apart (spares.previous.symm.trans strayed.previous)
  · intro choices failure after calm returned
    have settled : Settled v expected (fun choice => choice.ok = true) d (.error failure) after :=
      ensured_of_calm (ensures_install_calm (fun _ ok => ok) laid) calm returned
    rcases settled.1 with spares | ⟨installable, strayed⟩
    · exact spares
    · rcases harmless with same | no
      · exact ⟨strayed.current, strayed.previous.trans same.symm, strayed.behindCurrent, strayed.behindPrevious⟩
      · exact absurd installable no
  · have all : Calm fun choice : Choice Content => choice.ok = true := fun _ ok => ok
    have reverted : Reverted d (.error failure) after := ensured_of_calm (ensures_rollback_calm all laid) calm returned
    exact reverted

def sampleDisk : Disk Compatibility where
  current := "v1.1.0"
  previous := "v1.0.0"
  releases := ((∅ : Dictionary String (Entry Compatibility)).set "v1.0.0" (.directory (.sample "v1.0.0"))).set "v1.1.0"
    (.directory (.sample "v1.1.0"))

theorem sampleDisk_laid : Laid .plain sampleDisk where
  current := ⟨by decide, .sample "v1.1.0", .sample "v1.1.0", by decide +kernel, by decide +kernel⟩
  previous := ⟨by decide, .sample "v1.0.0", .sample "v1.0.0", by decide +kernel, by decide +kernel⟩

/-- The service installs and restarts the new release, and is not healthy then. -/
def unhealthyChoices (release : String) : List (Choice Compatibility) :=
  List.replicate 19 ⟨true, true, .sample release⟩ ++ List.replicate 5 ⟨true, false, .sample release⟩

/-- An update to a third release whose health check fails loses the first one. -/
theorem failed_update_strays :
    Laid .plain sampleDisk ∧ ∃ after : Disk Compatibility,
      (install .plain true (.sample "v1.2.0")).run environment (unhealthyChoices "v1.2.0") sampleDisk =
        (some (.error errHealthCheck), after) ∧
      after.current = "v1.1.0" ∧ after.previous = "v1.1.0" ∧
      ¬ RestoredBy (install .plain true (.sample "v1.2.0")) sampleDisk := by
  have ended : ((install .plain true (.sample "v1.2.0")).run environment (unhealthyChoices "v1.2.0") sampleDisk).1 =
      some (.error errHealthCheck) := by decide +kernel
  refine ⟨sampleDisk_laid, _, Prod.ext ended rfl, by decide +kernel, by decide +kernel, fun restored => ?_⟩
  have spares := restored (unhealthyChoices "v1.2.0") errHealthCheck _ (by decide) (Prod.ext ended rfl)
  exact absurd spares.previous (by decide +kernel)

/-- The refused update to an older release and the rollback of the same edge, and an update to a
newer release where the previous link names the current one. -/
theorem failed_update_restores_sample :
    RestoredBy (install .plain true (.sample "v0.9.0")) sampleDisk ∧ RestoredBy (rollback .plain true) sampleDisk ∧
      let once := { sampleDisk with previous := "v1.1.0" }
      Installable .plain once (.sample "v1.2.0") ∧ RestoredBy (install .plain true (.sample "v1.2.0")) once := by
  have both := failed_update_restores .plain sampleDisk sampleDisk_laid (.sample "v0.9.0") true
  refine ⟨both.1.mpr (.inr fun installable => absurd installable.order (by decide)), both.2, ?_, ?_⟩
  · exact ⟨by decide, by decide, .inl (by decide +kernel), .sample "v1.2.0", by decide +kernel⟩
  · have laid : Laid .plain { sampleDisk with previous := "v1.1.0" } :=
      ⟨sampleDisk_laid.current, sampleDisk_laid.current⟩
    exact (failed_update_restores .plain _ laid (.sample "v1.2.0") true).1.mpr (.inl rfl)

end Aeontra.Edgeupdate
