import Aeontra.Edgeupdate.Engine

/-!
What each part of the bundle updater does to the links and the releases.
-/

namespace Aeontra.Edgeupdate

open Library Dictionary Function
open Library.Process
open Aeontra.Bundle

variable {Content : Type}

namespace Disk

def Named (d : Disk Content) (release : String) : Prop := release = "" ∨ d.isDirectory release = true

def Sound (d : Disk Content) : Prop := d.Named d.previous ∨ d.current = d.previous

structure Besides (release : String) (d d' : Disk Content) : Prop where
  current : d'.current = d.current
  previous : d'.previous = d.previous
  others : ∀ r, r ≠ release → d'.releases.read r = d.releases.read r

structure Spares (d d' : Disk Content) : Prop where
  current : d'.current = d.current
  previous : d'.previous = d.previous
  behindCurrent : d'.releases.read d.current = d.releases.read d.current
  behindPrevious : d'.releases.read d.previous = d.releases.read d.previous

variable {d d' : Disk Content} {release : String}

theorem isDirectory_congr
    (same : d'.releases.read release = d.releases.read release) : d'.isDirectory release = d.isDirectory release := by
  rw [isDirectory, isDirectory, same]

theorem Named.congr (named : d.Named release)
    (same : d'.releases.read release = d.releases.read release) : d'.Named release := by
  rcases named with empty | directory
  · exact .inl empty
  · exact .inr ((isDirectory_congr same).trans directory)

theorem Besides.refl (release : String) (d : Disk Content) : Besides release d d := ⟨rfl, rfl, fun _ _ => rfl⟩

theorem Besides.trans {d'' : Disk Content} (first : Besides release d d')
    (second : Besides release d' d'') : Besides release d d'' where
  current := second.current.trans first.current
  previous := second.previous.trans first.previous
  others r apart := (second.others r apart).trans (first.others r apart)

theorem Besides.sound (besides : Besides release d d')
    (active : d.current = release) (sound : d.Sound) : d'.Sound := by
  by_cases same : d.current = d.previous
  · right
    rw [besides.current, besides.previous, same]
  left
  rcases sound with named | equal
  · rw [besides.previous]
    exact named.congr (besides.others _ fun there => same (active.trans there.symm))
  · exact absurd equal same

theorem Besides.sound_of_directory (besides : Besides release d d')
    (directory : d'.isDirectory release = true) (sound : d.Sound) : d'.Sound := by
  rcases sound with named | equal
  · left
    rw [besides.previous]
    by_cases there : d.previous = release
    · rw [there]
      exact .inr directory
    · exact named.congr (besides.others _ there)
  · right
    rw [besides.current, besides.previous, equal]

theorem besides_set {entry : Entry Content} (current : d'.current = d.current)
    (previous : d'.previous = d.previous) (set : d'.releases = d.releases.set release entry) :
    Besides release d d' where
  current := current
  previous := previous
  others r apart := by rw [set, read_set, update_of_ne apart]

theorem besides_delete (current : d'.current = d.current)
    (previous : d'.previous = d.previous) (deleted : d'.releases = d.releases.delete release) :
    Besides release d d' where
  current := current
  previous := previous
  others r apart := by rw [deleted, read_delete, update_of_ne apart]

theorem Spares.refl (d : Disk Content) : Spares d d := ⟨rfl, rfl, rfl, rfl⟩

theorem Spares.trans {d'' : Disk Content} (first : Spares d d') (second : Spares d' d'') : Spares d d'' where
  current := second.current.trans first.current
  previous := second.previous.trans first.previous
  behindCurrent := by
    rw [← first.behindCurrent, ← first.current]
    exact second.behindCurrent
  behindPrevious := by
    rw [← first.behindPrevious, ← first.previous]
    exact second.behindPrevious

theorem Spares.sound (spares : Spares d d') (sound : d.Sound) : d'.Sound := by
  rcases sound with named | equal
  · left
    rw [spares.previous]
    exact named.congr spares.behindPrevious
  · right
    rw [spares.current, spares.previous, equal]

theorem Named.sound (named : d.Named d.previous) (previous : d'.previous = d.previous)
    (releases : d'.releases = d.releases) : d'.Sound := by
  left
  rw [previous]
  exact named.congr (by rw [releases])

end Disk

open Disk

/-- When the environment may cut the program off, the links are sound between any two steps; a pruning never
deletes what a link names. -/
def rules (cut : Bool) (given : Choice Content → Prop) : Rules Step (Disk Content) (Choice Content) where
  may := fun _ choice _ => given choice
  holds := fun d => cut = true → d.Sound
  allows := fun e =>
    match e.op with
    | .spoil .pruning release => release ≠ e.before.current ∧ release ≠ e.before.previous
    | .remove .pruning release => release ≠ e.before.current ∧ release ≠ e.before.previous
    | _ => True

structure Hidden (d d' : Disk Content) : Prop where
  current : d'.current = d.current
  previous : d'.previous = d.previous
  releases : d'.releases = d.releases

variable {d d' : Disk Content}

theorem Hidden.besides (hidden : Hidden d d') (release : String) : Besides release d d' :=
  ⟨hidden.current, hidden.previous, fun _ _ => by rw [hidden.releases]⟩

theorem Hidden.spares (hidden : Hidden d d') : Spares d d' :=
  ⟨hidden.current, hidden.previous, by rw [hidden.releases], by rw [hidden.releases]⟩

def Placed (v : Verifier Content) (expected : Compatibility) (d : Disk Content) : Prop :=
  ∃ content, d.releases.read expected.release = some (.directory content) ∧ v.trusted content = some expected

theorem Placed.isDirectory {v : Verifier Content} {expected : Compatibility}
    (placed : Placed v expected d) : d.isDirectory expected.release = true := by
  obtain ⟨content, found, _⟩ := placed
  rw [Disk.isDirectory, found]
  rfl

theorem Placed.congr {v : Verifier Content} {expected : Compatibility} (placed : Placed v expected d)
    (same : d'.releases.read expected.release = d.releases.read expected.release) : Placed v expected d' := by
  obtain ⟨content, found, trusted⟩ := placed
  exact ⟨content, same.trans found, trusted⟩

abbrev Fails (given : Choice Content → Prop) : Prop := ∃ choice, given choice ∧ choice.ok = false

def Calm (given : Choice Content → Prop) : Prop := ∀ choice, given choice → choice.ok = true

theorem Calm.not_fails {given : Choice Content → Prop} (calm : Calm given) : ¬ Fails given := by
  rintro ⟨choice, permitted, failed⟩
  cases (calm choice permitted).symm.trans failed

theorem moved_true (d : Disk Content) (result : Option (Disk Content)) :
    moved d true result = (result.elim (false, d) fun after => (true, after)) := by
  cases result with
  | none => rfl
  | some after => rfl

theorem moved_false (d : Disk Content) (result : Option (Disk Content)) : moved d false result = (false, d) := by
  cases result with
  | none => rfl
  | some after => rfl

def Unlucky (v : Verifier Content) (expected : Compatibility) (given : Choice Content → Prop) : Prop :=
  ∃ choice, given choice ∧ (choice.ok = false ∨ v.trusted choice.content ≠ some expected)

theorem unlucky_of_failed {v : Verifier Content} {expected : Compatibility} {given : Choice Content → Prop}
    (failed : Fails given) : Unlucky v expected given := by
  obtain ⟨choice, permitted, failed⟩ := failed
  exact ⟨choice, permitted, .inl failed⟩

theorem placed_set {v : Verifier Content} {expected : Compatibility} {content : Content}
    (verified : v.trusted content = some expected)
    (set : d'.releases = d.releases.set expected.release (.directory content)) : Placed v expected d' := by
  refine ⟨content, ?_, verified⟩
  rw [set, read_set, update_self]

theorem spoil_besides (d : Disk Content) (release : String) (content : Content) :
    Besides release d (d.spoil release content) := by
  unfold Disk.spoil
  split
  · exact besides_set rfl rfl rfl
  · exact .refl release d

structure Undone (release old : String) (replaced : Bool) (d after : Disk Content) : Prop where
  current : after.current = old
  previous : after.previous = d.previous
  others : ∀ r, r ≠ release → after.releases.read r = d.releases.read r
  kept : replaced = false → after.releases = d.releases
  back : replaced = true → ∀ entry, d.backup = some entry → after.releases.read release = some entry

def Started (cut : Bool) (given : Choice Content → Prop) (release old : String) (replaced : Bool) (d : Disk Content)
    (result : Except Failure Status) (after : Disk Content) : Prop :=
  (cut = true → after.Sound) ∧
    match result with
    | .ok _ => Spares d after ∧ ∃ choice, given choice ∧ choice.reply = true
    | .error _ => Calm given → d.Named old → d.Named d.current → d.Named d.previous →
        Undone release old replaced d after

/-- From `d` the program keeps the rules, and it ends as `post` says. -/
abbrev Ensured {α : Type} (cut : Bool) (given : Choice Content → Prop) (program : Program Content α)
    (post : α → Disk Content → Prop) (d : Disk Content) : Prop :=
  program.Ensures environment (rules cut given) post d

section

variable {cut : Bool} {given : Choice Content → Prop} {d : Disk Content} (sound : cut = true → d.Sound)

include sound

theorem ensures_step {step : Step} {post : step.Answer Content → Disk Content → Prop}
    (allowed : ∀ after, (rules cut given).allows ⟨step, d, after⟩)
    (answered : ∀ choice, given choice → post (react step choice d).1 (react step choice d).2) :
    Ensured cut given (perform step) post d :=
  ensures_perform sound fun choice permitted => ⟨allowed _, answered choice permitted⟩

theorem ensures_readLink (link : Link) :
    Ensured cut given (perform (Step.readLink link))
      (fun release after => after = d ∧ release = d.link link) d :=
  ensures_step sound (fun _ => trivial) fun _ _ => ⟨rfl, rfl⟩

theorem ensures_stat (release : String) :
    Ensured cut given (perform (Step.stat release))
      (fun entry after => after = d ∧ entry = d.releases.read release) d :=
  ensures_step sound (fun _ => trivial) fun _ _ => ⟨rfl, rfl⟩

theorem ensures_installUnitStep (release : String) :
    Ensured cut given (perform (Step.installUnit release))
      (fun reply after => after = d ∧ ∃ choice, given choice ∧ reply = choice.reply) d :=
  ensures_step sound (fun _ => trivial) fun choice permitted => ⟨rfl, choice, permitted, rfl⟩

theorem ensures_restartEdge :
    Ensured cut given (perform Step.restartEdge)
      (fun reply after => after = d ∧ ∃ choice, given choice ∧ reply = choice.reply) d :=
  ensures_step sound (fun _ => trivial) fun choice permitted => ⟨rfl, choice, permitted, rfl⟩

theorem ensures_edgeHealthy :
    Ensured cut given (perform Step.edgeHealthy)
      (fun reply after => after = d ∧ ∃ choice, given choice ∧ reply = choice.reply) d :=
  ensures_step sound (fun _ => trivial) fun choice permitted => ⟨rfl, choice, permitted, rfl⟩

theorem ensures_installUnit (service : Bool) (release : String) :
    Ensured cut given (installUnit service release) (fun _ after => after = d) d := by
  unfold installUnit
  split
  · exact (ensures_installUnitStep sound release).mono fun _ _ both => both.1
  · exact ensures_pure rfl

theorem ensures_restartHealthy : Ensured cut given restartHealthy (fun _ after => after = d) d := by
  refine (ensures_restartEdge sound).bind ?_
  rintro restarted same ⟨rfl, _⟩
  cases restarted with
  | true => exact (ensures_edgeHealthy sound).mono fun _ _ both => both.1
  | false => exact ensures_pure rfl

theorem ensures_validateReleaseLink (release : String) :
    Ensured cut given (validateReleaseLink release)
      (fun result after => after = d ∧ (result = .ok () ↔ release ≠ "" ∧ d.isDirectory release = true)) d := by
  unfold validateReleaseLink
  by_cases empty : release = ""
  · rw [if_pos empty]
    exact ensures_pure ⟨rfl, fun done => (nomatch done), fun both => absurd empty both.1⟩
  rw [if_neg empty]
  refine (ensures_stat sound release).bind ?_
  rintro entry after ⟨rfl, rfl⟩
  by_cases directory : after.isDirectory release = true
  · have found : ((after.releases.read release).any Entry.isDir) = true := directory
    rw [if_pos found]
    exact ensures_pure ⟨rfl, fun _ => ⟨empty, directory⟩, fun _ => rfl⟩
  · have missing : ¬ ((after.releases.read release).any Entry.isDir) = true := directory
    rw [if_neg missing]
    exact ensures_pure ⟨rfl, fun done => (nomatch done), fun both => absurd both.2 directory⟩

theorem ensures_validateLink (release : String) :
    Ensured cut given (validateLink release)
      (fun result after => after = d ∧ (result = .ok () ↔ d.Named release)) d := by
  unfold validateLink
  by_cases empty : release = ""
  · rw [if_pos empty]
    exact ensures_pure ⟨rfl, fun _ => .inl empty, fun _ => rfl⟩
  rw [if_neg empty]
  refine (ensures_validateReleaseLink sound release).mono ?_
  rintro result after ⟨same, decided⟩
  refine ⟨same, fun done => .inr (decided.mp done).2, fun named => decided.mpr ⟨empty, ?_⟩⟩
  exact named.resolve_left empty

theorem ensures_statusFromLinks (service : Bool) :
    Ensured cut given (statusFromLinks service)
      (fun result after => after = d ∧
        match result with
        | .ok status => status.release = d.current ∧ status.previousRelease = d.previous ∧ d.Named d.current ∧
            d.Named d.previous
        | .error _ => ¬ (d.Named d.current ∧ d.Named d.previous)) d := by
  unfold statusFromLinks
  refine (ensures_readLink sound .current).bind ?_
  rintro current after ⟨rfl, rfl⟩
  refine (ensures_validateLink sound _).bind ?_
  rintro valid same ⟨rfl, decided⟩
  cases valid with
  | error failure => exact ensures_pure ⟨rfl, fun both => nomatch decided.mpr both.1⟩
  | ok _ =>
    have first := decided.mp rfl
    refine (ensures_readLink sound .previous).bind ?_
    rintro previous unchanged ⟨rfl, rfl⟩
    refine (ensures_validateLink sound _).bind ?_
    rintro valid same ⟨rfl, decided⟩
    cases valid with
    | error failure => exact ensures_pure ⟨rfl, fun both => nomatch decided.mpr both.2⟩
    | ok _ =>
      have second := decided.mp rfl
      dsimp only
      split
      · refine (ensures_edgeHealthy sound).bind ?_
        rintro active last ⟨rfl, _⟩
        exact ensures_pure ⟨rfl, rfl, rfl, first, second⟩
      · exact ensures_pure ⟨rfl, rfl, rfl, first, second⟩

theorem ensures_atomicLink (link : Link) (release : String) :
    Ensured cut given (atomicLink link release)
      (fun result after =>
        match result with
        | .ok _ => after = d.setLink release link ∧ release ≠ "" ∧ d.isDirectory release = true
        | .error _ => after = d ∧
            (release ≠ "" → d.isDirectory release = true → Fails given)) d := by
  unfold atomicLink
  refine (ensures_validateReleaseLink sound release).bind ?_
  rintro valid after ⟨rfl, decided⟩
  cases valid with
  | error failure => exact ensures_pure ⟨rfl, fun named directory => nomatch decided.mpr ⟨named, directory⟩⟩
  | ok _ =>
    refine ensures_via
      (fun linked next => match linked with
        | true => next = after.setLink release link
        | false => next = after ∧ Fails given)
      (ensures_step sound (fun _ => trivial) fun choice permitted => ?_) ?_
    · cases done : choice.ok with
      | true => simp [react, done]
      | false =>
        simp only [react, done]
        exact ⟨rfl, choice, permitted, done⟩
    · intro linked next outcome
      cases linked with
      | true => exact ensures_pure ⟨outcome, decided.mp rfl⟩
      | false => exact ensures_pure ⟨outcome.1, fun _ _ => outcome.2⟩

theorem ensures_stageSignedRelease (v : Verifier Content) (expected : Compatibility) :
    Ensured cut given (stageSignedRelease v expected)
      (fun result after =>
        match result with
        | .ok _ => ∃ content, v.trusted content = some expected ∧ after = { d with staging := some content }
        | .error _ => Hidden d after ∧
            ∃ choice, given choice ∧ (choice.ok = false ∨ v.trusted choice.content ≠ some expected)) d := by
  unfold stageSignedRelease
  refine ensures_via
    (fun staged next => staged.elim (next = d ∧ Fails given) fun content =>
      next = { d with staging := some content } ∧ ∃ choice, given choice ∧ choice.content = content)
    (ensures_step sound (fun _ => trivial) fun choice permitted => ?_) ?_
  · cases done : choice.ok with
    | true =>
      simp only [react, done]
      exact ⟨rfl, choice, permitted, rfl⟩
    | false =>
      simp only [react, done]
      exact ⟨rfl, choice, permitted, done⟩
  · intro staged next outcome
    cases staged with
    | none =>
      obtain ⟨rfl, choice, permitted, failed⟩ := outcome
      exact ensures_pure ⟨⟨rfl, rfl, rfl⟩, choice, permitted, .inl failed⟩
    | some content =>
      obtain ⟨rfl, choice, permitted, rfl⟩ := outcome
      dsimp only
      by_cases verified : v.trusted choice.content = some expected
      · rw [if_pos verified]
        exact ensures_pure ⟨choice.content, verified, rfl⟩
      rw [if_neg verified]
      refine ensures_via (fun _ after => Hidden d after)
        (ensures_step (by exact sound) (fun _ => trivial) fun _ _ => ⟨rfl, rfl, rfl⟩) ?_
      intro _ after hidden
      exact ensures_pure ⟨hidden, choice, permitted, .inr verified⟩

theorem ensures_moveToBackup {release : String} {entry : Entry Content}
    (found : d.releases.read release = some entry) :
    Ensured cut given (perform (Step.moveToBackup release))
      (fun aside after => match aside with
        | true => after = { d with backup := some entry, releases := d.releases.delete release }
        | false => after = d ∧ Fails given) d := by
  refine ensures_step sound (fun _ => trivial) fun choice permitted => ?_
  cases done : choice.ok with
  | true => simp [react, done, moved_true, Disk.toBackup, found]
  | false =>
    simp only [react, done, moved_false]
    exact ⟨trivial, choice, permitted, done⟩

theorem ensures_moveFromStaging {release : String} {content : Content}
    (staged : d.staging = some content) (free : d.releases.read release = none) :
    Ensured cut given (perform (Step.moveFromStaging release))
      (fun placed after => match placed with
        | true => after = { d with staging := none, releases := d.releases.set release (.directory content) }
        | false => after = d ∧ Fails given) d := by
  refine ensures_step sound (fun _ => trivial) fun choice permitted => ?_
  cases done : choice.ok with
  | true => simp [react, done, moved_true, Disk.fromStaging, staged, free]
  | false =>
    simp only [react, done, moved_false]
    exact ⟨trivial, choice, permitted, done⟩

theorem ensures_moveFromBackup (release : String) :
    Ensured cut given (perform (Step.moveFromBackup release))
      (fun _ after => Besides release d after ∧
        (Calm given → d.releases.read release = none → ∀ entry, d.backup = some entry →
          after.releases.read release = some entry)) d := by
  refine ensures_step sound (fun _ => trivial) fun choice permitted => ?_
  cases done : choice.ok with
  | false =>
    simp only [react, done, moved_false]
    exact ⟨.refl release d, fun calm => absurd ⟨choice, permitted, done⟩ calm.not_fails⟩
  | true =>
    simp only [react, done, moved_true, Disk.fromBackup]
    cases kept : d.backup with
    | none => exact ⟨.refl release d, fun _ _ entry same => nomatch same⟩
    | some entry =>
      cases free : d.releases.read release with
      | some present => exact ⟨.refl release d, fun _ none => nomatch none⟩
      | none =>
        refine ⟨besides_set rfl rfl rfl, fun _ _ entry' same => ?_⟩
        cases same
        change (d.releases.set release entry).read release = some entry
        rw [read_set, update_self]

theorem ensures_discardStaging :
    Ensured cut given (perform Step.discardStaging)
      (fun _ after => Hidden d after) d :=
  ensures_step sound (fun _ => trivial) fun _ _ => ⟨rfl, rfl, rfl⟩

theorem ensures_makeBackup :
    Ensured cut given (perform Step.makeBackup)
      (fun made after => after = d ∧ (made = false → Fails given)) d :=
  ensures_step sound (fun _ => trivial) fun choice permitted => ⟨rfl, fun failed => ⟨choice, permitted, failed⟩⟩

theorem ensures_makeReleases :
    Ensured cut given (perform Step.makeReleases)
      (fun made after => after = d ∧ (made = false → Fails given)) d :=
  ensures_step sound (fun _ => trivial) fun choice permitted => ⟨rfl, fun failed => ⟨choice, permitted, failed⟩⟩

section

variable {v : Verifier Content} {expected : Compatibility}

theorem ensures_addRelease (free : d.releases.read expected.release = none) :
    Ensured cut given (addRelease v expected)
      (fun result after =>
        match result with
        | .ok _ => Placed v expected after ∧ Besides expected.release d after
        | .error _ => Hidden d after ∧ Unlucky v expected given) d := by
  unfold addRelease
  refine (ensures_stageSignedRelease sound v expected).bind ?_
  intro staged after outcome
  cases staged with
  | error failure => exact ensures_pure outcome
  | ok _ =>
    obtain ⟨content, verified, rfl⟩ := outcome
    have still : cut = true → ({ d with staging := some content } : Disk Content).Sound := sound
    refine (ensures_moveFromStaging still rfl free).bind ?_
    intro placed next outcome
    cases placed with
    | true =>
      subst outcome
      exact ensures_pure ⟨placed_set verified rfl, besides_set rfl rfl rfl⟩
    | false =>
      obtain ⟨rfl, failed⟩ := outcome
      refine (ensures_discardStaging still).bind ?_
      intro _ last hidden
      exact ensures_pure ⟨⟨hidden.current, hidden.previous, hidden.releases⟩, unlucky_of_failed failed⟩

theorem ensures_repairRelease {entry : Entry Content}
    (active : cut = true → d.current = expected.release) (found : d.releases.read expected.release = some entry) :
    Ensured cut given (repairRelease v expected)
      (fun result after =>
        match result with
        | .ok _ => Placed v expected after ∧ Besides expected.release d after ∧ after.backup = some entry
        | .error _ => Besides expected.release d after ∧ (Calm given → Hidden d after)) d := by
  unfold repairRelease
  refine (ensures_stageSignedRelease sound v expected).bind ?_
  intro staged after outcome
  cases staged with
  | error failure => exact ensures_pure ⟨outcome.1.besides _, fun _ => outcome.1⟩
  | ok _ =>
    obtain ⟨content, verified, rfl⟩ := outcome
    have still : cut = true → ({ d with staging := some content } : Disk Content).Sound := sound
    refine (ensures_makeBackup still).bind ?_
    rintro made same ⟨rfl, _⟩
    cases made with
    | false =>
      refine (ensures_discardStaging still).bind ?_
      intro _ last hidden
      have all : Hidden d last := ⟨hidden.current, hidden.previous, hidden.releases⟩
      exact ensures_pure ⟨all.besides _, fun _ => all⟩
    | true =>
      refine (ensures_moveToBackup still found).bind ?_
      intro aside next outcome
      cases aside with
      | false =>
        obtain ⟨rfl, _⟩ := outcome
        refine (ensures_discardStaging still).bind ?_
        intro _ last hidden
        have all : Hidden d last := ⟨hidden.current, hidden.previous, hidden.releases⟩
        exact ensures_pure ⟨all.besides _, fun _ => all⟩
      | true =>
        subst outcome
        -- from here on the current link, and it alone or with the previous one, names nothing
        have beside : Besides expected.release d
            { d with staging := some content, backup := some entry,
                     releases := d.releases.delete expected.release } := besides_delete rfl rfl rfl
        have open_ : cut = true → Disk.Sound
            { d with staging := some content, backup := some entry,
                     releases := d.releases.delete expected.release } := fun yes =>
          beside.sound (active yes) (sound yes)
        refine (ensures_moveFromStaging open_ rfl ?_).bind ?_
        · change (d.releases.delete expected.release).read expected.release = none
          rw [read_delete, update_self]
        intro placed last outcome
        cases placed with
        | true =>
          subst outcome
          refine ensures_pure ⟨placed_set verified rfl, ?_, rfl⟩
          exact beside.trans (besides_set rfl rfl rfl)
        | false =>
          obtain ⟨rfl, failed⟩ := outcome
          refine (ensures_moveFromBackup open_ expected.release).bind ?_
          rintro _ back ⟨further, _⟩
          have all := beside.trans further
          refine (ensures_discardStaging fun yes => all.sound (active yes) (sound yes)).bind ?_
          intro _ final hidden
          exact ensures_pure ⟨all.trans (hidden.besides _), fun calm => absurd failed calm.not_fails⟩

theorem ensures_placeRelease {replace : Bool} (active : replace = true → d.current = expected.release) :
    Ensured cut given (placeRelease v expected replace)
      (fun result after =>
        match result with
        | .ok replaced => Placed v expected after ∧ Besides expected.release d after ∧
            (replaced = true → replace = true ∧ d.releases.read expected.release ≠ none ∧
              after.backup = d.releases.read expected.release) ∧
            (replaced = false → d.releases.read expected.release = none ∨ after = d)
        | .error _ => (cut = true → after.Sound) ∧ (Calm given → Hidden d after) ∧
            (d.releases.read expected.release = none ∨ Placed v expected d → Unlucky v expected given)) d := by
  unfold placeRelease
  refine (ensures_makeReleases sound).bind ?_
  rintro made after ⟨rfl, failed⟩
  cases made with
  | false =>
    exact ensures_pure ⟨sound, fun calm => ⟨rfl, rfl, rfl⟩, fun _ => unlucky_of_failed (failed rfl)⟩
  | true =>
    refine (ensures_stat sound expected.release).bind ?_
    rintro entry same ⟨rfl, here⟩
    have unplaced : (∀ content, entry = some (.directory content) → v.trusted content ≠ some expected) →
        entry ≠ none → same.releases.read expected.release = none ∨ Placed v expected same →
        Unlucky v expected given := by
      rintro differs present (none | ⟨content, there, verified⟩)
      · exact absurd (here.trans none) present
      · exact absurd verified (differs content (here.trans there))
    match entry, here with
    | none, here =>
      refine (ensures_addRelease sound here.symm).bind ?_
      intro added next outcome
      cases added with
      | error failure =>
        have kept := outcome.1.spares
        exact ensures_pure ⟨fun yes => kept.sound (sound yes), fun _ => outcome.1, fun _ => outcome.2⟩
      | ok _ =>
        refine ensures_pure ⟨outcome.1, outcome.2, fun (yes : false = true) => (nomatch yes), fun _ => .inl here.symm⟩
    | some .other, here =>
      exact ensures_pure ⟨sound, fun _ => ⟨rfl, rfl, rfl⟩, unplaced (fun _ same => nomatch same) (by simp)⟩
    | some (.directory content), here =>
      dsimp only
      by_cases verified : v.trusted content = some expected
      · rw [if_pos verified]
        exact ensures_pure ⟨⟨content, here.symm, verified⟩, .refl _ _, fun yes => absurd yes (by decide),
          fun _ => .inr rfl⟩
      rw [if_neg verified]
      have differs : ∀ content', some (Entry.directory content) = some (Entry.directory content') →
          v.trusted content' ≠ some expected := by
        intro content' equal
        cases equal
        exact verified
      cases replace with
      | false =>
        exact ensures_pure ⟨sound, fun _ => ⟨rfl, rfl, rfl⟩, unplaced differs (by simp)⟩
      | true =>
        refine (ensures_repairRelease sound (fun _ => active rfl) here.symm).bind ?_
        intro repaired next outcome
        cases repaired with
        | error failure =>
          exact ensures_pure ⟨fun yes => outcome.1.sound (active rfl) (sound yes), outcome.2,
            unplaced differs (by simp)⟩
        | ok _ =>
          refine ensures_pure ⟨outcome.1, outcome.2.1, fun _ => ⟨rfl, ?_, ?_⟩,
            fun (no : true = false) => (nomatch no)⟩
          · rw [← here]
            simp
          · rw [← here]
            exact outcome.2.2

end

section

variable {v : Verifier Content} {release old : String} {replaced : Bool}

theorem ensures_removeAll (active : cut = true → d.current = release) :
    Ensured cut given (removeAll .restoring release)
      (fun _ after => Besides release d after ∧ after.backup = d.backup ∧
        (Calm given → after.releases.read release = none)) d := by
  unfold removeAll
  refine ensures_via (fun _ after => Besides release d after ∧ after.backup = d.backup)
    (ensures_step sound (fun _ => trivial) fun choice _ => ⟨spoil_besides d release choice.content, ?_⟩) ?_
  · change (d.spoil release choice.content).backup = d.backup
    unfold Disk.spoil
    split
    · rfl
    · rfl
  rintro _ spoiled ⟨beside, backup⟩
  have still : cut = true → spoiled.Sound := fun yes => beside.sound (active yes) (sound yes)
  refine ensures_step still (fun _ => trivial) fun choice permitted => ?_
  cases done : choice.ok with
  | true =>
    simp only [react, done, if_true]
    refine ⟨beside.trans (besides_delete rfl rfl rfl), backup, fun _ => ?_⟩
    rw [read_delete, update_self]
  | false =>
    simp only [react, done]
    exact ⟨beside, backup, fun calm => absurd ⟨choice, permitted, done⟩ calm.not_fails⟩

theorem ensures_restoreReplaced (active : replaced = true → d.current = release) :
    Ensured cut given (restoreReplaced release replaced)
      (fun _ after => (replaced = false → after = d) ∧ Besides release d after ∧ (cut = true → after.Sound) ∧
        (Calm given → replaced = true → ∀ entry, d.backup = some entry →
          after.releases.read release = some entry)) d := by
  unfold restoreReplaced
  cases replaced with
  | false => exact ensures_pure ⟨fun _ => rfl, .refl release d, sound, fun _ yes => absurd yes (by decide)⟩
  | true =>
    have here := active rfl
    refine (ensures_removeAll sound fun _ => here).bind ?_
    rintro _ removed ⟨beside, backup, gone⟩
    have still : cut = true → removed.Sound := fun yes => beside.sound here (sound yes)
    refine (ensures_moveFromBackup still release).bind ?_
    rintro _ after ⟨further, back⟩
    have all := beside.trans further
    refine ensures_pure ⟨fun no => absurd no (by decide), all, fun yes => all.sound here (sound yes), ?_⟩
    intro calm _ entry kept
    exact back calm (gone calm) entry (backup.trans kept)

theorem ensures_restoreLink (steady : cut = true → d.Named d.previous ∨ old = d.current) :
    Ensured cut given (restoreLink old)
      (fun _ after => (after = d ∨ after = { d with current := old }) ∧ (cut = true → after.Sound) ∧
        (Calm given → d.Named old → after = { d with current := old })) d := by
  have settled : cut = true → ({ d with current := old } : Disk Content).Sound := by
    intro yes
    rcases steady yes with named | same
    · exact named.sound rfl rfl
    · rw [same]
      exact sound yes
  unfold restoreLink
  by_cases empty : old = ""
  · rw [if_pos empty]
    refine ensures_via (fun removed after => match removed with
        | true => after = { d with current := old }
        | false => after = d ∧ Fails given)
      (ensures_step sound (fun _ => trivial) fun choice permitted => ?_) ?_
    · cases done : choice.ok with
      | true => simp [react, done, empty]
      | false =>
        simp only [react, done]
        exact ⟨rfl, choice, permitted, done⟩
    intro removed after outcome
    cases removed with
    | true =>
      subst outcome
      exact ensures_pure ⟨.inr rfl, settled, fun _ _ => rfl⟩
    | false =>
      obtain ⟨rfl, failed⟩ := outcome
      exact ensures_pure ⟨.inl rfl, sound, fun calm => absurd failed calm.not_fails⟩
  · rw [if_neg empty]
    refine (ensures_atomicLink sound .current old).bind ?_
    intro linked after outcome
    cases linked with
    | ok _ =>
      obtain ⟨rfl, _⟩ := outcome
      exact ensures_pure ⟨.inr rfl, settled, fun _ _ => rfl⟩
    | error failure =>
      obtain ⟨rfl, failed⟩ := outcome
      refine ensures_pure ⟨.inl rfl, sound, fun calm named => ?_⟩
      exact absurd (failed empty (named.resolve_left empty)) calm.not_fails

theorem ensures_reinstallUnit (service : Bool) (release : String) :
    Ensured cut given (reinstallUnit service release)
      (fun _ after => after = d) d := by
  unfold reinstallUnit
  split
  · refine (ensures_installUnitStep sound release).bind ?_
    rintro _ after ⟨rfl, _⟩
    exact ensures_pure rfl
  · exact ensures_pure rfl

theorem ensures_undoInstall (service : Bool) (restart : Bool)
    (steady : cut = true → d.Named d.previous ∨ old = d.current)
    (active : replaced = true → d.current = release ∧ old = release) :
    Ensured cut given (undoInstall service release old replaced restart)
      (fun _ after => (cut = true → after.Sound) ∧
        (Calm given → d.Named old → Undone release old replaced d after)) d := by
  unfold undoInstall
  refine (ensures_restoreLink sound steady).bind ?_
  rintro _ linked ⟨either, still, back⟩
  have same : linked.releases = d.releases ∧ linked.previous = d.previous ∧ linked.backup = d.backup ∧
      (replaced = true → linked.current = release) := by
    rcases either with rfl | rfl
    · exact ⟨rfl, rfl, rfl, fun yes => (active yes).1⟩
    · exact ⟨rfl, rfl, rfl, fun yes => (active yes).2⟩
  refine (ensures_restoreReplaced still same.2.2.2).bind ?_
  rintro _ restored ⟨plain, beside, sound', content⟩
  refine (ensures_reinstallUnit sound' service old).bind ?_
  rintro _ reinstalled rfl
  have final : Calm given → d.Named old → Undone release old replaced d reinstalled := by
    refine fun calm named => ⟨?_, ?_, ?_, ?_, ?_⟩
    · rw [beside.current, back calm named]
    · rw [beside.previous, same.2.1]
    · intro r apart
      rw [beside.others r apart, same.1]
    · intro no
      rw [plain no, same.1]
    · intro yes entry kept
      exact content calm yes entry (same.2.2.1.trans kept)
  split
  · refine (ensures_restartEdge sound').bind ?_
    rintro _ after ⟨rfl, _⟩
    exact ensures_pure ⟨sound', final⟩
  · exact ensures_pure ⟨sound', final⟩

theorem ensures_prune {name : String} (current : name ≠ d.current) (previous : name ≠ d.previous) :
    Ensured cut given (removeAll .pruning name)
      (fun _ after => Spares d after) d := by
  have spares : ∀ {after : Disk Content}, Besides name d after → Spares d after := fun beside =>
    ⟨beside.current, beside.previous, beside.others _ current.symm, beside.others _ previous.symm⟩
  unfold removeAll
  refine ensures_via (fun _ after => Besides name d after)
    (ensures_perform sound fun choice _ => ⟨⟨current, previous⟩, spoil_besides d name choice.content⟩) ?_
  intro _ spoiled beside
  have still : cut = true → spoiled.Sound := fun yes => (spares beside).sound (sound yes)
  refine ensures_perform still fun choice _ => ⟨?_, ?_⟩
  · change name ≠ spoiled.current ∧ name ≠ spoiled.previous
    rw [beside.current, beside.previous]
    exact ⟨current, previous⟩
  change Spares d (if choice.ok then _ else _)
  split
  · exact spares (beside.trans (besides_delete rfl rfl rfl))
  · exact spares beside

theorem ensures_pruneEach {keep : List String} (entries : List (String × Bool))
    (current : d.current ∈ keep) (previous : d.previous ∈ keep) :
    Ensured cut given (pruneEach v keep entries) (fun _ after => Spares d after) d := by
  induction entries generalizing d with
  | nil => exact ensures_pure (.refl d)
  | cons entry rest ih =>
    obtain ⟨name, isDir⟩ := entry
    unfold pruneEach
    split
    · exact ih sound current previous
    next chosen =>
    have retained : name ∉ keep := fun member => chosen (.inr (.inr member))
    refine (ensures_stat sound name).bind ?_
    rintro found after ⟨rfl, _⟩
    split
    · split
      · refine (ensures_prune sound (fun same : name = after.current => retained (same ▸ current))
          fun same : name = after.previous => retained (same ▸ previous)).bind ?_
        intro removed pruned spares
        split
        · have later := ih (fun yes => spares.sound (sound yes)) (spares.current ▸ current)
            (spares.previous ▸ previous)
          exact later.mono fun _ _ further => spares.trans further
        · exact ensures_pure spares
      · exact ih sound current previous
    · exact ih sound current previous

theorem ensures_pruneOldReleases (v : Verifier Content) :
    Ensured cut given (pruneOldReleases v) (fun _ after => Spares d after) d := by
  unfold pruneOldReleases
  refine (ensures_statusFromLinks sound false).bind ?_
  rintro status after ⟨rfl, facts⟩
  cases status with
  | error failure => exact ensures_pure (.refl after)
  | ok status =>
    refine ensures_via (fun _ next => next = after) (ensures_step sound (fun _ => trivial) fun _ _ => rfl) ?_
    rintro entries next rfl
    cases entries with
    | none => exact ensures_pure (.refl next)
    | some entries =>
      refine ensures_pruneEach sound entries ?_ ?_
      · rw [facts.1]
        exact List.mem_cons_self
      · rw [facts.2.1]
        exact List.mem_cons_of_mem _ List.mem_cons_self

theorem ensures_finishInstall (v : Verifier Content) (replaced : Bool) :
    Ensured cut given (finishInstall v replaced)
      (fun result after => Spares d after ∧
        match result with
        | .ok _ => True
        | .error _ => ¬ (d.Named d.current ∧ d.Named d.previous)) d := by
  unfold finishInstall
  refine (ensures_statusFromLinks sound true).bind ?_
  rintro status after ⟨rfl, facts⟩
  cases status with
  | error failure => exact ensures_pure ⟨.refl after, facts⟩
  | ok status =>
    refine ensures_via (fun _ next => Hidden after next) ?_ ?_
    · unfold discardReplaced
      split
      · exact ensures_step sound (fun _ => trivial) fun _ _ => ⟨rfl, rfl, rfl⟩
      · exact ensures_pure ⟨rfl, rfl, rfl⟩
    · intro _ next hidden
      refine (ensures_pruneOldReleases (fun yes => hidden.spares.sound (sound yes)) v).bind ?_
      intro _ pruned spares
      exact ensures_pure ⟨hidden.spares.trans spares, trivial⟩

theorem ensures_startService {service : Bool} (steady : cut = true → d.Named d.previous ∨ old = d.current)
    (active : replaced = true → d.current = release ∧ old = release) :
    Ensured cut given (startService v service release old replaced) (Started cut given release old replaced d) d := by
  have undo : ∀ (restart : Bool) (failure : Failure), Ensured cut given (do
      undoInstall service release old replaced restart
      pure (.error failure)) (Started cut given release old replaced d) d := by
    intro restart failure
    refine (ensures_undoInstall sound service restart steady active).bind ?_
    rintro _ after ⟨still, undone⟩
    exact ensures_pure ⟨still, fun calm named _ _ => undone calm named⟩
  unfold startService
  refine (ensures_installUnit sound service release).bind ?_
  rintro installed after rfl
  cases installed with
  | false => exact undo false _
  | true =>
    refine (ensures_restartEdge sound).bind ?_
    rintro restarted same ⟨rfl, _⟩
    cases restarted with
    | false => exact undo _ _
    | true =>
      refine (ensures_edgeHealthy sound).bind ?_
      rintro healthy same ⟨rfl, choice, permitted, reply⟩
      cases healthy with
      | false => exact undo true _
      | true =>
        refine (ensures_finishInstall sound v replaced).mono ?_
        rintro result final ⟨spares, outcome⟩
        refine ⟨fun yes => spares.sound (sound yes), ?_⟩
        cases result with
        | ok status => exact ⟨spares, choice, permitted, reply.symm⟩
        | error failure => exact fun _ _ current previous => absurd ⟨current, previous⟩ outcome

theorem ensures_switchLinks (named : release ≠ "") (directory : d.isDirectory release = true) :
    Ensured cut given (switchLinks release d.current)
      (fun result after => (cut = true → after.Sound) ∧
        match result with
        | .ok _ => d.Named d.current ∧ after.current = release ∧ after.releases = d.releases ∧
            after.previous = (if d.current = "" then d.previous else d.current) ∧
            (cut = true → after.Named after.previous)
        | .error _ => Calm given → ¬ d.Named d.current) d := by
  unfold switchLinks
  by_cases empty : d.current = ""
  · rw [if_pos empty]
    refine (ensures_atomicLink sound .current release).mono ?_
    intro result after outcome
    cases result with
    | ok _ =>
      obtain ⟨rfl, _⟩ := outcome
      have fine : cut = true → (d.setLink release .current).Named (d.setLink release .current).previous := by
        intro yes
        rcases sound yes with named | same
        · exact named
        · exact .inl (same.symm.trans empty)
      exact ⟨fun yes => .inl (fine yes), .inl empty, rfl, rfl, (if_pos empty).symm, fine⟩
    | error failure =>
      obtain ⟨rfl, failed⟩ := outcome
      refine ⟨sound, fun calm => ?_⟩
      exact absurd (failed named directory) calm.not_fails
  · rw [if_neg empty]
    refine (ensures_atomicLink sound .previous d.current).bind ?_
    intro kept after outcome
    cases kept with
    | error failure =>
      obtain ⟨rfl, failed⟩ := outcome
      refine ensures_pure ⟨sound, fun calm fine => ?_⟩
      exact absurd (failed empty (fine.resolve_left empty)) calm.not_fails
    | ok _ =>
      obtain ⟨rfl, _, old⟩ := outcome
      have fine : (d.setLink d.current .previous).Named (d.setLink d.current .previous).previous := .inr old
      refine (ensures_atomicLink (fun _ => .inl fine) .current release).mono ?_
      intro result last outcome
      cases result with
      | ok _ =>
        obtain ⟨rfl, _⟩ := outcome
        exact ⟨fun _ => fine.sound rfl rfl, .inr old, rfl, rfl, (if_neg empty).symm, fun _ => fine⟩
      | error failure =>
        obtain ⟨rfl, failed⟩ := outcome
        refine ⟨fun _ => .inl fine, fun calm => ?_⟩
        exact absurd (failed named directory) calm.not_fails

/-- When it fails on a calm file system, the current link is back and, unless the release was repaired in
place, it is the previous one too. -/
theorem ensures_activate {service : Bool} {expected : Compatibility} {replace : Bool}
    (named : expected.release ≠ "") (placed : Placed v expected d)
    (active : replace = true → d.current = expected.release) (repaired : replaced = true → replace = true) :
    Ensured cut given (activate v service expected.release replace replaced)
      (fun result after => (cut = true → after.Sound) ∧
        match result with
        | .ok _ => after.current = expected.release ∧ Placed v expected after ∧
            (replace = false → d.Named d.current) ∧ ∃ choice, given choice ∧ choice.reply = true
        | .error _ => Calm given → d.current ≠ "" → d.Named d.current → d.Named d.previous →
            Undone expected.release d.current replaced
              { d with previous := if replace then d.previous else d.current } after) d := by
  unfold activate
  refine (ensures_readLink sound .current).bind ?_
  rintro old same ⟨rfl, rfl⟩
  change Ensures _ _ (if replace then startService v service expected.release same.current replaced else _) _ _
  cases replace with
  | true =>
    have here := active rfl
    refine (ensures_startService sound (fun _ => .inr rfl) fun _ => ⟨here, here⟩).mono ?_
    rintro result after ⟨still, outcome⟩
    refine ⟨still, ?_⟩
    cases result with
    | ok status =>
      obtain ⟨spares, replied⟩ := outcome
      refine ⟨spares.current.trans here, placed.congr ?_, fun no => (nomatch no), replied⟩
      have kept := spares.behindCurrent
      rwa [here] at kept
    | error failure => exact fun calm _ current previous => outcome calm current current previous
  | false =>
    have plain : replaced = false := Bool.eq_false_iff.mpr fun yes => nomatch repaired yes
    refine (ensures_switchLinks sound named placed.isDirectory).bind ?_
    rintro switched after ⟨still, outcome⟩
    cases switched with
    | error failure =>
      exact ensures_pure ⟨still, fun calm _ current _ => absurd current (outcome calm)⟩
    | ok _ =>
      obtain ⟨old, current, releases, previous, fine⟩ := outcome
      refine (ensures_startService still (fun yes => .inl (fine yes)) fun yes => nomatch plain.symm.trans yes).mono ?_
      rintro result final ⟨safe, outcome⟩
      refine ⟨safe, ?_⟩
      cases result with
      | ok status =>
        obtain ⟨spares, replied⟩ := outcome
        refine ⟨spares.current.trans current, placed.congr ?_, fun _ => old, replied⟩
        have kept := spares.behindCurrent
        rw [current, releases] at kept
        exact kept
      | error failure =>
        intro calm filled named _
        have back : after.Named same.current := named.congr (by rw [releases])
        have turned : after.Named after.current := by
          rw [current]
          exact .inr ((isDirectory_congr (by rw [releases])).trans placed.isDirectory)
        rw [if_neg filled] at previous
        have undone := outcome calm back turned (previous ▸ back)
        refine ⟨undone.current, undone.previous.trans previous, fun r apart => ?_, fun no => ?_, fun yes => ?_⟩
        · rw [undone.others r apart, releases]
        · rw [undone.kept no, releases]
        · exact nomatch plain.symm.trans yes

end

end

end Aeontra.Edgeupdate
