import Aeontra.Edgelifecycle.Migration

/-!
What the move of the state directory keeps over every sequence of interrupted calls.

Where the file system supports the rename that does not replace, the state is at exactly one of
the two places at every moment.  The portable way makes an empty directory at the other place
first; cut off there, it leaves two directories, which no recovery takes apart.
-/

namespace Aeontra.Edgelifecycle

open Library Except List
open Library.Process

variable {Content : Type}

/-- The state is at one place with its contents, and nothing is at the other. -/
def At (original : Content) (d : Disk Content) : Place → Prop
  | .source => (∃ id, d.source = some (.directory id (some original))) ∧ d.destination = none
  | .destination => d.source = none ∧ ∃ id, d.destination = some (.directory id (some original))

variable {d d' : Disk Content} {original : Content}

theorem At.congr {place : Place} (there : At original d place)
    (source : d'.source = d.source) (destination : d'.destination = d.destination) : At original d' place := by
  cases place with
  | source => exact ⟨source ▸ there.1, destination.trans there.2⟩
  | destination => exact ⟨source.trans there.1, destination ▸ there.2⟩

def Whole (original : Content) (d : Disk Content) : Prop := ∃ place, At original d place

theorem Whole.congr (whole : Whole original d)
    (source : d'.source = d.source) (destination : d'.destination = d.destination) : Whole original d' := by
  obtain ⟨place, there⟩ := whole
  exact ⟨place, there.congr source destination⟩

/-- No rename of a directory fails for want of support; then the state is whole around every step. -/
def supported (original : Content) : Rules Step (Disk Content) Choice where
  may := fun s choice _ =>
    match s with
    | .renameNoReplace _ _ => choice.fault ≠ some .unsupported
    | _ => True
  holds := Whole original
  allows := fun e => Whole original e.before ∧ Whole original e.after

/-- A program that keeps the state whole and does not call it ambiguous; one that only looks leaves
all as it is. -/
def Keeps {α : Type} (facts : Facts Content) (original : Content) (looks : Bool) (p : Attempt α) : Prop :=
  ∀ d, Whole original d → p.run.Ensures (environment facts) (supported original)
    (fun result after => Whole original after ∧ (looks = true → after = d) ∧
      result ≠ .error (.coded .recoveryAmbiguous)) d

section

variable {facts : Facts Content} {original : Content} {looks : Bool} {α β : Type}

theorem keeps_pure (a : α) : Keeps facts original looks (pure a) :=
  fun _ whole => ensures_pure ⟨whole, fun _ => rfl, nofun⟩

theorem keeps_throw {failure : Failure} (other : failure ≠ .coded .recoveryAmbiguous) :
    Keeps facts original looks (throw failure : Attempt α) :=
  fun _ whole => ensures_pure ⟨whole, fun _ => rfl, fun same => other (error.inj same)⟩

variable {code : MigrationErrorCode} {f : α → Attempt β} {p : Attempt α}

theorem keeps_fail (other : code ≠ .recoveryAmbiguous) :
    Keeps facts original looks (fail code : Attempt α) := keeps_throw fun same => other (Failure.coded.inj same)

theorem keeps_bind (first : Keeps facts original looks p)
    (rest : ∀ a, Keeps facts original looks (f a)) : Keeps facts original looks (p >>= f) := by
  intro d whole
  refine ensures_attempt (fun _ after => Whole original after ∧ (looks = true → after = d))
    ((first d whole).mono ?_) ?_
  · rintro result after ⟨still, same, clear⟩
    cases result with
    | ok a => exact ⟨still, same⟩
    | error failure => exact ⟨still, same, fun ambiguous => clear (congrArg error (error.inj ambiguous))⟩
  · rintro a after ⟨still, same⟩
    refine (rest a after still).mono ?_
    rintro result final ⟨whole', same', clear⟩
    exact ⟨whole', fun yes => (same' yes).trans (same yes), clear⟩

theorem keeps_caught {f : Except Failure α → Attempt β} (first : Keeps facts original looks p)
    (value : ∀ a, Keeps facts original looks (f (.ok a)))
    (error : ∀ failure, failure ≠ .coded .recoveryAmbiguous → Keeps facts original looks (f (.error failure))) :
    Keeps facts original looks (ExceptT.lift p.run >>= f) := by
  intro d whole
  refine ensures_caught _ (first d whole) ?_
  rintro result after ⟨still, same, clear⟩
  have rest : Keeps facts original looks (f result) := by
    cases result with
    | ok a => exact value a
    | error failure => exact error failure fun ambiguous => clear (congrArg Except.error ambiguous)
  refine (rest after still).mono ?_
  rintro result final ⟨whole', same', clear⟩
  exact ⟨whole', fun yes => (same' yes).trans (same yes), clear⟩

theorem keeps_require {condition : Bool} (other : code ≠ .recoveryAmbiguous) :
    Keeps facts original looks (require condition code) := by
  unfold require
  split
  · exact keeps_pure ()
  · exact keeps_fail other

theorem keeps_demand {s : Attempt Bool} (kept : Keeps facts original looks s)
    (other : code ≠ .recoveryAmbiguous) : Keeps facts original looks (demand s code) :=
  keeps_bind kept fun _ => keeps_require other

theorem keeps_check {s : Attempt Bool} {f : Unit → Attempt α} (other : code ≠ .recoveryAmbiguous)
    (kept : Keeps facts original looks s) (rest : ∀ a, Keeps facts original looks (f a)) :
    Keeps facts original looks (demand s code >>= f) :=
  keeps_bind (keeps_demand kept other) rest

theorem keeps_unless {condition : Bool} {f : Unit → Attempt α} (other : code ≠ .recoveryAmbiguous)
    (rest : ∀ a, Keeps facts original looks (f a)) : Keeps facts original looks (require condition code >>= f) :=
  keeps_bind (keeps_require other) rest

theorem keeps_recoded (kept : Keeps facts original looks p)
    (other : code ≠ .recoveryAmbiguous) : Keeps facts original looks (recoded code p) :=
  keeps_caught kept keeps_pure fun _ _ => keeps_fail other

theorem ensures_looking {post : Except Failure β → Disk Content → Prop}
    {d : Disk Content} (whole : Whole original d) (kept : Keeps facts original true p)
    (error : ∀ failure, failure ≠ .coded .recoveryAmbiguous → post (.error failure) d)
    (rest : ∀ a, (f a).run.Ensures (environment facts) (supported original) post d) :
    (p >>= f).run.Ensures (environment facts) (supported original) post d := by
  refine ensures_attempt (fun _ after => after = d) ((kept d whole).mono ?_) ?_
  · rintro result after ⟨_, same, clear⟩
    cases same rfl
    cases result with
    | ok a => rfl
    | error failure => exact error failure fun ambiguous => clear (congrArg Except.error ambiguous)
  · rintro a after rfl
    exact rest a

end

section

variable {facts : Facts Content} {original : Content} {looks : Bool}

def Step.isLook : Step → Bool
  | .placeJournal _ _ => false
  | .removeJournal => false
  | .renameNoReplace _ _ => false
  | .makeDirectory _ => false
  | .exchange _ _ => false
  | .removeDirectory _ => false
  | _ => true

variable {s : Step} {d : Disk Content} {origin target : Place}

theorem react_look (facts : Facts Content) (look : s.isLook = true) (choice : Choice) (d : Disk Content) :
    (react facts s choice d).2 = d := by
  cases s with
  | placeJournal => cases look
  | removeJournal => cases look
  | renameNoReplace => cases look
  | makeDirectory => cases look
  | exchange => cases look
  | removeDirectory => cases look
  | _ => rfl

theorem ensures_step {post : Except Failure s.Answer → Disk Content → Prop}
    (whole : Whole original d) (kept : ∀ choice, (supported original).may s choice d →
      Whole original (react facts s choice d).2 ∧ post (.ok (react facts s choice d).1) (react facts s choice d).2) :
    (step s).run.Ensures (environment facts) (supported original) post d :=
  ensures_map (ensures_perform whole fun choice permitted =>
    ⟨⟨whole, (kept choice permitted).1⟩, (kept choice permitted).2⟩)

theorem keeps_look (look : s.isLook = true) : Keeps facts original looks (step s) := by
  intro d whole
  refine ensures_step whole fun choice _ => ?_
  rw [react_look facts look choice d]
  exact ⟨whole, whole, fun _ => rfl, nofun⟩

theorem placed_spares (d : Disk Content) (replace : Bool) (file : JournalFile) (fault : Option Fault) :
    (d.placed replace file fault).2.source = d.source ∧
      (d.placed replace file fault).2.destination = d.destination := by
  unfold Disk.placed
  split
  · exact ⟨rfl, rfl⟩
  · exact ⟨rfl, rfl⟩
  · split
    · exact ⟨rfl, rfl⟩
    · exact ⟨rfl, rfl⟩

theorem keeps_placeJournal (replace : Bool) (file : JournalFile) :
    Keeps facts original false (step (.placeJournal replace file)) := by
  intro d whole
  refine ensures_step whole fun choice _ => ?_
  have same := placed_spares d replace file choice.fault
  have still : Whole original (d.placed replace file choice.fault).2 := whole.congr same.1 same.2
  exact ⟨still, still, nofun, nofun⟩

theorem ensures_removeJournal (whole : Whole original d) :
    (step .removeJournal).run.Ensures (environment facts) (supported original)
      (fun result after => after.source = d.source ∧ after.destination = d.destination ∧
        (result = .ok true → after.journal = none) ∧ ∃ removed, result = .ok removed) d := by
  refine ensures_step whole fun choice _ => ?_
  have seen : react facts .removeJournal choice d =
      (choice.ok, if choice.ok then { d with journal := none } else d) := rfl
  rw [seen]
  cases choice.ok with
  | true => exact ⟨whole.congr rfl rfl, rfl, rfl, fun _ => rfl, true, rfl⟩
  | false => exact ⟨whole, rfl, rfl, nofun, false, rfl⟩

theorem whole_renamed (apart : origin ≠ target) (fault : Option Fault)
    (whole : Whole original d) : Whole original (d.renamed origin target fault).2 := by
  unfold Disk.renamed
  split
  · exact whole
  · exact whole
  split
  · exact whole
  · exact whole
  next node found free =>
  obtain ⟨place, there⟩ := whole
  refine ⟨target, ?_⟩
  cases origin with
  | source =>
    cases target with
    | source => exact absurd rfl apart
    | destination =>
      cases place with
      | source =>
        obtain ⟨⟨id, same⟩, _⟩ := there
        exact ⟨rfl, id, found.symm.trans same⟩
      | destination => cases found.symm.trans there.1
  | destination =>
    cases target with
    | destination => exact absurd rfl apart
    | source =>
      cases place with
      | source => cases found.symm.trans there.2
      | destination =>
        obtain ⟨_, id, same⟩ := there
        exact ⟨⟨id, found.symm.trans same⟩, rfl⟩

theorem renamed_supported (d : Disk Content) (origin target : Place) {fault : Option Fault}
    (other : fault ≠ some .unsupported) : (d.renamed origin target fault).1 ≠ .unsupported := by
  unfold Disk.renamed
  split
  · exact absurd rfl other
  · nofun
  split
  · nofun
  · nofun
  · nofun

theorem keeps_renameNoReplace (apart : origin ≠ target) :
    Keeps facts original false (renameNoReplace origin target) := by
  intro d whole
  unfold renameNoReplace
  refine ensures_attempt (fun result after => Whole original after ∧ result ≠ .unsupported) ?_ ?_
  · refine ensures_step whole fun choice permitted => ?_
    have still := whole_renamed apart choice.fault whole
    exact ⟨still, still, renamed_supported d origin target permitted⟩
  rintro result after ⟨still, clear⟩
  have kept : ∀ done, Keeps facts original false (pure done : Attempt Bool) := keeps_pure
  have rest : ∀ done, (pure done : Attempt Bool).run.Ensures (environment facts) (supported original)
      (fun result final => Whole original final ∧ (false = true → final = d) ∧
        result ≠ .error (.coded .recoveryAmbiguous)) after := fun done =>
    (kept done after still).mono fun _ _ all => ⟨all.1, nofun, all.2.2⟩
  cases result with
  | done => exact rest true
  | unsupported => exact absurd rfl clear
  | present => exact rest false
  | failed => exact rest false

end

section

variable {facts : Facts Content} {original : Content} {looks exclusive retain : Bool} {place : Place} {home : String}
  {config : StateMigrationConfig} {journal : MigrationJournal} {plan : StateMigrationPlan}

theorem keeps_normalizeStateMigrationConfig :
    Keeps facts original looks (normalizeStateMigrationConfig config) :=
  keeps_unless nofun fun _ => keeps_require nofun

theorem keeps_validateMigrationPathAncestors : Keeps facts original looks validateMigrationPathAncestors := by
  unfold validateMigrationPathAncestors
  refine keeps_bind (keeps_look rfl) fun _ => keeps_unless nofun fun _ => ?_
  refine keeps_bind (keeps_look rfl) fun _ => keeps_unless nofun fun _ => ?_
  exact keeps_bind (keeps_look rfl) fun _ => keeps_require nofun

theorem keeps_validatePrivateState : Keeps facts original looks (validatePrivateState place config) := by
  unfold validatePrivateState
  refine keeps_check nofun (keeps_look rfl) fun _ => ?_
  refine keeps_check nofun (keeps_look rfl) fun _ => ?_
  refine keeps_check nofun (keeps_look rfl) fun _ => ?_
  exact keeps_demand (keeps_look rfl) nofun

theorem keeps_inspectLayout : Keeps facts original looks inspectLayout := by
  have inspect : ∀ status, Keeps facts original looks (inspected status) := by
    intro status
    cases status with
    | some status => exact keeps_pure status
    | none => exact keeps_fail nofun
  unfold inspectLayout
  refine keeps_bind (keeps_look rfl) fun _ => keeps_bind (inspect _) fun _ => ?_
  refine keeps_bind (keeps_look rfl) fun _ => keeps_bind (inspect _) fun _ => ?_
  exact keeps_check nofun (keeps_look rfl) fun _ => keeps_pure _

theorem keeps_planLegacyStateMigration : Keeps facts original looks (planLegacyStateMigration home config) := by
  unfold planLegacyStateMigration
  refine keeps_bind keeps_normalizeStateMigrationConfig fun _ => ?_
  refine keeps_bind keeps_inspectLayout fun disposition => ?_
  cases disposition with
  | blocked => exact keeps_fail nofun
  | none => exact keeps_pure _
  | legacyToPreferred =>
    refine keeps_bind keeps_validatePrivateState fun _ => ?_
    refine keeps_bind (keeps_look rfl) fun journal => ?_
    cases journal with
    | found file => exact keeps_fail nofun
    | failed => exact keeps_fail nofun
    | missing => exact keeps_pure _

theorem keeps_ensurePrivateMigrationParent : Keeps facts original looks ensurePrivateMigrationParent := by
  unfold ensurePrivateMigrationParent
  refine keeps_bind (keeps_look rfl) fun _ => keeps_unless nofun fun _ => ?_
  refine keeps_check nofun (keeps_look rfl) fun _ => ?_
  refine keeps_check nofun (keeps_look rfl) fun _ => ?_
  refine keeps_check nofun (keeps_look rfl) fun _ => ?_
  refine keeps_bind (keeps_look rfl) fun destination => ?_
  cases destination with
  | missing => exact keeps_pure ()
  | failed => exact keeps_fail nofun
  | directory id => exact keeps_fail nofun
  | other => exact keeps_fail nofun

theorem keeps_checkExistingJournal : Keeps facts original looks (checkExistingJournal config exclusive) := by
  unfold checkExistingJournal
  refine keeps_bind (keeps_look rfl) fun existing => ?_
  cases existing with
  | missing => exact keeps_pure ()
  | failed => exact keeps_fail nofun
  | found file =>
    refine keeps_unless nofun fun _ => keeps_unless nofun fun _ => ?_
    exact keeps_demand (keeps_look rfl) nofun

theorem keeps_placeTemporary : Keeps facts original false (placeTemporary journal config exclusive) := by
  unfold placeTemporary
  refine keeps_check nofun (keeps_look rfl) fun _ => ?_
  refine keeps_check nofun (keeps_look rfl) fun _ => ?_
  refine keeps_check nofun (keeps_look rfl) fun _ => ?_
  refine keeps_check nofun (keeps_look rfl) fun _ => ?_
  refine keeps_check nofun (keeps_look rfl) fun _ => keeps_unless nofun fun _ => ?_
  refine keeps_bind (keeps_placeJournal _ _) fun placed => ?_
  split
  · exact keeps_demand (keeps_look rfl) nofun
  · exact keeps_fail nofun
  · exact keeps_fail nofun
  · exact keeps_fail nofun

theorem keeps_writeMigrationJournal :
    Keeps facts original false (writeMigrationJournal journal config exclusive) := by
  unfold writeMigrationJournal
  refine keeps_bind keeps_checkExistingJournal fun _ => ?_
  refine keeps_check nofun (keeps_look rfl) fun _ => ?_
  refine keeps_caught keeps_placeTemporary (fun _ => ?_) fun failure other => ?_
  · exact keeps_bind (keeps_look rfl) fun _ => keeps_pure _
  · exact keeps_bind (keeps_look rfl) fun _ => keeps_throw other

theorem keeps_readMigrationJournal : Keeps facts original looks (readMigrationJournal config) := by
  unfold readMigrationJournal
  refine keeps_bind (keeps_look rfl) fun info => ?_
  cases info with
  | missing => exact keeps_fail nofun
  | failed => exact keeps_fail nofun
  | found file =>
    refine keeps_unless nofun fun _ => keeps_check nofun (keeps_look rfl) fun _ => ?_
    refine keeps_bind (keeps_look rfl) fun content => ?_
    cases content with
    | some journal => exact keeps_pure journal
    | none => exact keeps_fail nofun

theorem keeps_verifyMigratedState : Keeps facts original looks (verifyMigratedState config) := by
  unfold verifyMigratedState
  refine keeps_bind (keeps_look rfl) fun source => ?_
  cases source with
  | missing => exact keeps_validatePrivateState
  | failed => exact keeps_throw nofun
  | directory id => exact keeps_throw nofun
  | other => exact keeps_throw nofun

variable {d : Disk Content}

theorem ensures_removeMigrationJournal (whole : Whole original d) :
    removeMigrationJournal.run.Ensures (environment facts) (supported original)
      (fun result after => after.source = d.source ∧ after.destination = d.destination ∧
        result ≠ .error (.coded .recoveryAmbiguous) ∧ (result = .ok () → after.journal = none)) d := by
  unfold removeMigrationJournal demand
  refine ensures_attempt (fun _ after => after.source = d.source ∧ after.destination = d.destination ∧
    after.journal = none) ?_ ?_
  · refine ensures_attempt (fun removed after => after.source = d.source ∧ after.destination = d.destination ∧
      (removed = true → after.journal = none)) ((ensures_removeJournal whole).mono ?_) ?_
    · rintro result after ⟨source, destination, gone, removed, rfl⟩
      exact ⟨source, destination, fun yes => gone (congrArg ok yes)⟩
    rintro removed after ⟨source, destination, gone⟩
    cases removed with
    | true => exact ensures_pure ⟨source, destination, gone rfl⟩
    | false => exact ensures_pure ⟨source, destination, nofun, nofun⟩
  · rintro _ after ⟨source, destination, gone⟩
    have synced : Keeps facts original true (demand (step .syncParent) .journalInvalid) :=
      keeps_demand (keeps_look rfl) nofun
    refine (synced after (whole.congr source destination)).mono ?_
    rintro result final ⟨_, same, clear⟩
    rw [same rfl]
    exact ⟨source, destination, clear, fun _ => gone⟩

theorem keeps_removeMigrationJournal : Keeps facts original false removeMigrationJournal := by
  intro d whole
  refine (ensures_removeMigrationJournal whole).mono ?_
  rintro result after ⟨source, destination, clear, _⟩
  exact ⟨whole.congr source destination, nofun, clear⟩

theorem keeps_migrationPathState : Keeps facts original looks (migrationPathState place) := by
  unfold migrationPathState
  refine keeps_bind (keeps_look rfl) fun info => ?_
  cases info with
  | missing => exact keeps_pure _
  | failed => exact keeps_throw nofun
  | directory id => exact keeps_pure _
  | other => exact keeps_pure _

theorem keeps_rollbackStateMigration : Keeps facts original false (rollbackStateMigration config) := by
  unfold rollbackStateMigration
  refine keeps_bind keeps_migrationPathState fun source => ?_
  refine keeps_bind keeps_migrationPathState fun destination => ?_
  dsimp only
  split
  · exact keeps_throw nofun
  have back : Keeps facts original false (moveBack destination.1) := by
    unfold moveBack
    split
    · refine keeps_bind (keeps_renameNoReplace nofun) fun renamed => ?_
      split
      · exact keeps_pure ()
      · exact keeps_throw nofun
    · exact keeps_pure ()
  refine keeps_bind back fun _ => keeps_bind keeps_validatePrivateState fun _ => ?_
  exact keeps_removeMigrationJournal

theorem keeps_moveState : Keeps facts original false (moveState config journal) := by
  unfold moveState
  refine keeps_check nofun (keeps_look rfl) fun _ => ?_
  refine keeps_check nofun (keeps_renameNoReplace nofun) fun _ => ?_
  refine keeps_bind (keeps_look rfl) fun _ => keeps_bind keeps_writeMigrationJournal fun _ => ?_
  refine keeps_check nofun (keeps_look rfl) fun _ => ?_
  refine keeps_bind (keeps_recoded keeps_verifyMigratedState nofun) fun _ => ?_
  refine keeps_bind (keeps_look rfl) fun _ => keeps_bind keeps_writeMigrationJournal fun _ => ?_
  exact keeps_demand (keeps_look rfl) nofun

theorem keeps_applyPlan : Keeps facts original false (applyPlan config plan retain) := by
  unfold applyPlan
  refine keeps_bind keeps_ensurePrivateMigrationParent fun _ => keeps_bind (keeps_look rfl) fun _ => ?_
  refine keeps_bind keeps_writeMigrationJournal fun _ => ?_
  refine keeps_caught keeps_moveState (fun _ => ?_) fun failure other => ?_
  · dsimp only
    split
    · exact keeps_pure _
    · exact keeps_bind keeps_removeMigrationJournal fun _ => keeps_pure _
  · refine keeps_caught keeps_rollbackStateMigration (fun _ => ?_) fun _ _ => ?_
    · exact keeps_throw other
    · exact keeps_fail nofun

theorem keeps_expectedPlan : Keeps facts original looks (expectedPlan home config plan) := by
  unfold expectedPlan
  refine keeps_caught keeps_planLegacyStateMigration (fun _ => keeps_pure _) fun failure other => ?_
  dsimp only
  split
  · exact keeps_throw other
  · split
    · exact keeps_fail nofun
    · exact keeps_throw other

theorem keeps_applyLegacyStateMigration :
    Keeps facts original false (applyLegacyStateMigration home config plan retain) := by
  unfold applyLegacyStateMigration
  refine keeps_bind keeps_normalizeStateMigrationConfig fun _ => keeps_unless nofun fun _ => ?_
  refine keeps_bind keeps_validateMigrationPathAncestors fun _ => ?_
  refine keeps_bind keeps_expectedPlan fun _ => keeps_unless nofun fun _ => ?_
  split
  · exact keeps_applyPlan
  · exact keeps_pure _

/-- Opening the journal only looks, and finds none only when there is none. -/
def Opened (d : Disk Content) (result : Except Failure (Option MigrationJournal)) (after : Disk Content) : Prop :=
  after = d ∧ result ≠ .error (.coded .recoveryAmbiguous) ∧ (result = .ok none → d.journal = none)

theorem ensures_openJournal (whole : Whole original d) :
    (openJournal home config).run.Ensures (environment facts) (supported original) (Opened d) d := by
  have error : ∀ failure, failure ≠ .coded .recoveryAmbiguous → Opened d (.error failure) d :=
    fun failure other => ⟨rfl, fun same => other (error.inj same), nofun⟩
  unfold openJournal
  refine ensures_looking whole keeps_normalizeStateMigrationConfig error fun _ => ?_
  refine ensures_looking whole (keeps_require nofun) error fun _ => ?_
  refine ensures_looking whole keeps_validateMigrationPathAncestors error fun _ => ?_
  refine ensures_attempt (fun info after => after = d ∧ (info = .missing → d.journal = none))
    (ensures_step whole fun choice _ => ⟨whole, rfl, ?_⟩) ?_
  · change (if choice.ok then d.journal.elim .missing .found else JournalStat.failed) = .missing → _
    intro missing
    cases found : d.journal with
    | none => rfl
    | some file =>
      rw [found] at missing
      split at missing
      · cases missing
      · cases missing
  · rintro info after ⟨rfl, missing⟩
    cases info with
    | missing => exact ensures_pure ⟨rfl, nofun, fun _ => missing rfl⟩
    | failed => exact ensures_pure ⟨rfl, nofun, nofun⟩
    | found file =>
      refine ensures_looking whole keeps_readMigrationJournal error fun journal => ?_
      exact ensures_looking whole (keeps_require nofun) error fun _ => ensures_pure ⟨rfl, nofun, nofun⟩

theorem keeps_openJournal : Keeps facts original looks (openJournal home config) := by
  intro d whole
  refine (ensures_openJournal whole).mono ?_
  rintro result after ⟨rfl, clear, _⟩
  exact ⟨whole, fun _ => rfl, clear⟩

theorem keeps_finalizeLegacyStateMigration :
    Keeps facts original false (finalizeLegacyStateMigration home config) := by
  unfold finalizeLegacyStateMigration
  refine keeps_bind keeps_openJournal fun journal => ?_
  cases journal with
  | none => exact keeps_pure _
  | some journal =>
    refine keeps_unless nofun fun _ => ?_
    refine keeps_bind (keeps_recoded keeps_verifyMigratedState nofun) fun _ => ?_
    exact keeps_bind keeps_removeMigrationJournal fun _ => keeps_pure _

theorem keeps_rollbackPreparedLegacyStateMigration :
    Keeps facts original false (rollbackPreparedLegacyStateMigration home config) := by
  unfold rollbackPreparedLegacyStateMigration
  refine keeps_bind keeps_openJournal fun journal => ?_
  cases journal with
  | none => exact keeps_pure _
  | some journal =>
    refine keeps_unless nofun fun _ => ?_
    exact keeps_bind (keeps_recoded keeps_rollbackStateMigration nofun) fun _ => keeps_pure _

end

section

variable {facts : Facts Content} {original : Content}

def Located (original : Content) (before after : Disk Content) : MigrationStatus → Prop
  | .recoveredRollback => At original after .source
  | .recoveredComplete => At original after .destination
  | .notNeeded => before.journal = none ∧ after = before
  | _ => False

/-- A recovery that succeeds leaves no journal and says where the state is. -/
def Recovered (original : Content) (before : Disk Content) (result : Except Failure MigrationStatus)
    (after : Disk Content) : Prop :=
  Whole original after ∧
    match result with
    | .ok status => after.journal = none ∧ Located original before after status
    | .error failure => failure ≠ .coded .recoveryAmbiguous

variable {d : Disk Content} {place : Place}

theorem ensures_removedAt {status : MigrationStatus}
    (there : At original d place) (located : ∀ after, At original after place → Located original d after status) :
    (do
      removeMigrationJournal
      pure status : Attempt MigrationStatus).run.Ensures (environment facts) (supported original)
      (Recovered original d) d := by
  refine ensures_attempt (fun _ after => At original after place ∧ after.journal = none)
    ((ensures_removeMigrationJournal ⟨place, there⟩).mono ?_) ?_
  · rintro result after ⟨source, destination, clear, gone⟩
    have still : At original after place := there.congr source destination
    cases result with
    | ok _ => exact ⟨still, gone rfl⟩
    | error failure => exact ⟨⟨place, still⟩, fun same => clear (congrArg error same)⟩
  · rintro _ after ⟨still, gone⟩
    exact ensures_pure ⟨⟨place, still⟩, gone, located after still⟩

theorem At.stat (there : At original d place) :
    ∃ id, ∀ other, d.stat other = if other = place then .directory id else .missing := by
  unfold Disk.stat
  cases place with
  | source =>
    obtain ⟨⟨id, source⟩, destination⟩ := there
    refine ⟨id, fun other => ?_⟩
    cases other with
    | source => rw [Disk.node, source]; rfl
    | destination => rw [Disk.node, destination]; rfl
  | destination =>
    obtain ⟨source, id, destination⟩ := there
    refine ⟨id, fun other => ?_⟩
    cases other with
    | source => rw [Disk.node, source]; rfl
    | destination => rw [Disk.node, destination]; rfl

theorem ensures_migrationPathState (there : At original d place) (other : Place) :
    (migrationPathState other).run.Ensures (environment facts) (supported original)
      (fun result after => after = d ∧ match result with
        | .ok found => found = (decide (other = place), false)
        | .error failure => failure = .plain) d := by
  have whole : Whole original d := ⟨place, there⟩
  obtain ⟨id, stat⟩ := there.stat
  unfold migrationPathState
  refine ensures_attempt (fun info after => after = d ∧ (info = .failed ∨ info = d.stat other))
    (ensures_step whole fun choice _ => ⟨whole, rfl, ?_⟩) ?_
  · change (if choice.ok then d.stat other else Stat.failed) = .failed ∨
      (if choice.ok then d.stat other else Stat.failed) = d.stat other
    split
    · exact .inr rfl
    · exact .inl rfl
  rintro info after ⟨rfl, rfl | rfl⟩
  · exact ensures_pure ⟨rfl, rfl⟩
  rw [stat other]
  by_cases here : other = place
  · rw [if_pos here, decide_eq_true here]
    exact ensures_pure ⟨rfl, rfl⟩
  · rw [if_neg here, decide_eq_false here]
    exact ensures_pure ⟨rfl, rfl⟩

theorem ensures_recoverState (config : StateMigrationConfig) (whole : Whole original d) :
    (recoverState config).run.Ensures (environment facts) (supported original) (Recovered original d) d := by
  have error : ∀ failure, failure ≠ .coded .recoveryAmbiguous → Recovered original d (.error failure) d :=
    fun failure other => ⟨whole, other⟩
  obtain ⟨place, there⟩ := whole
  have seen : ∀ other, (migrationPathState other).run.Ensures (environment facts) (supported original)
      (attempted (fun found after => after = d ∧ found = (decide (other = place), false))
        (Recovered original d)) d := by
    intro other
    refine (ensures_migrationPathState there other).mono ?_
    rintro result after ⟨rfl, outcome⟩
    cases result with
    | ok found => exact ⟨rfl, outcome⟩
    | error failure =>
      cases outcome
      exact error .plain nofun
  unfold recoverState
  refine ensures_attempt _ (seen .source) ?_
  rintro source after ⟨rfl, rfl⟩
  refine ensures_attempt _ (seen .destination) ?_
  rintro destination same ⟨rfl, rfl⟩
  cases place with
  | source =>
    refine ensures_looking ⟨.source, there⟩ keeps_validatePrivateState error fun _ => ?_
    exact ensures_removedAt there fun _ still => still
  | destination =>
    have verified : Keeps facts original true (recoded .verificationFailed (verifyMigratedState config)) :=
      keeps_recoded keeps_verifyMigratedState nofun
    refine ensures_looking ⟨.destination, there⟩ verified error fun _ => ?_
    exact ensures_removedAt there fun _ still => still

theorem ensures_recover (home : String) (config : StateMigrationConfig) (whole : Whole original d) :
    (recoverLegacyStateMigration home config).run.Ensures (environment facts) (supported original)
      (Recovered original d) d := by
  unfold recoverLegacyStateMigration
  refine ensures_attempt (fun journal after => after = d ∧ (journal = none → d.journal = none))
    ((ensures_openJournal whole).mono ?_) ?_
  · rintro result after ⟨rfl, clear, none⟩
    cases result with
    | ok journal => exact ⟨rfl, fun missing => none (congrArg ok missing)⟩
    | error failure => exact ⟨whole, fun same => clear (congrArg error same)⟩
  · rintro journal after ⟨rfl, missing⟩
    cases journal with
    | none => exact ensures_pure ⟨whole, missing rfl, missing rfl, rfl⟩
    | some journal => exact ensures_recoverState config whole

end

def programs (home : String) (history : List (Call × List Choice)) :
    List (Program (Except Failure MigrationStatus) × List Choice) :=
  history.map fun entry => (entry.1.program home, entry.2)

def legacyOnly (original : Content) : Disk Content where
  source := some (.directory 0 (some original))
  destination := none
  journal := none
  fresh := 1

theorem call_keeps (facts : Facts Content) (original : Content) (home : String) (call : Call)
    (whole : Whole original d) : (call.program home).Ensures (environment facts) (supported original)
      (fun _ after => Whole original after) d := by
  cases call with
  | apply config plan retain =>
    exact (keeps_applyLegacyStateMigration d whole).mono fun _ _ all => all.1
  | finalize config => exact (keeps_finalizeLegacyStateMigration d whole).mono fun _ _ all => all.1
  | rollbackPrepared config =>
    exact (keeps_rollbackPreparedLegacyStateMigration d whole).mono fun _ _ all => all.1
  | recover config => exact (ensures_recover home config whole).mono fun _ _ all => all.1

/-- From a legacy state alone, over any calls that failed or were cut off anywhere, on a file system
that supports the rename: the state is whole around every step, and a recovery then does not find
it ambiguous, and when it succeeds it leaves no journal and says where the state is. -/
theorem migration_loses_nothing (facts : Facts Content) (original : Content) (home : String)
    (history : List (Call × List Choice))
    (permitted : SessionPermitted (environment facts) (supported original) (programs home history)
      (legacyOnly original)) :
    (∀ e ∈ sessionEvents (environment facts) (programs home history) (legacyOnly original),
      Whole original e.before ∧ Whole original e.after) ∧
    ∀ (config : StateMigrationConfig) (choices : List Choice) (result : Except Failure MigrationStatus)
      (after : Disk Content),
      ((Call.recover config).program home).Permitted (environment facts) (supported original) choices
        (sessionState (environment facts) (programs home history) (legacyOnly original)) →
      ((Call.recover config).program home).run (environment facts) choices
        (sessionState (environment facts) (programs home history) (legacyOnly original)) = (some result, after) →
      result ≠ .error (.coded .recoveryAmbiguous) ∧
      ∀ status, result = .ok status → after.journal = none ∧
        Located original (sessionState (environment facts) (programs home history) (legacyOnly original)) after
          status := by
  have start : Whole original (legacyOnly original) := ⟨.source, ⟨0, rfl⟩, rfl⟩
  have kept := session_keeps (fun entry member d held => ?_) start permitted
  · refine ⟨kept.1, fun config choices result after allowed returned => ?_⟩
    have final := ((ensures_recover home config kept.2).run allowed).2
    have ended : Process.run (environment facts) (recoverLegacyStateMigration home config).run choices _ =
        (some result, after) := returned
    rw [ended] at final
    cases result with
    | ok status =>
      refine ⟨nofun, fun other same => ?_⟩
      cases same
      exact final.2
    | error failure => exact ⟨fun same => final.2 (error.inj same), nofun⟩
  · obtain ⟨⟨call, choices⟩, _, rfl⟩ := mem_map.mp member
    exact call_keeps facts original home call held

def sampleFacts : Facts String := ⟨fun _ => .regular, fun _ => true, fun _ _ => (1000, 1000)⟩

def sampleConfig : StateMigrationConfig := ⟨true, 1000, 1000, 1000, 1000⟩

def doneChoice : Choice := ⟨none, false, second⟩

def unsupportedChoice : Choice := ⟨some .unsupported, false, second⟩

def sampleApply (choices : List Choice) : List (Call × List Choice) :=
  [(.apply sampleConfig (neededStateMigrationPlan "/home/edge") false, choices)]

/-- An application that is cut off right after the rename is completed by a recovery. -/
theorem migration_loses_nothing_sample :
    ∃ after : Disk String, after.journal = none ∧ At "state" after .destination := by
  have supportedChoices : ∀ choice ∈ replicate 29 doneChoice, choice = doneChoice :=
    fun _ member => eq_of_mem_replicate member
  have free : ∀ (s : Step) (choice : Choice) (d : Disk String), choice = doneChoice →
      (supported "state").may s choice d := by
    rintro s choice d rfl
    cases s with
    | renameNoReplace => exact nofun
    | _ => trivial
  have all : ∀ entry ∈ programs "/home/edge" (sampleApply (replicate 29 doneChoice)), ∀ choice ∈ entry.2,
      choice = doneChoice := by
    intro entry member
    cases mem_singleton.mp member
    exact supportedChoices
  have kept := (migration_loses_nothing sampleFacts "state" "/home/edge" (sampleApply (replicate 29 doneChoice))
    (sessionPermitted_of_choices free all _)).2 sampleConfig
    (replicate 29 doneChoice) (.ok .recoveredComplete) _ (permitted_of_choices free _ supportedChoices _)
    (Prod.ext (by decide +kernel) rfl)
  exact ⟨_, kept.2 .recoveredComplete rfl⟩

/-- The rename is not supported, and the process died after it made the empty directory. -/
def strandedDisk : Disk String :=
  sessionState (environment sampleFacts)
    (programs "/home/edge"
      (sampleApply (replicate 28 doneChoice ++ unsupportedChoice :: replicate 3 doneChoice)))
    (legacyOnly "state")

theorem migration_stranded : ¬ Whole "state" strandedDisk ∧
    (((Call.recover sampleConfig).program "/home/edge").run (environment sampleFacts) (replicate 20 doneChoice)
      strandedDisk).1 = some (.error (.coded .recoveryAmbiguous)) := by
  refine ⟨?_, by decide +kernel⟩
  rintro ⟨place, there⟩
  have source : strandedDisk.source ≠ none := by decide +kernel
  have destination : strandedDisk.destination ≠ none := by decide +kernel
  cases place with
  | source => exact destination there.2
  | destination => exact source there.1

end Aeontra.Edgelifecycle
