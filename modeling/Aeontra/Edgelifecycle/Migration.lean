import Aeontra.Library.Instant
import Aeontra.Library.Process

/-!
The move of the legacy state directory of an edge (`internal/edgelifecycle/migration.go`,
`migration_transaction.go` and `migration_unix.go`) as programs that ask the file system one
step at a time.

Every step may fail, and a program may be cut off between any two of them.  Renames are atomic.
The journal's bytes stand for the journal that was marshalled into them.  Facts about the
surroundings (links above the paths, the other roots of an inventory) are chosen freely.
-/

namespace Aeontra.Edgelifecycle

open Library
open Library.Process (perform)

inductive MigrationStage
  | prepared
  | renamed
  | verified
  deriving DecidableEq

inductive MigrationStatus
  | notNeeded
  | prepared
  | migrated
  | recoveredComplete
  | recoveredRollback
  deriving DecidableEq

inductive MigrationErrorCode
  | inventoryBlocked
  | stateInvalid
  | ownerMismatch
  | wrongExecutor
  | planChanged
  | journalExists
  | journalInvalid
  | prepareFailed
  | renameFailed
  | verificationFailed
  | rollbackFailed
  | recoveryAmbiguous
  deriving DecidableEq

/-- An error with the code of the migration, or one that is passed on. -/
inductive Failure
  | coded (code : MigrationErrorCode)
  | plain
  deriving DecidableEq

inductive MigrationDisposition
  | none
  | legacyToPreferred
  | blocked
  deriving DecidableEq

def stateMigrationVersion : Nat := 1

structure StateMigrationPlan where
  version : Nat
  needed : Bool
  kind : MigrationDisposition
  source : String
  destination : String
  journalPath : String
  deriving DecidableEq

structure MigrationJournal where
  version : Nat
  kind : MigrationDisposition
  source : String
  destination : String
  stage : MigrationStage
  createdAt : Time
  updatedAt : Time
  deriving DecidableEq

/-- The configuration of a call for one home directory, and who runs it. -/
structure StateMigrationConfig where
  inventoryValid : Bool
  expectedUID : Int
  expectedGID : Int
  euid : Int
  egid : Int
  deriving DecidableEq

inductive Place
  | source
  | destination
  deriving DecidableEq

inductive File
  | root
  | identity
  | key
  deriving DecidableEq

/-- What `identity.json` is. -/
inductive Marker
  | absent
  | regular
  | symlink
  deriving DecidableEq

/-- What stands at a place: a directory with its identity, empty or with contents, or something else. -/
inductive Node (Content : Type)
  | directory (id : Nat) (content : Option Content)
  | file
  | symlink
  deriving DecidableEq

/-- The journal with its owner and whether it is a private regular file. -/
structure JournalFile where
  journal : MigrationJournal
  owner : Int × Int
  isPrivate : Bool
  deriving DecidableEq

structure Disk (Content : Type) where
  source : Option (Node Content)
  destination : Option (Node Content)
  journal : Option JournalFile
  fresh : Nat
  deriving DecidableEq

/-- What the contents of a state directory are to the checks. -/
structure Facts (Content : Type) where
  marker : Content → Marker
  identity : Content → Bool
  owner : Content → File → Int × Int

structure PathStatus where
  isSymlink : Bool
  isPresent : Bool
  symlinkAncestor : Bool
  identityPresent : Bool
  identityMarkerSymlink : Bool
  deriving DecidableEq

inductive Stat
  | missing
  | failed
  | directory (id : Nat)
  | other
  deriving DecidableEq

inductive JournalStat
  | missing
  | failed
  | found (file : JournalFile)
  deriving DecidableEq

inductive RenameResult
  | done
  | present
  | unsupported
  | failed
  deriving DecidableEq

inductive TemporaryAction
  | create
  | chmod
  | write
  | sync
  | close
  deriving DecidableEq

inductive Step
  | inspectSourceAncestors
  | inspectDestinationAncestors
  | inspectJournalAncestors
  | inspectPath (place : Place)
  | inspectRest
  | loadIdentity (place : Place)
  | requireOwned (place : Place) (file : File) (uid gid : Int)
  | lstat (place : Place)
  | lstatJournal
  | requireOwnedJournal (uid gid : Int)
  | readJournal
  | makeParent
  | parentSafe
  | parentOwned
  | temporary (action : TemporaryAction)
  | lstatTemporary
  | placeJournal (replace : Bool) (file : JournalFile)
  | removeTemporary
  | syncParent
  | removeJournal
  | now
  | hook
  | renameNoReplace (origin target : Place)
  | makeDirectory (place : Place)
  | readDirectory (place : Place)
  | exchange (origin target : Place)
  | removeDirectory (place : Place)
  deriving DecidableEq

abbrev Step.Answer : Step → Type
  | .inspectSourceAncestors => Option Bool
  | .inspectDestinationAncestors => Option Bool
  | .inspectJournalAncestors => Option Bool
  | .inspectPath _ => Option PathStatus
  | .lstat _ => Stat
  | .lstatJournal => JournalStat
  | .readJournal => Option MigrationJournal
  | .placeJournal _ _ => RenameResult
  | .removeTemporary => Unit
  | .now => Time
  | .renameNoReplace _ _ => RenameResult
  | .readDirectory _ => Option Bool
  | _ => Bool

abbrev Program := Process Step Step.Answer

abbrev Attempt := ExceptT Failure Program

/-- How a step fails: the flag of a rename is not supported, or anything else. -/
inductive Fault
  | unsupported
  | other
  deriving DecidableEq

/-- Whether a step fails, whether a path has a link above it, and what time it is. -/
structure Choice where
  fault : Option Fault
  linked : Bool
  time : Time
  deriving DecidableEq

def Choice.ok (choice : Choice) : Bool := choice.fault.isNone

section

variable {Content : Type}

namespace Disk

def node (d : Disk Content) : Place → Option (Node Content)
  | .source => d.source
  | .destination => d.destination

def setNode (d : Disk Content) (node : Option (Node Content)) : Place → Disk Content
  | .source => { d with source := node }
  | .destination => { d with destination := node }

def content (d : Disk Content) (place : Place) : Option Content :=
  match d.node place with
  | some (.directory _ content) => content
  | _ => none

def stat (d : Disk Content) (place : Place) : Stat :=
  match d.node place with
  | none => .missing
  | some (.directory id _) => .directory id
  | some _ => .other

def isEmpty (d : Disk Content) (place : Place) : Option Bool :=
  match d.node place with
  | some (.directory _ content) => some content.isNone
  | _ => none

def placed (d : Disk Content) (replace : Bool) (file : JournalFile) : Option Fault → RenameResult × Disk Content
  | some .unsupported => (.unsupported, d)
  | some .other => (.failed, d)
  | none => if replace || d.journal.isNone then (.done, { d with journal := some file }) else (.present, d)

def renamed (d : Disk Content) (origin target : Place) : Option Fault → RenameResult × Disk Content
  | some .unsupported => (.unsupported, d)
  | some .other => (.failed, d)
  | none =>
    match d.node origin, d.node target with
    | none, _ => (.failed, d)
    | some _, some _ => (.present, d)
    | some node, none => (.done, (d.setNode (some node) target).setNode none origin)

end Disk

def pathStatus (facts : Facts Content) (linked : Bool) : Option (Node Content) → PathStatus
  | none => ⟨false, false, linked, false, false⟩
  | some .symlink => ⟨true, true, linked, false, false⟩
  | some .file => ⟨false, true, linked, false, false⟩
  | some (.directory _ content) =>
    let marker := (content.map facts.marker).getD .absent
    ⟨false, true, linked, marker == .regular, marker == .symlink⟩

def react (facts : Facts Content) : (step : Step) → Choice → Disk Content → step.Answer × Disk Content
  | .inspectSourceAncestors, choice, d => (if choice.ok then some choice.linked else none, d)
  | .inspectDestinationAncestors, choice, d => (if choice.ok then some choice.linked else none, d)
  | .inspectJournalAncestors, choice, d => (if choice.ok then some choice.linked else none, d)
  | .inspectPath place, choice, d =>
    (if choice.ok then some (pathStatus facts choice.linked (d.node place)) else none, d)
  | .inspectRest, choice, d => (choice.ok, d)
  | .loadIdentity place, choice, d => (choice.ok && (d.content place).any facts.identity, d)
  | .requireOwned place file uid gid, choice, d =>
    (choice.ok && (d.content place).any fun content => facts.owner content file == (uid, gid), d)
  | .lstat place, choice, d => (if choice.ok then d.stat place else .failed, d)
  | .lstatJournal, choice, d => (if choice.ok then d.journal.elim .missing .found else .failed, d)
  | .requireOwnedJournal uid gid, choice, d => (choice.ok && d.journal.any fun file => file.owner == (uid, gid), d)
  | .readJournal, choice, d => (if choice.ok then d.journal.map JournalFile.journal else none, d)
  | .makeParent, choice, d => (choice.ok, d)
  | .parentSafe, choice, d => (choice.ok, d)
  | .parentOwned, choice, d => (choice.ok, d)
  | .temporary _, choice, d => (choice.ok, d)
  | .lstatTemporary, choice, d => (choice.ok, d)
  | .placeJournal replace file, choice, d => d.placed replace file choice.fault
  | .removeTemporary, _, d => ((), d)
  | .syncParent, choice, d => (choice.ok, d)
  | .removeJournal, choice, d => (choice.ok, if choice.ok then { d with journal := none } else d)
  | .now, choice, d => (choice.time, d)
  | .hook, choice, d => (choice.ok, d)
  | .renameNoReplace origin target, choice, d => d.renamed origin target choice.fault
  | .makeDirectory place, choice, d =>
    if choice.ok && (d.node place).isNone then
      (true, { d.setNode (some (.directory d.fresh none)) place with fresh := d.fresh + 1 })
    else (false, d)
  | .readDirectory place, choice, d => (if choice.ok then d.isEmpty place else none, d)
  | .exchange origin target, choice, d =>
    if choice.ok && (d.node origin).isSome && (d.node target).isSome then
      (true, (d.setNode (d.node origin) target).setNode (d.node target) origin)
    else (false, d)
  | .removeDirectory place, choice, d =>
    if choice.ok && d.isEmpty place == some true then (true, d.setNode none place) else (false, d)

def environment (facts : Facts Content) : Environment Step Step.Answer (Disk Content) Choice := ⟨react facts⟩

end

def step (s : Step) : Attempt s.Answer := ExceptT.lift (perform s)

def fail {α : Type} (code : MigrationErrorCode) : Attempt α := throw (.coded code)

def require (condition : Bool) (code : MigrationErrorCode) : Attempt Unit := if condition then pure () else fail code

def demand (s : Attempt Bool) (code : MigrationErrorCode) : Attempt Unit := do
  let done ← s
  require done code

def recoded {α : Type} (code : MigrationErrorCode) (program : Attempt α) : Attempt α := do
  let result ← ExceptT.lift program.run
  match result with
  | .ok a => pure a
  | .error _ => fail code

def normalizeStateMigrationConfig (config : StateMigrationConfig) : Attempt Unit := do
  require (0 ≤ config.expectedUID && 0 ≤ config.expectedGID) .ownerMismatch
  require config.inventoryValid .inventoryBlocked

def canonicalStateMigrationPlan (home : String) : StateMigrationPlan where
  version := stateMigrationVersion
  needed := false
  kind := .none
  source := home ++ "/.config/mcp-devbox-edge"
  destination := home ++ "/.local/state/mcp-edge"
  journalPath := home ++ "/.local/state/.mcp-edge-state-migration-v1.json"

def neededStateMigrationPlan (home : String) : StateMigrationPlan :=
  { canonicalStateMigrationPlan home with needed := true, kind := .legacyToPreferred }

def validateMigrationPathAncestors : Attempt Unit := do
  let source ← step .inspectSourceAncestors
  require (source == some false) .inventoryBlocked
  let destination ← step .inspectDestinationAncestors
  require (destination == some false) .inventoryBlocked
  let journal ← step .inspectJournalAncestors
  require (journal == some false) .inventoryBlocked

def validatePrivateState (place : Place) (config : StateMigrationConfig) : Attempt Unit := do
  demand (step (.loadIdentity place)) .stateInvalid
  demand (step (.requireOwned place .root config.expectedUID config.expectedGID)) .ownerMismatch
  demand (step (.requireOwned place .identity config.expectedUID config.expectedGID)) .ownerMismatch
  demand (step (.requireOwned place .key config.expectedUID config.expectedGID)) .ownerMismatch

/-- Whether the state may be moved; the blockers of the other roots have no say in it. -/
def migrationDisposition (preferred legacy : PathStatus) : MigrationDisposition :=
  if preferred.isSymlink || legacy.isSymlink || preferred.symlinkAncestor || legacy.symlinkAncestor ||
      preferred.identityMarkerSymlink || legacy.identityMarkerSymlink ||
      (preferred.identityPresent && legacy.identityPresent) ||
      (legacy.identityPresent && preferred.isPresent && !preferred.identityPresent) then .blocked
  else if legacy.identityPresent && !preferred.identityPresent then .legacyToPreferred
  else .none

def inspected : Option PathStatus → Attempt PathStatus
  | some status => pure status
  | none => fail .inventoryBlocked

def inspectLayout : Attempt MigrationDisposition := do
  let preferred ← step (.inspectPath .destination)
  let preferred ← inspected preferred
  let legacy ← step (.inspectPath .source)
  let legacy ← inspected legacy
  demand (step .inspectRest) .inventoryBlocked
  pure (migrationDisposition preferred legacy)

def planMove (home : String) (config : StateMigrationConfig) : Attempt StateMigrationPlan := do
  validatePrivateState .source config
  let journal ← step .lstatJournal
  match journal with
  | .found _ => fail .journalExists
  | .failed => fail .journalInvalid
  | .missing => pure (neededStateMigrationPlan home)

def planLegacyStateMigration (home : String) (config : StateMigrationConfig) : Attempt StateMigrationPlan := do
  normalizeStateMigrationConfig config
  let disposition ← inspectLayout
  match disposition with
  | .blocked => fail .inventoryBlocked
  | .none => pure (canonicalStateMigrationPlan home)
  | .legacyToPreferred => planMove home config

def ensurePrivateMigrationParent : Attempt Unit := do
  let linked ← step .inspectDestinationAncestors
  require (linked == some false) .prepareFailed
  demand (step .makeParent) .prepareFailed
  demand (step .parentSafe) .prepareFailed
  demand (step .parentOwned) .ownerMismatch
  let destination ← step (.lstat .destination)
  match destination with
  | .missing => pure ()
  | .failed => fail .prepareFailed
  | _ => fail .planChanged

def newMigrationJournal (plan : StateMigrationPlan) (stage : MigrationStage) (now : Time) : MigrationJournal :=
  ⟨plan.version, plan.kind, plan.source, plan.destination, stage, now, now⟩

def validMigrationJournal (plan : StateMigrationPlan) (journal : MigrationJournal) : Bool :=
  journal.version == plan.version && journal.kind == .legacyToPreferred && journal.source == plan.source &&
    journal.destination == plan.destination && journal.createdAt != zeroTime && journal.updatedAt != zeroTime

def checkExistingJournal (config : StateMigrationConfig) (exclusive : Bool) : Attempt Unit := do
  let existing ← step .lstatJournal
  match existing with
  | .missing => pure ()
  | .failed => fail .journalInvalid
  | .found file => do
    require (!exclusive) .journalExists
    require file.isPrivate .journalInvalid
    demand (step (.requireOwnedJournal config.expectedUID config.expectedGID)) .ownerMismatch

/-- The temporary file is made, and gone again whatever happens; only its rename is seen by others. -/
def placeTemporary (journal : MigrationJournal) (config : StateMigrationConfig) (exclusive : Bool) : Attempt Unit := do
  demand (step (.temporary .chmod)) .prepareFailed
  demand (step (.temporary .write)) .prepareFailed
  demand (step (.temporary .sync)) .prepareFailed
  demand (step (.temporary .close)) .prepareFailed
  demand (step .lstatTemporary) .ownerMismatch
  require (config.euid == config.expectedUID && config.egid == config.expectedGID) .ownerMismatch
  let placed ← step (.placeJournal (!exclusive) ⟨journal, (config.euid, config.egid), true⟩)
  match placed, exclusive with
  | .done, _ => demand (step .syncParent) .prepareFailed
  | .present, true => fail .journalExists
  | _, true => fail .prepareFailed
  | _, false => fail .journalInvalid

def writeMigrationJournal (journal : MigrationJournal) (config : StateMigrationConfig) (exclusive : Bool) :
    Attempt Unit := do
  checkExistingJournal config exclusive
  demand (step (.temporary .create)) .prepareFailed
  let result ← ExceptT.lift (placeTemporary journal config exclusive).run
  step .removeTemporary
  ExceptT.mk (pure result)

def readMigrationJournal (config : StateMigrationConfig) : Attempt MigrationJournal := do
  let info ← step .lstatJournal
  match info with
  | .found file => do
    require file.isPrivate .journalInvalid
    demand (step (.requireOwnedJournal config.expectedUID config.expectedGID)) .ownerMismatch
    let content ← step .readJournal
    match content with
    | some journal => pure journal
    | none => fail .journalInvalid
  | _ => fail .journalInvalid

def verifyMigratedState (config : StateMigrationConfig) : Attempt Unit := do
  let source ← step (.lstat .source)
  match source with
  | .missing => validatePrivateState .destination config
  | _ => throw .plain

def removeRenamePlaceholder (place : Place) (expected : Nat) : Attempt Unit := do
  let current ← step (.lstat place)
  if current = .directory expected then do
    let isEmpty ← step (.readDirectory place)
    if isEmpty = some true then do
      let _ ← step (.removeDirectory place)
      pure ()
    else pure ()
  else pure ()

/-- The end of the exchange: the empty directory is at the origin now and goes. -/
def removeMovedPlaceholder (origin : Place) (placeholder : Nat) : Attempt Bool := do
  let moved ← step (.lstat origin)
  if moved = .directory placeholder then do
    let isEmpty ← step (.readDirectory origin)
    if isEmpty = some true then step (.removeDirectory origin) else pure false
  else pure false

def exchangePlaceholder (origin target : Place) (placeholder : Nat) : Attempt Bool := do
  let isEmpty ← step (.readDirectory target)
  if isEmpty = some true then do
    let exchanged ← step (.exchange origin target)
    if exchanged then removeMovedPlaceholder origin placeholder
    else do
      removeRenamePlaceholder target placeholder
      pure false
  else do
    removeRenamePlaceholder target placeholder
    pure false

def portableDirectoryRenameNoReplace (origin target : Place) : Attempt Bool := do
  let existing ← step (.lstat target)
  match existing with
  | .missing => do
    let made ← step (.makeDirectory target)
    if made then do
      let placeholder ← step (.lstat target)
      match placeholder with
      | .directory id => exchangePlaceholder origin target id
      | _ => pure false
    else pure false
  | _ => pure false

def renameNoReplace (origin target : Place) : Attempt Bool := do
  let renamed ← step (.renameNoReplace origin target)
  match renamed with
  | .done => pure true
  | .unsupported => do
    let info ← step (.lstat origin)
    match info with
    | .directory _ => portableDirectoryRenameNoReplace origin target
    | _ => pure false
  | _ => pure false

def removeMigrationJournal : Attempt Unit := do
  demand (step .removeJournal) .journalInvalid
  demand (step .syncParent) .journalInvalid

def migrationPathState (place : Place) : Attempt (Bool × Bool) := do
  let info ← step (.lstat place)
  match info with
  | .missing => pure (false, false)
  | .failed => throw .plain
  | .directory _ => pure (true, false)
  | .other => pure (true, true)

def moveBack (destinationExists : Bool) : Attempt Unit :=
  if destinationExists then do
    let renamed ← renameNoReplace .destination .source
    if renamed then pure () else throw .plain
  else pure ()

def rollbackStateMigration (config : StateMigrationConfig) : Attempt Unit := do
  let (sourceExists, sourceUnsafe) ← migrationPathState .source
  let (destinationExists, destinationUnsafe) ← migrationPathState .destination
  if sourceUnsafe || destinationUnsafe || sourceExists == destinationExists then throw .plain
  else do
    moveBack destinationExists
    validatePrivateState .source config
    removeMigrationJournal

/-- The part of a migration that is rolled back when it fails. -/
def moveState (config : StateMigrationConfig) (journal : MigrationJournal) : Attempt Unit := do
  demand (step .hook) .prepareFailed
  demand (renameNoReplace .source .destination) .renameFailed
  let now ← step .now
  writeMigrationJournal { journal with stage := .renamed, updatedAt := now } config false
  demand (step .hook) .renameFailed
  recoded .verificationFailed (verifyMigratedState config)
  let now ← step .now
  writeMigrationJournal { journal with stage := .verified, updatedAt := now } config false
  demand (step .hook) .verificationFailed

/-- Roll back and give the error of the migration, or the one that the rollback failed. -/
def rolledBack {α : Type} (config : StateMigrationConfig) (failure : Failure) : Attempt α := do
  let result ← ExceptT.lift (rollbackStateMigration config).run
  match result with
  | .ok _ => throw failure
  | .error _ => fail .rollbackFailed

/-- The part of a migration after its plan was found to be the expected one. -/
def applyPlan (config : StateMigrationConfig) (plan : StateMigrationPlan) (retainVerifiedJournal : Bool) :
    Attempt MigrationStatus := do
  ensurePrivateMigrationParent
  let now ← step .now
  let journal := newMigrationJournal plan .prepared now
  writeMigrationJournal journal config true
  let result ← ExceptT.lift (moveState config journal).run
  match result with
  | .error failure => rolledBack config failure
  | .ok _ =>
    if retainVerifiedJournal then pure .prepared
    else do
      removeMigrationJournal
      pure .migrated

/-- The plan that is expected now, with the error that the caller gets when there is none. -/
def expectedPlan (home : String) (config : StateMigrationConfig) (plan : StateMigrationPlan) :
    Attempt StateMigrationPlan := do
  let result ← ExceptT.lift (planLegacyStateMigration home config).run
  match result with
  | .ok expected => pure expected
  | .error failure =>
    if failure = .coded .journalExists then throw failure
    else if plan.needed then fail .planChanged
    else throw failure

def applyLegacyStateMigration (home : String) (config : StateMigrationConfig) (plan : StateMigrationPlan)
    (retainVerifiedJournal : Bool) : Attempt MigrationStatus := do
  normalizeStateMigrationConfig config
  require (config.euid == config.expectedUID) .wrongExecutor
  validateMigrationPathAncestors
  let expected ← expectedPlan home config plan
  require (expected == plan) .planChanged
  if plan.needed then applyPlan config plan retainVerifiedJournal else pure .notNeeded

/-- What every call but an application starts with: the journal, if there is one. -/
def openJournal (home : String) (config : StateMigrationConfig) : Attempt (Option MigrationJournal) := do
  normalizeStateMigrationConfig config
  require (config.euid == config.expectedUID) .wrongExecutor
  validateMigrationPathAncestors
  let info ← step .lstatJournal
  match info with
  | .missing => pure none
  | .failed => fail .journalInvalid
  | .found _ => do
    let journal ← readMigrationJournal config
    require (validMigrationJournal (canonicalStateMigrationPlan home) journal) .journalInvalid
    pure (some journal)

def recoverPlaces (config : StateMigrationConfig) (sourceExists destinationExists : Bool) :
    Attempt MigrationStatus :=
  match sourceExists, destinationExists with
  | true, false => do
    validatePrivateState .source config
    removeMigrationJournal
    pure .recoveredRollback
  | false, true => do
    recoded .verificationFailed (verifyMigratedState config)
    removeMigrationJournal
    pure .recoveredComplete
  | _, _ => fail .recoveryAmbiguous

def recoverState (config : StateMigrationConfig) : Attempt MigrationStatus := do
  let (sourceExists, sourceUnsafe) ← migrationPathState .source
  let (destinationExists, destinationUnsafe) ← migrationPathState .destination
  if sourceUnsafe || destinationUnsafe then fail .recoveryAmbiguous
  else recoverPlaces config sourceExists destinationExists

def recoverLegacyStateMigration (home : String) (config : StateMigrationConfig) : Attempt MigrationStatus := do
  let journal ← openJournal home config
  match journal with
  | none => pure .notNeeded
  | some _ => recoverState config

def finalizeLegacyStateMigration (home : String) (config : StateMigrationConfig) : Attempt MigrationStatus := do
  let journal ← openJournal home config
  match journal with
  | none => pure .notNeeded
  | some journal => do
    require (journal.stage == .verified) .journalInvalid
    recoded .verificationFailed (verifyMigratedState config)
    removeMigrationJournal
    pure .migrated

def rollbackPreparedLegacyStateMigration (home : String) (config : StateMigrationConfig) :
    Attempt MigrationStatus := do
  let journal ← openJournal home config
  match journal with
  | none => pure .notNeeded
  | some journal => do
    require (journal.stage == .verified) .journalInvalid
    recoded .rollbackFailed (rollbackStateMigration config)
    pure .recoveredRollback

inductive Call
  | apply (config : StateMigrationConfig) (plan : StateMigrationPlan) (retainVerifiedJournal : Bool)
  | finalize (config : StateMigrationConfig)
  | rollbackPrepared (config : StateMigrationConfig)
  | recover (config : StateMigrationConfig)
  deriving DecidableEq

def Call.program (home : String) : Call → Program (Except Failure MigrationStatus)
  | .apply config plan retainVerifiedJournal => (applyLegacyStateMigration home config plan retainVerifiedJournal).run
  | .finalize config => (finalizeLegacyStateMigration home config).run
  | .rollbackPrepared config => (rollbackPreparedLegacyStateMigration home config).run
  | .recover config => (recoverLegacyStateMigration home config).run

end Aeontra.Edgelifecycle
