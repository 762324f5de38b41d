import Aeontra.Bundle.Release
import Aeontra.Library.Dictionary
import Aeontra.Library.Process

/-!
The bundle updater of an edge (`internal/edgeupdate/updater_unix.go`) as a program that asks
the file system under its root, the staged source and the service one step at a time.

A link is the name of the release directory that it leads to, and empty when it is absent.  A step
that writes may fail without effect, and the program may be cut off between any two steps.
Deleting a directory takes two, since a partial deletion leaves a directory with other contents.
Hidden directories have fresh names in every call.
-/

namespace Aeontra.Edgeupdate

open Library
open Library.Process (perform)
open Aeontra.Bundle

inductive Entry (Content : Type)
  | directory (content : Content)
  | other
  deriving DecidableEq

def Entry.isDir {Content : Type} : Entry Content → Bool
  | .directory _ => true
  | .other => false

inductive Link
  | current
  | previous
  deriving DecidableEq

structure Disk (Content : Type) where
  current : String := ""
  previous : String := ""
  releases : Dictionary String (Entry Content) := ∅
  staging : Option Content := none
  backup : Option (Entry Content) := none

inductive Purpose
  | restoring
  | pruning
  deriving DecidableEq

inductive Step
  | lock
  | readSource
  | readLink (link : Link)
  | stat (release : String)
  | makeReleases
  | stage
  | discardStaging
  | makeBackup
  | moveToBackup (release : String)
  | moveFromStaging (release : String)
  | moveFromBackup (release : String)
  | discardBackup
  | spoil (purpose : Purpose) (release : String)
  | remove (purpose : Purpose) (release : String)
  | setLink (link : Link) (release : String)
  | removeCurrent
  | readReleases
  | installUnit (release : String)
  | restartEdge
  | edgeHealthy
  deriving DecidableEq

section

variable {Content : Type}

abbrev Step.Answer (Content : Type) : Step → Type
  | .readSource => Content
  | .readLink _ => String
  | .stat _ => Option (Entry Content)
  | .stage => Option Content
  | .discardStaging => Unit
  | .discardBackup => Unit
  | .spoil _ _ => Unit
  | .readReleases => Option (List (String × Bool))
  | _ => Bool

abbrev Program (Content : Type) := Process Step (Step.Answer Content)

/-- Whether a write succeeds, what the service replies, and what a source, a copy or a partly deleted
directory holds. -/
structure Choice (Content : Type) where
  ok : Bool
  reply : Bool
  content : Content
  deriving DecidableEq

namespace Disk

def link (d : Disk Content) : Link → String
  | .current => d.current
  | .previous => d.previous

def setLink (d : Disk Content) (release : String) : Link → Disk Content
  | .current => { d with current := release }
  | .previous => { d with previous := release }

def isDirectory (d : Disk Content) (release : String) : Bool := (d.releases.read release).any Entry.isDir

def toBackup (d : Disk Content) (release : String) : Option (Disk Content) :=
  (d.releases.read release).map fun entry =>
    { d with backup := some entry, releases := d.releases.delete release }

def fromStaging (d : Disk Content) (release : String) : Option (Disk Content) :=
  match d.staging, d.releases.read release with
  | some content, none => some { d with staging := none, releases := d.releases.set release (.directory content) }
  | _, _ => none

def fromBackup (d : Disk Content) (release : String) : Option (Disk Content) :=
  match d.backup, d.releases.read release with
  | some entry, none => some { d with backup := none, releases := d.releases.set release entry }
  | _, _ => none

def spoil (d : Disk Content) (release : String) (content : Content) : Disk Content :=
  if d.isDirectory release then { d with releases := d.releases.set release (.directory content) } else d

end Disk

def moved (d : Disk Content) (ok : Bool) (result : Option (Disk Content)) : Bool × Disk Content :=
  match ok, result with
  | true, some after => (true, after)
  | _, _ => (false, d)

def react : (step : Step) → Choice Content → Disk Content → step.Answer Content × Disk Content
  | .lock, choice, d => (choice.ok, d)
  | .readSource, choice, d => (choice.content, d)
  | .readLink link, _, d => (d.link link, d)
  | .stat release, _, d => (d.releases.read release, d)
  | .makeReleases, choice, d => (choice.ok, d)
  | .stage, choice, d =>
    if choice.ok then (some choice.content, { d with staging := some choice.content }) else (none, d)
  | .discardStaging, _, d => ((), { d with staging := none })
  | .makeBackup, choice, d => (choice.ok, d)
  | .moveToBackup release, choice, d => moved d choice.ok (d.toBackup release)
  | .moveFromStaging release, choice, d => moved d choice.ok (d.fromStaging release)
  | .moveFromBackup release, choice, d => moved d choice.ok (d.fromBackup release)
  | .discardBackup, _, d => ((), { d with backup := none })
  | .spoil _ release, choice, d => ((), d.spoil release choice.content)
  | .remove _ release, choice, d =>
    (choice.ok, if choice.ok then { d with releases := d.releases.delete release } else d)
  | .setLink link release, choice, d => (choice.ok, if choice.ok then d.setLink release link else d)
  | .removeCurrent, choice, d => (choice.ok, if choice.ok then { d with current := "" } else d)
  | .readReleases, choice, d =>
    (if choice.ok then some (d.releases.entries.map fun e => (e.1, e.2.isDir)) else none, d)
  | .installUnit _, choice, d => (choice.reply, d)
  | .restartEdge, choice, d => (choice.reply, d)
  | .edgeHealthy, choice, d => (choice.reply, d)

def environment : Environment Step (Step.Answer Content) (Disk Content) (Choice Content) := ⟨react⟩

/-- Why a call fails: the code of a verification that failed is not kept. -/
inductive Failure
  | verification
  | refused (message : String)
  deriving DecidableEq

structure Status where
  release : String := ""
  previousRelease : String := ""
  serviceActive : Bool := false
  deriving DecidableEq

def errHealthCheck : Failure := .refused "edge health check failed; previous bundle restored"

def removeAll (purpose : Purpose) (release : String) : Program Content Bool := do
  perform (Step.spoil purpose release)
  perform (Step.remove purpose release)

def validateReleaseLink (release : String) : Program Content (Except Failure Unit) :=
  if release = "" then pure (.error (.refused "release link target is invalid"))
  else do
    let entry ← perform (Step.stat release)
    if entry.any Entry.isDir then pure (.ok ()) else pure (.error (.refused "signed release target is unavailable"))

def atomicLink (link : Link) (release : String) : Program Content (Except Failure Unit) := do
  let valid ← validateReleaseLink release
  match valid with
  | .error failure => pure (.error failure)
  | .ok _ => do
    let linked ← perform (Step.setLink link release)
    if linked then pure (.ok ()) else pure (.error (.refused "release link activation failed"))

def restoreLink (release : String) : Program Content Unit :=
  if release = "" then do
    let _ ← perform Step.removeCurrent
    pure ()
  else do
    let _ ← atomicLink .current release
    pure ()

def validateLink (release : String) : Program Content (Except Failure Unit) :=
  if release = "" then pure (.ok ()) else validateReleaseLink release

def statusFromLinks (service : Bool) : Program Content (Except Failure Status) := do
  let current ← perform (Step.readLink .current)
  let valid ← validateLink current
  match valid with
  | .error failure => pure (.error failure)
  | .ok _ => do
    let previous ← perform (Step.readLink .previous)
    let valid ← validateLink previous
    match valid with
    | .error failure => pure (.error failure)
    | .ok _ =>
      if service then do
        let active ← perform Step.edgeHealthy
        pure (.ok ⟨current, previous, active⟩)
      else pure (.ok ⟨current, previous, false⟩)

def pruneEach (v : Verifier Content) (keep : List String) : List (String × Bool) → Program Content Unit
  | [] => pure ()
  | (name, isDir) :: rest =>
    if isDir = false ∨ validRelease name = false ∨ name ∈ keep then pruneEach v keep rest
    else do
      let entry ← perform (Step.stat name)
      match entry with
      | some (.directory content) =>
        if (v.trusted content).isSome then do
          let removed ← removeAll .pruning name
          if removed then pruneEach v keep rest else pure ()
        else pruneEach v keep rest
      | _ => pruneEach v keep rest

def pruneOldReleases (v : Verifier Content) : Program Content Unit := do
  let status ← statusFromLinks false
  match status with
  | .error _ => pure ()
  | .ok status => do
    let entries ← perform Step.readReleases
    match entries with
    | none => pure ()
    | some entries => pruneEach v [status.release, status.previousRelease] entries

def stageSignedRelease (v : Verifier Content) (expected : Compatibility) : Program Content (Except Failure Unit) := do
  let staged ← perform Step.stage
  match staged with
  | none => pure (.error (.refused "release component staging failed"))
  | some content =>
    if v.trusted content = some expected then pure (.ok ())
    else do
      perform Step.discardStaging
      pure (.error .verification)

/-- Give the staged copy the place of a release that is not what it should be. -/
def repairRelease (v : Verifier Content) (expected : Compatibility) : Program Content (Except Failure Unit) := do
  let staged ← stageSignedRelease v expected
  match staged with
  | .error failure => pure (.error failure)
  | .ok _ => do
    let made ← perform Step.makeBackup
    if made then do
      let aside ← perform (Step.moveToBackup expected.release)
      if aside then do
        let placed ← perform (Step.moveFromStaging expected.release)
        if placed then pure (.ok ())
        else do
          let _ ← perform (Step.moveFromBackup expected.release)
          perform Step.discardStaging
          pure (.error (.refused "release repair activation failed"))
      else do
        perform Step.discardStaging
        pure (.error (.refused "invalid release backup failed"))
    else do
      perform Step.discardStaging
      pure (.error (.refused "release repair backup unavailable"))

def addRelease (v : Verifier Content) (expected : Compatibility) : Program Content (Except Failure Unit) := do
  let staged ← stageSignedRelease v expected
  match staged with
  | .error failure => pure (.error failure)
  | .ok _ => do
    let placed ← perform (Step.moveFromStaging expected.release)
    if placed then pure (.ok ())
    else do
      perform Step.discardStaging
      pure (.error (.refused "release activation staging failed"))

/-- See to it that the release is there, and say whether another one was put aside for it. -/
def placeRelease (v : Verifier Content) (expected : Compatibility) (replaceInvalidActive : Bool) :
    Program Content (Except Failure Bool) := do
  let made ← perform Step.makeReleases
  if made then do
    let found ← perform (Step.stat expected.release)
    match found with
    | some .other => pure (.error (.refused "existing release path is unsafe"))
    | some (.directory content) =>
      if v.trusted content = some expected then pure (.ok false)
      else if replaceInvalidActive then do
        let repaired ← repairRelease v expected
        pure (repaired.map fun _ => true)
      else pure (.error .verification)
    | none => do
      let added ← addRelease v expected
      pure (added.map fun _ => false)
  else pure (.error (.refused "release directory unavailable"))

def restoreReplaced (release : String) (replaced : Bool) : Program Content Unit :=
  if replaced then do
    let _ ← removeAll .restoring release
    let _ ← perform (Step.moveFromBackup release)
    pure ()
  else pure ()

def installUnit (service : Bool) (release : String) : Program Content Bool :=
  if service then perform (Step.installUnit release) else pure false

def reinstallUnit (service : Bool) (release : String) : Program Content Unit :=
  if release ≠ "" ∧ service = true then do
    let _ ← perform (Step.installUnit release)
    pure ()
  else pure ()

def discardReplaced (replaced : Bool) : Program Content Unit :=
  if replaced then perform Step.discardBackup else pure ()

def finishInstall (v : Verifier Content) (replaced : Bool) : Program Content (Except Failure Status) := do
  let status ← statusFromLinks true
  match status with
  | .error failure => pure (.error failure)
  | .ok status => do
    discardReplaced replaced
    pruneOldReleases v
    pure (.ok status)

def undoInstall (service : Bool) (release old : String) (replaced restart : Bool) : Program Content Unit := do
  restoreLink old
  restoreReplaced release replaced
  reinstallUnit service old
  if restart ∧ service = true then do
    let _ ← perform Step.restartEdge
    pure ()
  else pure ()

def startService (v : Verifier Content) (service : Bool) (release old : String) (replaced : Bool) :
    Program Content (Except Failure Status) := do
  let installed ← installUnit service release
  if installed then do
    let restarted ← perform Step.restartEdge
    if restarted then do
      let healthy ← perform Step.edgeHealthy
      if healthy then finishInstall v replaced
      else do
        undoInstall service release old replaced true
        pure (.error errHealthCheck)
    else do
      undoInstall service release old replaced (old ≠ "")
      pure (.error (.refused "edge restart failed; previous bundle restored"))
  else do
    undoInstall service release old replaced false
    pure (.error (.refused "edge unit activation failed; previous bundle restored"))

def switchLinks (release old : String) : Program Content (Except Failure Unit) :=
  if old = "" then atomicLink .current release
  else do
    let kept ← atomicLink .previous old
    match kept with
    | .error failure => pure (.error failure)
    | .ok _ => atomicLink .current release

def activate (v : Verifier Content) (service : Bool) (release : String) (replaceInvalidActive replaced : Bool) :
    Program Content (Except Failure Status) := do
  let old ← perform (Step.readLink .current)
  if replaceInvalidActive then startService v service release old replaced
  else do
    let switched ← switchLinks release old
    match switched with
    | .error failure => pure (.error failure)
    | .ok _ => startService v service release old replaced

def installRelease (v : Verifier Content) (service : Bool) (expected : Compatibility) (replaceInvalidActive : Bool) :
    Program Content (Except Failure Status) := do
  let placed ← placeRelease v expected replaceInvalidActive
  match placed with
  | .error failure => pure (.error failure)
  | .ok replaced => activate v service expected.release replaceInvalidActive replaced

/-- The part of an installation after the order of the releases was checked. -/
def installOver (v : Verifier Content) (service : Bool) (expected : Compatibility) (raw : String) (before : Status) :
    Program Content (Except Failure Status) :=
  if before.release = expected.release then do
    let active ← perform (Step.stat expected.release)
    match active with
    | some (.directory content) =>
      if v.trusted content = some expected then pure (.ok before) else installRelease v service expected true
    | _ => installRelease v service expected true
  else installRelease v service expected (raw == expected.release)

def refusesOrder (release active : String) : Bool :=
  active != "" && (compareRelease release active).all fun order => order < 0

def install (v : Verifier Content) (service : Bool) (expected : Compatibility) :
    Program Content (Except Failure Status) := do
  let locked ← perform Step.lock
  if locked then do
    let source ← perform Step.readSource
    if v.trusted source = some expected then do
      let raw ← perform (Step.readLink .current)
      let status ← statusFromLinks service
      let before := status.toOption.getD {}
      if refusesOrder expected.release before.release then
        pure (.error (.refused "automatic release installation cannot downgrade the active release"))
      else installOver v service expected raw before
    else pure (.error .verification)
  else pure (.error (.refused "bundle updater lock unavailable"))

def restartHealthy : Program Content Bool := do
  let restarted ← perform Step.restartEdge
  if restarted then perform Step.edgeHealthy else pure false

def startRolledBack (service : Bool) (current previous : String) : Program Content (Except Failure Status) := do
  let installed ← installUnit service previous
  if installed then do
    let healthy ← restartHealthy
    if healthy then statusFromLinks service
    else do
      let _ ← atomicLink .current current
      let _ ← atomicLink .previous previous
      let _ ← perform (Step.installUnit current)
      let _ ← perform Step.restartEdge
      pure (.error errHealthCheck)
  else do
    let _ ← atomicLink .current current
    let _ ← atomicLink .previous previous
    pure (.error (.refused "edge unit rollback failed"))

def exchangeLinks (service : Bool) (current previous : String) : Program Content (Except Failure Status) := do
  let linked ← atomicLink .current previous
  match linked with
  | .error failure => pure (.error failure)
  | .ok _ => do
    let linked ← atomicLink .previous current
    match linked with
    | .error failure => do
      let _ ← atomicLink .current current
      pure (.error failure)
    | .ok _ => startRolledBack service current previous

def rollback (v : Verifier Content) (service : Bool) : Program Content (Except Failure Status) := do
  let locked ← perform Step.lock
  if locked then do
    let current ← perform (Step.readLink .current)
    if current = "" then pure (.error (.refused "current signed release is unavailable"))
    else do
      let previous ← perform (Step.readLink .previous)
      if previous = "" then pure (.error (.refused "previous signed release is unavailable"))
      else do
        let valid ← validateReleaseLink previous
        match valid with
        | .error failure => pure (.error failure)
        | .ok _ => do
          let entry ← perform (Step.stat previous)
          match entry with
          | some (.directory content) =>
            if (v.trusted content).isSome then exchangeLinks service current previous
            else pure (.error .verification)
          | _ => pure (.error .verification)
  else pure (.error (.refused "bundle updater lock unavailable"))

inductive Operation
  | install (service : Bool) (expected : Compatibility)
  | rollback (service : Bool)
  deriving DecidableEq

def Operation.program (v : Verifier Content) : Operation → Program Content (Except Failure Status)
  | .install service expected => Edgeupdate.install v service expected
  | .rollback service => Edgeupdate.rollback v service

end

end Aeontra.Edgeupdate
