import Aeontra.Library.Fallible
import Aeontra.Library.Instant
import Aeontra.Library.Pattern
import Aeontra.Library.Process

/-!
The rollout of a backend with a new tool catalog (`internal/catalogrollout/runner.go`) as a
program that asks the platform, the journal and its own context.

The platform applies each mutation wholly or not at all and reports success or failure
independently of that; observations, verifications and publications fail at will.
-/

namespace Aeontra.Catalogrollout

open Library
open Library.Process (perform)

structure Identity where
  commit : String := ""
  protocolVersion : String := ""
  toolCount : Int := 0
  catalogHash : String := ""
  deriving DecidableEq

def commitPattern : Pattern := [[Pattern.exactly isLowerHex 40]]

def isDigit (c : Char) : Bool := '0' ≤ c && c ≤ '9'

def protocolPattern : Pattern :=
  [Pattern.exactly isDigit 4 :: Pattern.literal "-" ++ Pattern.exactly isDigit 2 :: Pattern.literal "-" ++
    [Pattern.exactly isDigit 2]]

def catalogPattern : Pattern := [Pattern.literal "sha256:" ++ [Pattern.exactly isLowerHex 64]]

def Identity.validate (i : Identity) : Except String Unit := do
  reject (!commitPattern.matchString i.commit) "rollout commit is invalid"
  reject (!protocolPattern.matchString i.protocolVersion) "catalog protocol version is invalid"
  reject (i.toolCount < 1 || i.toolCount > 10000) "catalog tool count is invalid"
  reject (!catalogPattern.matchString i.catalogHash) "catalog hash is invalid"

structure Request where
  requestID : String := ""
  previous : Identity := {}
  candidate : Identity := {}
  deriving DecidableEq

def requestPattern : Pattern := [[Pattern.exactly (fun c => isAlnum c || c == '_' || c == '-') 43]]

def Request.validate (q : Request) : Except String Unit := do
  reject (!requestPattern.matchString q.requestID) "rollout request id is invalid"
  q.previous.validate
  q.candidate.validate
  reject (q.previous.protocolVersion != q.candidate.protocolVersion)
    "candidate protocol does not match current protocol"

/-- The catalogs that the front door admits; an empty transition admits only the primary. -/
structure FrontContract where
  primary : String
  transition : String
  deriving DecidableEq

structure Observation where
  backend : Identity
  front : FrontContract
  deriving DecidableEq

inductive State
  | unset
  | idle
  | queued
  | running
  | compensating
  | succeeded
  | failed
  deriving DecidableEq

inductive Phase
  | none
  | prepareFront
  | deployBackend
  | verifyBackend
  | finalizeFront
  | rollbackBackend
  | rollbackFront
  | complete
  deriving DecidableEq

structure Status where
  schemaVersion : Nat := 0
  revision : Nat := 0
  request : Request := {}
  state : State := .unset
  phase : Phase := .none
  deploymentID : String := ""
  reason : String := ""
  updatedAt : Time := zeroTime
  deriving DecidableEq

def idleStatus : Status := { schemaVersion := 1, state := .idle }

/-- What `Journal.read` requires of the file. -/
def validateJournal (status : Status) : Except String Unit := do
  reject (status.schemaVersion != 1) "unsupported rollout journal schema"
  if status.state = .idle then pure () else status.request.validate

def stamp (current next : Status) (now : Time) : Status :=
  { next with schemaVersion := 1, revision := (current.revision + 1) % 2 ^ 64, updatedAt := now }

inductive Mutation
  | prepareFront (previous candidate : Identity)
  | deployBackend (candidate : Identity)
  | finalizeFront (candidate : Identity)
  | rollbackBackend (previous : Identity)
  | rollbackFront (previous : Identity)
  deriving DecidableEq

inductive Call
  | readJournal
  | advance (next : Status)
  | observe
  | mutate (mutation : Mutation)
  | verify (candidate : Identity)
  | publish (status : Status)
  | cancelled
  deriving DecidableEq

abbrev Call.Answer : Call → Type
  | .readJournal => Option Status
  | .advance _ => Option Status
  | .observe => Option Observation
  | .mutate _ => String × Bool
  | .verify _ => Bool
  | .publish _ => Bool
  | .cancelled => Bool

structure World where
  platform : Observation
  journal : Status
  deriving DecidableEq

structure Choice where
  applied : Bool := true
  reported : Bool := true
  cancelled : Bool := false
  deploymentID : String := ""
  now : Time := 0
  deriving DecidableEq

def Mutation.apply : Mutation → Observation → Observation
  | .prepareFront previous candidate, o =>
    { o with front := ⟨candidate.catalogHash, previous.catalogHash⟩ }
  | .deployBackend candidate, o => { o with backend := candidate }
  | .finalizeFront candidate, o => { o with front := ⟨candidate.catalogHash, ""⟩ }
  | .rollbackBackend previous, o => { o with backend := previous }
  | .rollbackFront previous, o => { o with front := ⟨previous.catalogHash, ""⟩ }

/-- `Journal.Advance`: the file is replaced exactly when no error is returned. -/
def advance (next : Status) (choice : Choice) (w : World) : Option Status × World :=
  match validateJournal w.journal with
  | .ok _ =>
    if choice.applied then
      (some (stamp w.journal next choice.now), { w with journal := stamp w.journal next choice.now })
    else (none, w)
  | .error _ => (none, w)

def react : (call : Call) → Choice → World → call.Answer × World
  | .readJournal, choice, w =>
    match validateJournal w.journal with
    | .ok _ => (if choice.reported then some w.journal else none, w)
    | .error _ => (none, w)
  | .advance next, choice, w => advance next choice w
  | .observe, choice, w => (if choice.reported then some w.platform else none, w)
  | .mutate mutation, choice, w =>
    ((choice.deploymentID, choice.reported),
      if choice.applied then { w with platform := mutation.apply w.platform } else w)
  | .verify _, choice, w => (choice.reported, w)
  | .publish _, choice, w => (choice.reported, w)
  | .cancelled, choice, w => (choice.cancelled, w)

def environment : Environment Call Call.Answer World Choice := ⟨react⟩

abbrev Program (α : Type) := Process Call Call.Answer α

def readJournal : Program (Option Status) := perform Call.readJournal

def advanceJournal (next : Status) : Program (Option Status) := perform (Call.advance next)

def observe : Program (Option Observation) := perform Call.observe

def mutate (mutation : Mutation) : Program (String × Bool) := perform (Call.mutate mutation)

def verifyBackend (candidate : Identity) : Program Bool := perform (Call.verify candidate)

def publishStatus (status : Status) : Program Bool := perform (Call.publish status)

/-- `ctx.Err() != nil`. -/
def contextDone : Program Bool := perform Call.cancelled

inductive Problem
  | requestInvalid
  | journal
  | publish
  | interrupted
  | otherActive
  | failed (reason : String)
  deriving DecidableEq

abbrev Outcome := Status × Option Problem

/-- A status that could not be written comes back empty, one that could not be published comes back written. -/
def persist (status : Status) : Program Outcome := do
  let written ← advanceJournal status
  match written with
  | none => pure ({}, some .journal)
  | some next => do
    let published ← publishStatus next
    if published then pure (next, none) else pure (next, some .publish)

def frontOld (f : FrontContract) (q : Request) : Bool :=
  f.primary == q.previous.catalogHash && f.transition == ""

def frontBoth (f : FrontContract) (q : Request) : Bool :=
  f.primary == q.candidate.catalogHash && f.transition == q.previous.catalogHash

def frontNew (f : FrontContract) (q : Request) : Bool :=
  f.primary == q.candidate.catalogHash && f.transition == ""

def validateObservation (o : Observation) (q : Request) : Except String Unit := do
  o.backend.validate
  reject ([o.front.primary, o.front.transition].any fun hash =>
      hash != "" && hash != q.previous.catalogHash && hash != q.candidate.catalogHash)
    "front door contains a third catalog"
  reject (o.front.primary == "" || o.front.primary == o.front.transition) "front door catalog contract is invalid"

def fail (status : Status) (reason : String) : Program Outcome := do
  let persisted ← persist { status with state := .failed, phase := .complete, reason := reason }
  match persisted.2 with
  | some problem => pure (persisted.1, some problem)
  | none => pure (persisted.1, some (.failed reason))

def compensatingStatus (request : Request) (phase : Phase) (deploymentID reason : String) : Status :=
  { request := request, state := .compensating, phase := phase, deploymentID := deploymentID, reason := reason }

def withDeployment (status : Status) (deploymentID : String) : Status :=
  if deploymentID ≠ "" then { status with deploymentID := deploymentID } else status

/-- The last part of a compensation: the front door, once the previous backend was observed. -/
def compensateFront (request : Request) (reason failureDeploymentID : String) (status : Status)
    (observation : Observation) : Program Outcome :=
  if observation.backend ≠ request.previous then
    fail status (reason ++ ": backend rollback verification failed")
  else if frontOld observation.front request then
    fail (withDeployment status failureDeploymentID) reason
  else do
    let persisted ← persist (compensatingStatus request .rollbackFront status.deploymentID reason)
    let rollback ← mutate (.rollbackFront request.previous)
    if rollback.2 then do
      let persisted ← persist (compensatingStatus request .rollbackFront rollback.1 reason)
      let observed ← observe
      match observed with
      | none => fail persisted.1 (reason ++ ": rollback observation failed")
      | some final =>
        if final.backend ≠ request.previous ∨ frontOld final.front request = false then
          fail persisted.1 (reason ++ ": rollback verification failed")
        else fail (withDeployment persisted.1 failureDeploymentID) reason
    else fail (withDeployment persisted.1 rollback.1) (reason ++ ": front rollback failed")

/-- The first part of a compensation that has to move the backend. -/
def compensateBackend (request : Request) (reason failureDeploymentID : String) : Program Outcome := do
  let persisted ← persist (compensatingStatus request .rollbackBackend failureDeploymentID reason)
  let rollback ← mutate (.rollbackBackend request.previous)
  if rollback.2 then do
    let persisted ← persist (compensatingStatus request .rollbackBackend rollback.1 reason)
    let observed ← observe
    match observed with
    | none => fail persisted.1 (reason ++ ": rollback observation failed")
    | some observation => compensateFront request reason failureDeploymentID persisted.1 observation
  else fail (withDeployment persisted.1 rollback.1) (reason ++ ": backend rollback failed")

def compensate (request : Request) (status : Status) (reason : String) : Program Outcome := do
  let persisted ← persist (compensatingStatus request status.phase status.deploymentID reason)
  if reason = "backend_deploy_failed" then compensateBackend request reason status.deploymentID
  else do
    let observed ← observe
    match observed with
    | none => fail persisted.1 (reason ++ ": rollback observation failed")
    | some observation =>
      if observation.backend = request.candidate then compensateBackend request reason status.deploymentID
      else compensateFront request reason status.deploymentID persisted.1 observation

/-- Leave the rollout as it is when the context is done, else compensate. -/
def giveUp (request : Request) (status : Status) (reason : String) : Program Outcome := do
  let stopped ← contextDone
  if stopped then pure (status, some .interrupted) else compensate request status reason

def runningStatus (request : Request) (phase : Phase) (deploymentID reason : String) : Status :=
  { request := request, state := .running, phase := phase, deploymentID := deploymentID, reason := reason }

def proceed (persisted : Outcome) (rest : Status → Program Outcome) : Program Outcome :=
  match persisted.2 with
  | some problem => pure (persisted.1, some problem)
  | none => rest persisted.1

def verifyPhase (request : Request) (rest : Status → Program Outcome) : Program Outcome := do
  let persisted ← persist (runningStatus request .verifyBackend "" "")
  let verified ← verifyBackend request.candidate
  if verified then do
    let persisted ← persist (runningStatus request .finalizeFront "" "")
    proceed persisted rest
  else giveUp request persisted.1 "candidate_verification_failed"

/-- The candidate is verified: admit only its catalog. -/
def finalizePhase (request : Request) (rest : Status → Program Outcome) : Program Outcome := do
  let persisted ← persist (runningStatus request .finalizeFront "" "")
  let finalized ← mutate (.finalizeFront request.candidate)
  if finalized.2 then do
    let persisted ← persist (runningStatus request .complete finalized.1 "")
    proceed persisted rest
  else giveUp request persisted.1 "front_finalize_failed"

/-- The previous backend runs alone: admit both catalogs. -/
def preparePhase (request : Request) (rest : Status → Program Outcome) : Program Outcome := do
  let persisted ← persist (runningStatus request .prepareFront "" "")
  let prepared ← mutate (.prepareFront request.previous request.candidate)
  if prepared.2 then do
    let persisted ← persist (runningStatus request .deployBackend prepared.1 "")
    proceed persisted rest
  else giveUp request persisted.1 "front_prepare_failed"

/-- Both catalogs are admitted: move the backend. -/
def deployPhase (request : Request) (rest : Status → Program Outcome) : Program Outcome := do
  let persisted ← persist (runningStatus request .deployBackend "" "")
  let deployed ← mutate (.deployBackend request.candidate)
  if deployed.2 then do
    let persisted ← persist (runningStatus request .verifyBackend deployed.1 "")
    proceed persisted rest
  else do
    let stopped ← contextDone
    if stopped then pure (persisted.1, some .interrupted)
    else do
      let persisted ← persist (runningStatus request .deployBackend deployed.1 "backend_deploy_failed")
      proceed persisted fun status => compensate request status "backend_deploy_failed"

def decideOn (request : Request) (status : Status) (observation : Observation)
    (rest : Status → Program Outcome) : Program Outcome :=
  if observation.backend = request.candidate then
    if status.phase ≠ .finalizeFront ∧ status.phase ≠ .complete then verifyPhase request rest
    else if request.candidate.catalogHash = request.previous.catalogHash ∨
        frontNew observation.front request = true then
      persist { request := request, state := .succeeded, phase := .complete }
    else if frontBoth observation.front request = false then compensate request status "front_contract_lost"
    else finalizePhase request rest
  else if observation.backend ≠ request.previous then compensate request status "backend_identity_unknown"
  else if request.candidate.catalogHash ≠ request.previous.catalogHash ∧
      frontBoth observation.front request = false then
    if frontOld observation.front request = false then compensate request status "front_contract_invalid"
    else preparePhase request rest
  else deployPhase request rest

def attempt (request : Request) : Nat → Status → Program Outcome
  | 0, status => compensate request status "phase_budget_exhausted"
  | attempts + 1, status => do
    let stopped ← contextDone
    if stopped then pure (status, some .interrupted)
    else do
      let observed ← observe
      match observed with
      | none => giveUp request status "observe_failed"
      | some observation =>
        match validateObservation observation request with
        | .error _ => compensate request status "contract_invalid"
        | .ok _ => decideOn request status observation fun status => attempt request attempts status

def phaseBudget : Nat := 24

def republish (status : Status) : Program Outcome := do
  let published ← publishStatus status
  if published then
    if status.state = .failed then pure (status, some (.failed status.reason)) else pure (status, none)
  else pure (status, some .publish)

/-- `Runner.Run`. -/
def run (request : Request) : Program Outcome :=
  match request.validate with
  | .error _ => pure ({}, some .requestInvalid)
  | .ok _ => do
    let read ← readJournal
    match read with
    | none => pure ({}, some .journal)
    | some status =>
      if (status.state = .queued ∨ status.state = .running ∨ status.state = .compensating) ∧
          status.request.requestID ≠ request.requestID then pure (status, some .otherActive)
      else if status.request.requestID = request.requestID ∧
          (status.state = .succeeded ∨ status.state = .failed) then republish status
      else if status.request.requestID ≠ request.requestID then do
        let persisted ← persist { request := request, state := .queued }
        proceed persisted fun status => attempt request phaseBudget status
      else attempt request phaseBudget status

end Aeontra.Catalogrollout
