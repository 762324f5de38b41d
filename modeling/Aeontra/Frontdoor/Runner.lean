import Aeontra.Library.Process
import Aeontra.Frontdoor.Coordinator

/-!
The runner of a front-door transition (`internal/frontdoorcoordinator/runner.go` and
`compensation.go`) as a program that asks the platform, the journal and its own context.

The platform applies each mutation wholly or not at all, whatever it reports.  A journal write
may fail before or after the file is replaced; everything else fails at will.
-/

namespace Aeontra.Frontdoor

open Library
open Library.Process (perform)

inductive Mutation
  | setBackendDomains (domains : String)
  | configureFront (domain backendURL : String)
  deriving DecidableEq

def Mutation.apply : Mutation → Topology → Topology
  | .setBackendDomains domains, t => { t with backendDomains := domains }
  | .configureFront domain backendURL, t => { t with frontDomain := domain, frontBackendURL := backendURL }

inductive Probe
  | backend (origin : String)
  | front (origin : String)
  deriving DecidableEq

inductive Call
  | readJournal
  | advance (next : Status)
  | topology
  | mutate (mutation : Mutation)
  | probe (probe : Probe)
  | publish (status : Status)
  | cancelled
  | wait
  deriving DecidableEq

/-- A mutation answers with its deployment and whether it reported success; `cancelled` and
`wait` answer whether the context is done. -/
abbrev Call.Answer : Call → Type
  | .readJournal => Option Status
  | .advance _ => Option Status
  | .topology => Option Topology
  | .mutate _ => String × Bool
  | .probe _ => Bool
  | .publish _ => Bool
  | .cancelled => Bool
  | .wait => Bool

structure World where
  topology : Topology
  journal : Status
  deriving DecidableEq

/-- How one call goes: whether it takes effect, what it reports, and the data it returns. -/
structure Choice where
  applied : Bool := true
  reported : Bool := true
  cancelled : Bool := false
  deploymentID : String := ""
  now : Time := 0
  deriving DecidableEq

/-- `Journal.Advance`: the current and the next status must both be valid. -/
def advance (next : Status) (choice : Choice) (w : World) : Option Status × World :=
  match validateStatus w.journal, validateStatus (stamp w.journal next choice.now) with
  | .ok _, .ok _ =>
    if choice.applied then
      (if choice.reported then some (stamp w.journal next choice.now) else none,
        { w with journal := stamp w.journal next choice.now })
    else (none, w)
  | _, _ => (none, w)

def react : (call : Call) → Choice → World → call.Answer × World
  | .readJournal, choice, w =>
    match validateStatus w.journal with
    | .ok _ => (if choice.reported then some w.journal else none, w)
    | .error _ => (none, w)
  | .advance next, choice, w => advance next choice w
  | .topology, choice, w => (if choice.reported then some w.topology else none, w)
  | .mutate mutation, choice, w =>
    ((choice.deploymentID, choice.reported),
      if choice.applied then { w with topology := mutation.apply w.topology } else w)
  | .probe _, choice, w => (choice.reported, w)
  | .publish _, choice, w => (choice.reported, w)
  | .cancelled, choice, w => (choice.cancelled, w)
  | .wait, choice, w => (choice.cancelled, w)

def environment : Environment Call Call.Answer World Choice := ⟨react⟩

inductive Problem
  | targetInvalid
  | requestInvalid
  | durableState
  | statusPublish
  | interrupted
  | targetChanged
  | requestFailed
  | stateInvalid
  | otherActive
  | topologyInvalid
  | phaseFailed
  | topologyRead
  | budgetExhausted
  | compensationInvalid
  | previouslyFailed
  deriving DecidableEq

abbrev Program (α : Type) := Process Call Call.Answer α

def readJournal : Program (Option Status) := perform Call.readJournal

def advanceJournal (next : Status) : Program (Option Status) := perform (Call.advance next)

def readTopology : Program (Option Topology) := perform Call.topology

def mutate (mutation : Mutation) : Program (String × Bool) := perform (Call.mutate mutation)

def runProbe (probe : Probe) : Program Bool := perform (Call.probe probe)

def publishOnce (status : Status) : Program Bool := perform (Call.publish status)

/-- `ctx.Err() != nil`. -/
def contextDone : Program Bool := perform Call.cancelled

def waitRetry : Program Bool := perform Call.wait

/-- The status and the joined errors of a run; no errors means success. -/
abbrev Outcome := Status × List Problem

structure Runner where
  requestID : String
  publishAttempts : Int := 0
  deriving DecidableEq

/-- One phase: its mutation, the probe that follows it, and the phase after it. -/
structure Step where
  mutation : Mutation
  probe : Probe
  next : Phase
  deriving DecidableEq

def step : Target → Phase → Option Step
  | .cutover, .addBackendOrigin =>
    some ⟨.setBackendDomains (frontPublicOrigin ++ "," ++ backendOrigin), .backend backendOrigin,
      .switchFrontBackend⟩
  | .cutover, .switchFrontBackend =>
    some ⟨.configureFront frontTemporaryOrigin backendOrigin, .front frontTemporaryOrigin,
      .releasePublicBackend⟩
  | .cutover, .releasePublicBackend =>
    some ⟨.setBackendDomains backendOrigin, .backend backendOrigin, .assignPublicFront⟩
  | .cutover, .assignPublicFront =>
    some ⟨.configureFront frontPublicOrigin backendOrigin, .front frontPublicOrigin, .complete⟩
  | .rollback, .moveFrontTemporary =>
    some ⟨.configureFront frontTemporaryOrigin backendOrigin, .front frontTemporaryOrigin,
      .restorePublicBackend⟩
  | .rollback, .restorePublicBackend =>
    some ⟨.setBackendDomains (backendOrigin ++ "," ++ frontPublicOrigin), .backend frontPublicOrigin,
      .switchFrontPublicBackend⟩
  | .rollback, .switchFrontPublicBackend =>
    some ⟨.configureFront frontTemporaryOrigin frontPublicOrigin, .front frontTemporaryOrigin,
      .removeAlternateBackend⟩
  | .rollback, .removeAlternateBackend =>
    some ⟨.setBackendDomains frontPublicOrigin, .backend frontPublicOrigin, .complete⟩
  | _, _ => none

/-- The deployment, the phase after this one, and whether the phase succeeded. -/
def execute (target : Target) (phase : Phase) : Program (String × Phase × Bool) :=
  match step target phase with
  | none => pure ("", .none, false)
  | some step => do
    let answer ← mutate step.mutation
    if answer.2 then do
      let healthy ← runProbe step.probe
      pure (answer.1, step.next, healthy)
    else pure (answer.1, step.next, false)

/-- Publish until it succeeds, the attempts run out or the wait between two is cut short. -/
def publishLoop (status : Status) : Nat → Program Bool
  | 0 => pure false
  | attempts + 1 => do
    let published ← publishOnce status
    if published then pure true
    else if attempts = 0 then pure false
    else do
      let stopped ← waitRetry
      if stopped then pure false else publishLoop status attempts

def defaultStatusPublishAttempts : Nat := 5

def publishStatus (r : Runner) (status : Status) : Program Bool :=
  publishLoop status (if r.publishAttempts ≤ 0 then defaultStatusPublishAttempts else r.publishAttempts.toNat)

def persist (r : Runner) (status : Status) : Program (Except Problem Status) := do
  let persisted ← advanceJournal status
  match persisted with
  | none => pure (.error .durableState)
  | some persisted => do
    let published ← publishStatus r persisted
    if published then pure (.ok persisted) else pure (.error .statusPublish)

def settle (r : Runner) (status : Status) (cause : List Problem) : Program Outcome := do
  let persisted ← persist r status
  match persisted with
  | .error problem => pure ({}, cause ++ [problem])
  | .ok settled => pure (settled, cause)

def fail (r : Runner) (current : Status) (reason : String) (cause : List Problem) : Program Outcome :=
  settle r { requestID := current.requestID, target := current.target, state := .failed,
             phase := current.phase, topology := current.topology, reason := reason } cause

def interruptedTransition (current : Status) : Program Outcome := pure (current, [.interrupted])

def compensationFailed (r : Runner) (current : Status) (originalCause : List Problem) (suffix : String)
    (compensationCause : Problem) : Program Outcome :=
  settle r { requestID := current.requestID, target := current.target,
             recoveryTarget := current.recoveryTarget, state := .failed, phase := current.phase,
             topology := current.topology, reason := current.reason ++ "_compensation_" ++ suffix }
    (originalCause ++ [compensationCause])

def compensatingStatus (current : Status) (phase : Phase) (topology : Topology) (deploymentID : String) : Status :=
  { requestID := current.requestID, target := current.target, recoveryTarget := current.recoveryTarget,
    state := .compensating, phase := phase, topology := topology, deploymentID := deploymentID,
    reason := current.reason }

def compensationPhaseBudget : Nat := 12

/-- The loop of `runCompensation` with the attempts that are left. -/
def runCompensation (r : Runner) (originalCause : List Problem) : Nat → Status → Problem → Program Outcome
  | 0, current, last => compensationFailed r current originalCause "budget_exhausted" last
  | attempts + 1, current, last => do
    let stopped ← contextDone
    if stopped then interruptedTransition current
    else do
      let read ← readTopology
      match read with
      | none => do
        let stopped ← contextDone
        if stopped then interruptedTransition current
        else do
          let stopped ← waitRetry
          if stopped then interruptedTransition current
          else runCompensation r originalCause attempts current .topologyRead
      | some topology =>
        match nextPhase current.recoveryTarget topology with
        | .error _ => compensationFailed r current originalCause "topology_invalid" .topologyInvalid
        | .ok (_, true) =>
          settle r { requestID := current.requestID, target := current.target,
                     recoveryTarget := current.recoveryTarget, state := .failed, phase := .complete,
                     topology := topology, reason := current.reason ++ "_compensated" } originalCause
        | .ok (phase, false) => do
          let persisted ← persist r (compensatingStatus current phase topology "")
          match persisted with
          | .error problem => pure ({}, originalCause ++ [problem])
          | .ok current => do
            let done ← execute current.recoveryTarget phase
            if done.2.2 then do
              let read ← readTopology
              match read with
              | none => do
                let stopped ← contextDone
                if stopped then interruptedTransition current
                else do
                  let stopped ← waitRetry
                  if stopped then interruptedTransition current
                  else runCompensation r originalCause attempts current .topologyRead
              | some topology => do
                let persisted ← persist r (compensatingStatus current done.2.1 topology done.1)
                match persisted with
                | .error problem => pure ({}, originalCause ++ [problem])
                | .ok current => runCompensation r originalCause attempts current last
            else do
              let stopped ← contextDone
              if stopped then interruptedTransition current
              else do
                let observed ← readTopology
                match observed with
                | some observed => do
                  let persisted ← persist r (compensatingStatus current phase observed done.1)
                  match persisted with
                  | .error problem => pure ({}, originalCause ++ [problem])
                  | .ok current => do
                    let stopped ← waitRetry
                    if stopped then interruptedTransition current
                    else runCompensation r originalCause attempts current .phaseFailed
                | none => do
                  let stopped ← contextDone
                  if stopped then interruptedTransition current
                  else do
                    let stopped ← waitRetry
                    if stopped then interruptedTransition current
                    else runCompensation r originalCause attempts current .phaseFailed

def compensate (r : Runner) (current : Status) (reason : String) (cause : Problem) : Program Outcome :=
  match oppositeTarget current.target with
  | .error _ => fail r current (reason ++ "_compensation_unavailable") [cause, .compensationInvalid]
  | .ok recoveryTarget => do
    let persisted ← persist r { requestID := current.requestID, target := current.target,
                                recoveryTarget := recoveryTarget, state := .compensating,
                                phase := current.phase, topology := current.topology, reason := reason }
    match persisted with
    | .error problem => pure ({}, [cause, problem])
    | .ok compensating => runCompensation r [cause] compensationPhaseBudget compensating .budgetExhausted

def resumeCompensation (r : Runner) (current : Status) : Program Outcome :=
  match oppositeTarget current.target with
  | .error _ => pure (current, [.compensationInvalid])
  | .ok expected =>
    if current.recoveryTarget ≠ expected ∨ current.reason = "" then pure (current, [.compensationInvalid])
    else runCompensation r [.previouslyFailed] compensationPhaseBudget current .budgetExhausted

def runningStatus (r : Runner) (target : Target) (phase : Phase) (topology : Topology) (deploymentID : String) :
    Status :=
  { requestID := r.requestID, target := target, state := .running, phase := phase, topology := topology,
    deploymentID := deploymentID }

/-- The loop of `Run` with the attempts that are left. -/
def transition (r : Runner) (target : Target) : Nat → Status → Program Outcome
  | 0, current =>
    if current.phase = .none then fail r current "topology_read_budget_exhausted" [.budgetExhausted]
    else compensate r current "transition_budget_exhausted" .budgetExhausted
  | attempts + 1, current => do
    let stopped ← contextDone
    if stopped then interruptedTransition current
    else do
      let read ← readTopology
      match read with
      | none => do
        let stopped ← contextDone
        if stopped then interruptedTransition current
        else do
          let stopped ← waitRetry
          if stopped then interruptedTransition current else transition r target attempts current
      | some topology =>
        match nextPhase target topology with
        | .error _ =>
          if current.phase = .none then fail r current "topology_invalid" [.topologyInvalid]
          else compensate r current "topology_invalid" .topologyInvalid
        | .ok (_, true) =>
          settle r { requestID := r.requestID, target := target, state := .succeeded, phase := .complete,
                     topology := topology } []
        | .ok (phase, false) => do
          let persisted ← persist r (runningStatus r target phase topology "")
          match persisted with
          | .error problem => pure ({}, [problem])
          | .ok current => do
            let done ← execute target phase
            if done.2.2 then do
              let read ← readTopology
              match read with
              | none => do
                let stopped ← contextDone
                if stopped then interruptedTransition current
                else compensate r current "topology_read_failed" .topologyRead
              | some topology => do
                let persisted ← persist r (runningStatus r target done.2.1 topology done.1)
                match persisted with
                | .error problem => pure ({}, [problem])
                | .ok current => transition r target attempts current
            else do
              let stopped ← contextDone
              if stopped then interruptedTransition current
              else compensate r current (phase.text ++ "_failed") .phaseFailed

def transitionBudget : Nat := 12

def republish (r : Runner) (current : Status) (cause : List Problem) : Program Outcome := do
  let published ← publishStatus r current
  if published then pure (current, cause) else pure ({}, [.statusPublish])

/-- `Runner.Run`. -/
def run (r : Runner) (target : Target) : Program Outcome :=
  if target ≠ .cutover ∧ target ≠ .rollback then pure ({}, [.targetInvalid])
  else
    match validateRequestID r.requestID with
    | .error _ => pure ({}, [.requestInvalid])
    | .ok _ => do
      let read ← readJournal
      match read with
      | none => pure ({}, [.durableState])
      | some current =>
        if current.requestID = r.requestID then
          if current.target ≠ target then pure (current, [.targetChanged])
          else
            match current.state with
            | .queued | .running => transition r target transitionBudget current
            | .compensating => resumeCompensation r current
            | .succeeded => republish r current []
            | .failed => republish r current [.requestFailed]
            | .unset | .idle => pure (current, [.stateInvalid])
        else if current.state = .queued ∨ current.state = .running ∨ current.state = .compensating then
          pure (current, [.otherActive])
        else do
          let persisted ← persist r { requestID := r.requestID, target := target, state := .queued }
          match persisted with
          | .error problem => pure ({}, [problem])
          | .ok current => transition r target transitionBudget current

end Aeontra.Frontdoor
