import Aeontra.Library.Fallible
import Aeontra.Library.Instant
import Aeontra.Library.Pattern
import Aeontra.Library.Text

/-!
The managed topology of the front door, the phases that lead from one topology to the next,
and the journal of a transition (`internal/frontdoorcoordinator/coordinator.go`).
-/

namespace Aeontra.Frontdoor

open Library

def frontPublicOrigin : String := "https://mcp-devbox-charlez.duckdns.org"

def frontTemporaryOrigin : String := "https://front.mcp-devbox-charlez.duckdns.org"

def backendOrigin : String := "https://backend.mcp-devbox-charlez.duckdns.org"

/-- A target of a transition; `unset` is the empty text. -/
inductive Target
  | unset
  | idle
  | cutover
  | rollback
  deriving DecidableEq

/-- The state of a request; `unset` is the empty text. -/
inductive State
  | unset
  | idle
  | queued
  | running
  | compensating
  | succeeded
  | failed
  deriving DecidableEq

inductive Phase
  | none
  | addBackendOrigin
  | switchFrontBackend
  | releasePublicBackend
  | assignPublicFront
  | moveFrontTemporary
  | restorePublicBackend
  | switchFrontPublicBackend
  | removeAlternateBackend
  | complete
  deriving DecidableEq

def Phase.text : Phase → String
  | .none => ""
  | .addBackendOrigin => "add-backend-origin"
  | .switchFrontBackend => "switch-front-backend"
  | .releasePublicBackend => "release-public-backend"
  | .assignPublicFront => "assign-public-front"
  | .moveFrontTemporary => "move-front-temporary"
  | .restorePublicBackend => "restore-public-backend"
  | .switchFrontPublicBackend => "switch-front-public-backend"
  | .removeAlternateBackend => "remove-alternate-backend"
  | .complete => "complete"

structure Topology where
  frontDomain : String := ""
  frontBackendURL : String := ""
  backendDomains : String := ""
  deriving DecidableEq

structure Status where
  schemaVersion : Nat := 0
  revision : Nat := 0
  requestID : String := ""
  target : Target := .unset
  recoveryTarget : Target := .unset
  state : State := .unset
  phase : Phase := .none
  topology : Topology := {}
  deploymentID : String := ""
  reason : String := ""
  updatedAt : Time := zeroTime
  deriving DecidableEq

def requestIDPattern : Pattern := [[Pattern.exactly (fun c => isAlnum c || c == '_' || c == '-') 43]]

def validateRequestID (raw : String) : Except String Unit :=
  reject (!requestIDPattern.matchString (Text.trimSpace raw)) "front-door coordinator request id is invalid"

def oppositeTarget : Target → Except String Target
  | .cutover => .ok .rollback
  | .rollback => .ok .cutover
  | _ => .error "front-door compensation target is invalid"

/-- What a status of each state must hold besides the fields all of them have. -/
def validateState (status : Status) (expectedRecovery : Target) : Except String Unit :=
  match status.state with
  | .unset | .idle => .error "front-door coordinator state is invalid"
  | .queued =>
    reject (status.recoveryTarget != .unset || status.phase != .none || status.reason != "")
      "queued front-door coordinator status is invalid"
  | .running =>
    reject (status.recoveryTarget != .unset || status.phase == .none || status.reason != "")
      "running front-door coordinator status is invalid"
  | .compensating =>
    reject (status.recoveryTarget != expectedRecovery || status.phase == .none || status.reason == "")
      "compensating front-door coordinator status is invalid"
  | .succeeded =>
    reject (status.recoveryTarget != .unset || status.phase != .complete || status.reason != "")
      "succeeded front-door coordinator status is invalid"
  | .failed => do
    reject (status.reason == "") "failed front-door coordinator status is invalid"
    reject (status.recoveryTarget != .unset && status.phase == .none)
      "compensated front-door coordinator status requires a phase"
    reject (status.recoveryTarget != .unset && status.recoveryTarget != expectedRecovery)
      "failed front-door coordinator recovery target is invalid"

def validateStatus (status : Status) : Except String Unit := do
  reject (status.schemaVersion != 1) "unsupported front-door coordinator journal schema"
  if status.state = .idle then
    reject (status.revision != 0 || status.requestID != "" || status.target != .idle ||
        status.recoveryTarget != .unset || status.phase != .none || status.reason != "")
      "idle front-door coordinator status is invalid"
  else do
    reject (status.revision == 0) "front-door coordinator revision is invalid"
    validateRequestID status.requestID
    reject (status.target != .cutover && status.target != .rollback) "front-door coordinator target is invalid"
    let expectedRecovery ← oppositeTarget status.target
    validateState status expectedRecovery

def domains (raw : String) : List (List Char) :=
  ((Text.trim Text.unicodeSpace (chars raw)).splitOn ',').map (Text.trim Text.unicodeSpace)

def ordered : List (List Char) → List (List Char)
  | [first, second] => if second < first then [second, first] else [first, second]
  | parts => parts

/-- The domains in one spelling, empty when one of them is empty or occurs twice. -/
def normalizeDomains (raw : String) : List Char :=
  if (domains raw).any List.isEmpty || !decide (domains raw).Nodup then []
  else [','].intercalate (ordered (domains raw))

def trimmed (text : String) : List Char := Text.trim Text.unicodeSpace (chars text)

/-- The phase that leads from a topology towards a target, and whether the target is reached. -/
def nextPhase (target : Target) (topology : Topology) : Except String (Phase × Bool) :=
  let front := trimmed topology.frontDomain
  let frontBackend := trimmed topology.frontBackendURL
  let backend := normalizeDomains topology.backendDomains
  let both := normalizeDomains (frontPublicOrigin ++ "," ++ backendOrigin)
  if backend = [] ∨ (frontBackend ≠ chars frontPublicOrigin ∧ frontBackend ≠ chars backendOrigin) then
    .error "managed front-door topology is invalid"
  else
    match target with
    | .cutover =>
      if front = chars frontPublicOrigin ∧ frontBackend = chars backendOrigin ∧
          backend = chars backendOrigin then .ok (.complete, true)
      else if front = chars frontTemporaryOrigin ∧ frontBackend = chars frontPublicOrigin ∧
          backend = chars frontPublicOrigin then .ok (.addBackendOrigin, false)
      else if front = chars frontTemporaryOrigin ∧ frontBackend = chars frontPublicOrigin ∧
          backend = both then .ok (.switchFrontBackend, false)
      else if front = chars frontTemporaryOrigin ∧ frontBackend = chars backendOrigin ∧
          backend = both then .ok (.releasePublicBackend, false)
      else if front = chars frontTemporaryOrigin ∧ frontBackend = chars backendOrigin ∧
          backend = chars backendOrigin then .ok (.assignPublicFront, false)
      else .error "managed topology is not valid for target cutover"
    | .rollback =>
      if front = chars frontTemporaryOrigin ∧ frontBackend = chars frontPublicOrigin ∧
          backend = chars frontPublicOrigin then .ok (.complete, true)
      else if front = chars frontPublicOrigin ∧ frontBackend = chars backendOrigin ∧
          backend = chars backendOrigin then .ok (.moveFrontTemporary, false)
      else if front = chars frontTemporaryOrigin ∧ frontBackend = chars backendOrigin ∧
          backend = chars backendOrigin then .ok (.restorePublicBackend, false)
      else if front = chars frontTemporaryOrigin ∧ frontBackend = chars backendOrigin ∧
          backend = both then .ok (.switchFrontPublicBackend, false)
      else if front = chars frontTemporaryOrigin ∧ frontBackend = chars frontPublicOrigin ∧
          backend = both then .ok (.removeAlternateBackend, false)
      else .error "managed topology is not valid for target rollback"
    | _ => .error "idle target has no transition phase"

def idleStatus : Status := { schemaVersion := 1, target := .idle, state := .idle }

/-- The status that `Journal.Advance` writes over the current one. -/
def stamp (current next : Status) (now : Time) : Status :=
  { next with schemaVersion := 1, revision := (current.revision + 1) % 2 ^ 64, updatedAt := now }

end Aeontra.Frontdoor
