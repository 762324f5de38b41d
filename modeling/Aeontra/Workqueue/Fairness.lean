import Mathlib.Data.List.Rotate
import Aeontra.Workqueue.Types

/-!
The fair scheduler: workspaces take turns, each visit adds a quantum to a workspace's
deficit, and a candidate that has waited past the aging limit goes first.
-/

namespace Aeontra.Workqueue

open Library

def maxResourceValue : Int := 1000000000

structure FairConfig where
  quantum : Int
  agingLimit : Duration
  deriving DecidableEq

structure FairCandidate where
  jobID : String
  workspace : String
  cost : Int
  createdAt : Time
  deriving DecidableEq

/-- An absent deficit is zero, as a read of the source's map gives it. -/
structure FairScheduler where
  config : FairConfig
  deficits : String → Int
  cursor : String

def newFairScheduler (config : FairConfig) : Except String FairScheduler := do
  reject (config.quantum < 1 || config.quantum > maxResourceValue || config.agingLimit < second ||
    config.agingLimit > 24 * hour) "workqueue: fair scheduler configuration is invalid"
  pure ⟨config, fun _ => 0, ""⟩

def FairCandidate.before (left right : FairCandidate) : Bool :=
  if left.createdAt = right.createdAt then left.jobID < right.jobID
  else left.createdAt < right.createdAt

def FairCandidate.valid (now : Time) (c : FairCandidate) : Bool :=
  jobIDPattern.matchString c.jobID && workspacePattern.matchString c.workspace && 1 ≤ c.cost &&
    c.cost ≤ maxResourceValue && c.createdAt ≠ zeroTime && c.createdAt ≤ now

/-- The admission loop of `Select`, with the jobs already seen. -/
def checkCandidates (now : Time) : List String → List FairCandidate → Except String Unit
  | _, [] => .ok ()
  | seen, c :: rest => do
    reject (!c.valid now) "workqueue: fair candidate is invalid"
    reject (seen.contains c.jobID) "workqueue: duplicate fair candidate"
    checkCandidates now (c.jobID :: seen) rest

def queueOf (candidates : List FairCandidate) (workspace : String) : List FairCandidate :=
  (candidates.filter fun c => c.workspace = workspace).insertionSort fun left right =>
    right.before left = false

def workspacesOf (candidates : List FairCandidate) : List String :=
  sortStrings (candidates.map FairCandidate.workspace).dedup

def oldestAged (config : FairConfig) (now : Time) (candidates : List FairCandidate) :
    List String → Option FairCandidate → Option FairCandidate
  | [], aged => aged
  | workspace :: rest, aged =>
    match (queueOf candidates workspace).head? with
    | none => oldestAged config now candidates rest aged
    | some c =>
      if now - c.createdAt < config.agingLimit then oldestAged config now candidates rest aged
      else if aged.all fun a => c.createdAt < a.createdAt ||
          (c.createdAt = a.createdAt && c.jobID < a.jobID) then
        oldestAged config now candidates rest (some c)
      else oldestAged config now candidates rest aged

/-- `sort.SearchStrings`: the first index whose text is not below `x`. -/
def searchStrings (texts : List String) (x : String) : Nat := (texts.takeWhile (· < x)).length

/-- Where the round begins: behind the cursor if it is one of the workspaces. -/
def startIndex (cursor : String) (workspaces : List String) : Nat :=
  if cursor = "" then 0
  else if workspaces[searchStrings workspaces cursor]? = some cursor then
    (searchStrings workspaces cursor + 1) % workspaces.length
  else 0

def credit (quantum deficit : Int) : Int :=
  if deficit > maxResourceValue - quantum then maxResourceValue else deficit + quantum

/-- Visit workspaces in turn until one can pay for its first candidate. -/
def serve (quantum : Int) (candidates : List FairCandidate) :
    List String → (String → Int) → Option FairCandidate × (String → Int)
  | [], deficits => (none, deficits)
  | workspace :: rest, deficits =>
    let deficit := credit quantum (deficits workspace)
    match (queueOf candidates workspace).head? with
    | none => serve quantum candidates rest deficits
    | some c =>
      if c.cost ≤ deficit then (some c, Function.update deficits workspace (deficit - c.cost))
      else serve quantum candidates rest (Function.update deficits workspace deficit)

def FairScheduler.select (s : FairScheduler) (now : Time) (candidates : List FairCandidate) :
    Except String FairCandidate × FairScheduler :=
  if now = zeroTime || candidates.length = 0 || candidates.length > 4096 then
    (.error "workqueue: fair selection is invalid", s)
  else
    match checkCandidates now [] candidates with
    | .error e => (.error e, s)
    | .ok () =>
      let workspaces := workspacesOf candidates
      let s := { s with deficits := fun w => if w ∈ workspaces then s.deficits w else 0 }
      match oldestAged s.config now candidates workspaces none with
      | some aged => (.ok aged, { s with cursor := aged.workspace })
      | none =>
        let turn := workspaces.rotate (startIndex s.cursor workspaces)
        let visits := (List.replicate (workspaces.length + 1) turn).flatten
        match serve s.config.quantum candidates visits s.deficits with
        | (some c, deficits) => (.ok c, { s with deficits := deficits, cursor := c.workspace })
        | (none, deficits) =>
          (.error "workqueue: no fair candidate fits current deficit", { s with deficits := deficits })

end Aeontra.Workqueue
