import Aeontra.Workqueue.Integrity

/-!
Runs of the store: the calls of its exported operations, one after another.

The mutex makes the calls of concurrent workers such a sequence.  Operations that only
read leave the store alone and are not calls here; `CompleteTaskWorker` and `CancelTask`
take the mutex once for each of the calls they consist of.
-/

namespace Aeontra.Workqueue

open Library

inductive Call (O : Type) where
  | enqueue (spec : Spec) (draw : Draw) (now : UnixNano)
  | createTask (spec : TaskSpec) (draw : Draw) (draws : Nat → Draw) (now : UnixNano)
  | leaseNext (pool holder : String) (ttl : Duration) (now : UnixNano) (draw : Draw)
  | leaseTaskWorker (taskID : String) (ordinal : Int) (holder : String) (ttl : Duration)
      (now : UnixNano) (draw : Draw)
  | heartbeat (jobID leaseID : String) (fence : Nat) (ttl : Duration) (now : UnixNano)
  | recoverExpired (now : UnixNano)
  | complete (jobID leaseID : String) (fence : Nat) (result : Result) (checked now : UnixNano)
  | cancel (jobID : String) (now : UnixNano)
  | failUnstartedTaskWorker (taskID : String) (ordinal : Int) (now : UnixNano)
  | cleanupTerminal (retention : Duration) (limit : Int) (now : UnixNano)
  | bindTaskWorkerOperation (binding : TaskWorkerOperationBinding) (now : UnixNano)
  | bindTaskWorker (binding : TaskWorkerBinding) (now : UnixNano)
  | recordTaskWorkerAcceptance (receipt : TaskAcceptanceReceipt) (now : UnixNano)
  | recordTaskWorkerTestReceipt (receipt : TaskTestAcceptanceReceipt) (now : UnixNano)
  | recordTaskWorkerObjective (receipt : TaskObjectiveReceipt) (now : UnixNano)
  | recordTaskIntegrationReceipt (receipt : TaskIntegrationReceipt) (now : UnixNano)
  | markTaskWorkerWorktreeCleaned (taskID : String) (ordinal : Int) (leaseID : String) (fence : Nat)
      (now : UnixNano)
  | saveDevelopmentRunnerEffect (effect : DevelopmentRunnerEffect) (leaseID : String) (fence : Nat)
      (checked now : UnixNano)
  | pruneDevelopmentRunnerEffects (retained : List String) (now : UnixNano)
  | saveDevelopmentRequest (request : DevelopmentRequest) (now : UnixNano)
  | touchDevelopmentRequest (requestID : String) (expectedRevision : Nat) (now : UnixNano)
  | saveDevelopmentObjective (objective : O) (now : UnixNano)
  | reopen

def Call.readings {O : Type} : Call O → List UnixNano
  | .enqueue _ _ now | .createTask _ _ _ now | .leaseNext _ _ _ now _
  | .leaseTaskWorker _ _ _ _ now _ | .heartbeat _ _ _ _ now | .recoverExpired now | .cancel _ now
  | .failUnstartedTaskWorker _ _ now | .cleanupTerminal _ _ now | .bindTaskWorkerOperation _ now
  | .bindTaskWorker _ now | .recordTaskWorkerAcceptance _ now | .recordTaskWorkerTestReceipt _ now
  | .recordTaskWorkerObjective _ now | .recordTaskIntegrationReceipt _ now
  | .markTaskWorkerWorktreeCleaned _ _ _ _ now | .pruneDevelopmentRunnerEffects _ now
  | .saveDevelopmentRequest _ now | .touchDevelopmentRequest _ _ now
  | .saveDevelopmentObjective _ now => [now]
  | .complete _ _ _ _ checked now | .saveDevelopmentRunnerEffect _ _ _ checked now => [checked, now]
  | .reopen => []

def Call.grants {O : Type} : Call O → Bool
  | .leaseNext .. | .leaseTaskWorker .. => true
  | _ => false

inductive Reply (O : Type) where
  | done
  | job (job : Job)
  | admitted (job : Job) (created : Bool)
  | lease (lease : Lease)
  | heartbeat (status : HeartbeatStatus)
  | worker (worker : TaskWorker)
  | task (task : TaskGroup)
  | taskAdmitted (task : TaskGroup) (created : Bool)
  | removed (count : Nat)
  | acceptance (receipt : TaskAcceptanceReceipt)
  | test (receipt : TaskTestAcceptanceReceipt)
  | objectiveReceipt (receipt : TaskObjectiveReceipt)
  | integration (receipt : TaskIntegrationReceipt)
  | effect (created : Bool)
  | request (request : DevelopmentRequest) (created : Bool)
  | objective (objective : O) (created : Bool)

def reply {O α : Type} (wrap : α → Reply O) (outcome : Except String α × Store) :
    Except String (Reply O) × Store :=
  (outcome.1.map wrap, outcome.2)

/-- No objective at all, for runs without the development operations. -/
instance : ObjectiveRecords Empty where
  objectiveID := nofun
  revision := nofun
  state := nofun
  provisions := nofun
  valid := nofun
  marshalRecord := nofun
  parseRecord _ := none
  recordDigest _ := ""
  validateTransition := nofun

section

variable {O : Type} [ObjectiveRecords O]

def Store.exec (s : Store) : Call O → Except String (Reply O) × Store
  | .enqueue spec draw now => reply (fun r => .admitted r.1 r.2) (s.enqueue spec draw now)
  | .createTask spec draw draws now =>
    reply (fun r => .taskAdmitted r.1 r.2) (s.createTask spec draw draws now)
  | .leaseNext pool holder ttl now draw => reply .lease (s.leaseNext pool holder ttl now draw)
  | .leaseTaskWorker taskID ordinal holder ttl now draw =>
    reply .worker (s.leaseTaskWorker taskID ordinal holder ttl now draw)
  | .heartbeat jobID leaseID fence ttl now =>
    reply .heartbeat (s.heartbeat jobID leaseID fence ttl now)
  | .recoverExpired now => reply (fun _ => .done) (s.recoverExpired now)
  | .complete jobID leaseID fence result checked now =>
    reply .job (s.complete jobID leaseID fence result checked now)
  | .cancel jobID now => reply .job (s.cancel jobID now)
  | .failUnstartedTaskWorker taskID ordinal now =>
    reply .task (s.failUnstartedTaskWorker taskID ordinal now)
  | .cleanupTerminal retention limit now =>
    reply .removed (s.cleanupTerminal retention limit now)
  | .bindTaskWorkerOperation binding now => reply .worker (s.bindTaskWorkerOperation binding now)
  | .bindTaskWorker binding now => reply .worker (s.bindTaskWorker binding now)
  | .recordTaskWorkerAcceptance receipt now =>
    reply .acceptance (s.recordTaskWorkerAcceptance receipt now)
  | .recordTaskWorkerTestReceipt receipt now =>
    reply .test (s.recordTaskWorkerTestReceipt receipt now)
  | .recordTaskWorkerObjective receipt now =>
    reply .objectiveReceipt (s.recordTaskWorkerObjective receipt now)
  | .recordTaskIntegrationReceipt receipt now =>
    reply .integration (s.recordTaskIntegrationReceipt receipt now)
  | .markTaskWorkerWorktreeCleaned taskID ordinal leaseID fence now =>
    reply (fun _ => .done) (s.markTaskWorkerWorktreeCleaned taskID ordinal leaseID fence now)
  | .saveDevelopmentRunnerEffect effect leaseID fence checked now =>
    reply .effect (s.saveDevelopmentRunnerEffect effect leaseID fence checked now)
  | .pruneDevelopmentRunnerEffects retained now =>
    reply (fun _ => .done) (s.pruneDevelopmentRunnerEffects retained now)
  | .saveDevelopmentRequest request now =>
    reply (fun r => .request r.1 r.2) (s.saveDevelopmentRequest request now)
  | .touchDevelopmentRequest requestID expectedRevision now =>
    reply (fun r => .request r false) (s.touchDevelopmentRequest requestID expectedRevision now)
  | .saveDevelopmentObjective objective now =>
    reply (fun r => .objective r.1 r.2) (s.saveDevelopmentObjective objective now)
  | .reopen => reply (fun _ => .done) (s.reopen O)

def Store.run (s : Store) (calls : List (Call O)) : Store := calls.foldl (fun s call => (s.exec call).2) s

@[simp] theorem run_nil (s : Store) : s.run ([] : List (Call O)) = s := rfl

@[simp] theorem run_cons (s : Store) (call : Call O) (calls : List (Call O)) :
    s.run (call :: calls) = (s.exec call).2.run calls := rfl

theorem run_append (s : Store) (first second : List (Call O)) :
    s.run (first ++ second) = (s.run first).run second :=
  List.foldl_append ..

end

def smallConfig : Config := ⟨"ctl", 1, 8, 8⟩

theorem smallConfig_valid : validateConfig smallConfig = .ok smallConfig := by decide +kernel

def sampleHash : String := "sha256:" ++ String.ofList (List.replicate 64 '0')

def sampleSpec (key : String) (dependencies : List String) : Spec :=
  ⟨key, "workspace", "pool", "profile", sampleHash, dependencies⟩

end Aeontra.Workqueue
