import Aeontra.Mcpserver.Batch

/-!
The session under which `handleHTTPPost` handles a request, and what the requests of one session see
of the others.

The branch for requests without an `initialize` message declares a `sessionID` of its own, so the
one that is handed on stays empty there.
-/

namespace Aeontra.Mcpserver

structure ClientCapabilities where
  clientName : String
  clientVersion : String
  protocolVersion : String
  samplingSupported : Bool
  rootsSupported : Bool
  elicitationSupported : Bool
  observedAt : String
  deriving DecidableEq, Inhabited

inductive Message where
  | single (element : Element)
  | batch (body : Body)

def Element.method : Element → Option String
  | .request r => some r.method
  | .null => some ""
  | .malformed method => method

/-- A batch is decoded as a whole here: one unreadable element hides the others. -/
def containsInitialize : Message → Bool
  | .single element => element.method = some "initialize"
  | .batch body =>
    body.opened && body.ending = .closed && body.elements.all (fun element => element.method.isSome) &&
      body.elements.any fun element => element.method = some "initialize"

inductive Validation where
  | valid (capabilities : ClientCapabilities)
  | expired
  | unknown
  | unavailable

/-- A request with what the lifecycle and the session store answer. The header is trimmed; a created id is
never empty. -/
structure Post where
  message : Message
  draining : Bool
  header : String
  validation : Validation
  updated : Bool
  created : Option { id : String // id ≠ "" }

/-- The session that a request belongs to, the key it is handled under, and the capabilities put back. -/
structure Session where
  owner : String
  key : String
  stored : Option ClientCapabilities

def Post.createBound (p : Post) : Option Session := p.created.map fun id => ⟨id.val, id.val, none⟩

def Post.session (p : Post) : Option Session :=
  if containsInitialize p.message then
    if p.draining then none
    else if p.header = "" then p.createBound
    else
      match p.validation with
      | .unavailable => none
      | .valid _ => if p.updated then some ⟨p.header, p.header, none⟩ else none
      | _ => p.createBound
  else if p.header = "" then none
  else
    match p.validation with
    | .valid capabilities => some ⟨p.header, "", some capabilities⟩
    | _ => none

/-- What the sessions share.  A wait is kept under its key and its runtime joined by a NUL, which no
session id contains; a pair stands for it. -/
structure Sessions where
  bySession : String → Option ClientCapabilities
  modelWaits : List (String × String)

namespace Sessions

def new : Sessions := ⟨fun _ => none, []⟩

def record (s : Sessions) (sessionKey : String) (capabilities : ClientCapabilities) : Sessions :=
  { s with
    bySession := Function.update s.bySession (if sessionKey = "" then "unknown" else sessionKey)
      (some capabilities) }

def put (s : Sessions) (sessionKey : String) (capabilities : ClientCapabilities) : Sessions :=
  if sessionKey = "" then s
  else { s with bySession := Function.update s.bySession sessionKey (some capabilities) }

def snapshot (s : Sessions) (sessionKey : String) : ClientCapabilities := (s.bySession sessionKey).getD default

def beginModelWaitMany (s : Sessions) (sessionKey : String) (runtimeIDs : List String) : Bool × Sessions :=
  if runtimeIDs.any fun runtimeID => (sessionKey, runtimeID) ∈ s.modelWaits then (false, s)
  else (true, { s with modelWaits := runtimeIDs.map (fun runtimeID => (sessionKey, runtimeID)) ++ s.modelWaits })

def endModelWaitMany (s : Sessions) (sessionKey : String) (runtimeIDs : List String) : Sessions :=
  { s with modelWaits := s.modelWaits.filter fun wait => ¬ (wait.1 = sessionKey ∧ wait.2 ∈ runtimeIDs) }

end Sessions

/-- What handling a request does to the shared state; between its two ends a wait holds nothing. -/
inductive Op where
  | accept
  | record (capabilities : ClientCapabilities)
  | clientCapabilities
  | beginWait (runtimeIDs : List String)
  | endWait (runtimeIDs : List String)

inductive Answer where
  | rejected
  | done
  | capabilities (capabilities : ClientCapabilities)
  | waits (begun : Bool)
  deriving DecidableEq

def Session.perform (session : Session) : Op → Sessions → Answer × Sessions
  | .accept, s => (.done, session.stored.elim s (s.put session.owner))
  | .record capabilities, s => (.done, s.record session.key capabilities)
  | .clientCapabilities, s => (.capabilities (s.snapshot session.key), s)
  | .beginWait runtimeIDs, s =>
    ((.waits (s.beginModelWaitMany session.key runtimeIDs).1), (s.beginModelWaitMany session.key runtimeIDs).2)
  | .endWait runtimeIDs, s => (.done, s.endModelWaitMany session.key runtimeIDs)

structure Event where
  request : Post
  op : Op

def Event.owner (e : Event) : Option String := e.request.session.map Session.owner

def Event.step (e : Event) (s : Sessions) : Answer × Sessions :=
  match e.request.session with
  | none => (.rejected, s)
  | some session => session.perform e.op s

def answersTo (owner : String) : List Event → Sessions → List Answer
  | [], _ => []
  | e :: run, s =>
    if e.owner = some owner then (e.step s).1 :: answersTo owner run (e.step s).2
    else answersTo owner run (e.step s).2

def opsOf (owner : String) (run : List Event) : List Op :=
  (run.filter fun e => e.owner = some owner).map Event.op

/-- The capabilities of the last `initialize` of a session, and the runtimes it waits for. -/
structure Alone where
  last : Option ClientCapabilities
  waits : List String

def Alone.step (alone : Alone) : Op → Answer × Alone
  | .accept => (.done, alone)
  | .record capabilities => (.done, { alone with last := some capabilities })
  | .clientCapabilities => (.capabilities (alone.last.getD default), alone)
  | .beginWait runtimeIDs =>
    if runtimeIDs.any fun runtimeID => runtimeID ∈ alone.waits then (.waits false, alone)
    else (.waits true, { alone with waits := runtimeIDs ++ alone.waits })
  | .endWait runtimeIDs => (.done, { alone with waits := alone.waits.filter fun runtimeID => runtimeID ∉ runtimeIDs })

def Alone.answers : List Op → Alone → List Answer
  | [], _ => []
  | op :: ops, alone => (alone.step op).1 :: Alone.answers ops (alone.step op).2

/-- The shared state shows a session what it would have alone. -/
structure Shows (owner : String) (s : Sessions) (alone : Alone) : Prop where
  last : s.bySession owner = alone.last
  waits : ∀ runtimeID, (owner, runtimeID) ∈ s.modelWaits ↔ runtimeID ∈ alone.waits

structure Session.Proper (session : Session) : Prop where
  key : session.key = session.owner
  named : session.owner ≠ ""
  stored : session.stored = none

theorem createBound_proper {p : Post} {session : Session} (made : p.createBound = some session) :
    session.Proper := by
  obtain ⟨⟨id, named⟩, -, rfl⟩ := Option.map_eq_some_iff.mp made
  exact ⟨rfl, named, rfl⟩

theorem session_cases {p : Post} {session : Session} (opened : p.session = some session) :
    containsInitialize p.message = true ∧ session.Proper ∨
      containsInitialize p.message = false ∧ session.key = "" ∧ session.owner ≠ "" := by
  unfold Post.session at opened
  cases initializing : containsInitialize p.message with
  | true =>
    refine .inl ⟨rfl, ?_⟩
    rw [initializing, if_pos rfl] at opened
    split at opened
    · cases opened
    split at opened
    · exact createBound_proper opened
    rename_i named
    split at opened
    · cases opened
    · split at opened
      · cases opened
        exact ⟨rfl, named, rfl⟩
      · cases opened
    · exact createBound_proper opened
  | false =>
    refine .inr ⟨rfl, ?_⟩
    rw [initializing, if_neg Bool.false_ne_true] at opened
    split at opened
    · cases opened
    rename_i named
    split at opened
    · cases opened
      exact ⟨rfl, named⟩
    · cases opened

section

variable {owner : String} {s : Sessions} {alone : Alone} {session : Session}

theorem Shows.own (shows_ : Shows owner s alone) (proper : session.Proper) (own : session.owner = owner) (op : Op) :
    (session.perform op s).1 = (alone.step op).1 ∧ Shows owner (session.perform op s).2 (alone.step op).2 := by
  have key : session.key = owner := proper.key.trans own
  have named : owner ≠ "" := own ▸ proper.named
  cases op with
  | accept => exact ⟨rfl, by rw [Session.perform, proper.stored]; exact shows_⟩
  | record capabilities =>
    refine ⟨rfl, ?_, shows_.waits⟩
    simp [Session.perform, Sessions.record, Alone.step, key, named]
  | clientCapabilities => exact ⟨by simp [Session.perform, Sessions.snapshot, Alone.step, key, shows_.last], shows_⟩
  | beginWait runtimeIDs =>
    have same : (runtimeIDs.any fun runtimeID => (session.key, runtimeID) ∈ s.modelWaits) =
        runtimeIDs.any fun runtimeID => runtimeID ∈ alone.waits := by
      simp only [key, shows_.waits]
    simp only [Session.perform, Sessions.beginModelWaitMany, Alone.step, same]
    split
    · exact ⟨rfl, shows_⟩
    · exact ⟨rfl, shows_.last, fun runtimeID => by simp [key, shows_.waits]⟩
  | endWait runtimeIDs =>
    exact ⟨rfl, shows_.last, fun runtimeID => by
      simp [Session.perform, Sessions.endModelWaitMany, Alone.step, key, shows_.waits]⟩

theorem Shows.others (shows_ : Shows owner s alone) (proper : session.Proper) (other : session.owner ≠ owner)
    (op : Op) : Shows owner (session.perform op s).2 alone := by
  have key : session.key ≠ owner := proper.key ▸ other
  have named : session.key ≠ "" := proper.key ▸ proper.named
  cases op with
  | accept =>
    rw [Session.perform, proper.stored]
    exact shows_
  | record capabilities =>
    refine ⟨?_, shows_.waits⟩
    simp [Session.perform, Sessions.record, named, Function.update_of_ne key.symm, shows_.last]
  | clientCapabilities => exact shows_
  | beginWait runtimeIDs =>
    simp only [Session.perform, Sessions.beginModelWaitMany]
    split
    · exact shows_
    · exact ⟨shows_.last, fun runtimeID => by simp [key, shows_.waits]⟩
  | endWait runtimeIDs =>
    exact ⟨shows_.last, fun runtimeID => by
      simp [Session.perform, Sessions.endModelWaitMany, key.symm, shows_.waits]⟩

end

/-- Every request that is handled contains an `initialize` message. -/
def Initializing (run : List Event) : Prop :=
  ∀ e ∈ run, ∀ session, e.request.session = some session → containsInitialize e.request.message = true

theorem answersTo_eq {owner : String} {run : List Event} (initializing : Initializing run) {s : Sessions}
    {alone : Alone} (shows_ : Shows owner s alone) :
    answersTo owner run s = Alone.answers (opsOf owner run) alone := by
  induction run generalizing s alone with
  | nil => rfl
  | cons e run ih =>
    have later : Initializing run := fun e member => initializing e (List.mem_cons_of_mem _ member)
    cases opened : e.request.session with
    | none =>
      have owned : e.owner = none := congrArg (Option.map Session.owner) opened
      have skipped : e.step s = (.rejected, s) := by rw [Event.step, opened]
      simpa [answersTo, opsOf, owned, skipped] using ih later shows_
    | some session =>
      have owned : e.owner = some session.owner := congrArg (Option.map Session.owner) opened
      have taken : e.step s = session.perform e.op s := by rw [Event.step, opened]
      have whole := initializing e List.mem_cons_self session opened
      have proper : session.Proper := by
        rcases session_cases opened with ⟨-, proper⟩ | ⟨hidden, -⟩
        · exact proper
        · cases whole.symm.trans hidden
      by_cases own : session.owner = owner
      · obtain ⟨answer, next⟩ := shows_.own proper own e.op
        simpa [answersTo, opsOf, owned, own, taken, answer, Alone.answers] using ih later next
      · have next := shows_.others proper own e.op
        simpa [answersTo, opsOf, owned, own, taken] using ih later next

/-- Requests are handled under their own sessions exactly when they all contain an `initialize`
message, and then each session is answered as if it were alone, whatever the others do. -/
theorem sessions_separate_iff (run : List Event) :
    ((∀ e ∈ run, ∀ session, e.request.session = some session → session.key = session.owner) ↔ Initializing run) ∧
      (Initializing run → ∀ owner,
        answersTo owner run .new = Alone.answers (opsOf owner run) ⟨none, []⟩ ∧
        ∀ other, Initializing other → opsOf owner other = opsOf owner run →
          answersTo owner other .new = answersTo owner run .new) := by
  have start : ∀ owner, Shows owner .new ⟨none, []⟩ := fun owner => ⟨rfl, fun _ => by simp [Sessions.new]⟩
  constructor
  · constructor
    · intro own e member session opened
      rcases session_cases opened with ⟨whole, -⟩ | ⟨-, key, named⟩
      · exact whole
      · exact absurd ((own e member session opened).symm.trans key) named
    · intro initializing e member session opened
      rcases session_cases opened with ⟨-, proper⟩ | ⟨hidden, -⟩
      · exact proper.key
      · cases (initializing e member session opened).symm.trans hidden
  · intro initializing owner
    refine ⟨answersTo_eq initializing (start owner), ?_⟩
    intro other initializing' same
    rw [answersTo_eq initializing (start owner), answersTo_eq initializing' (start owner), same]

/-- A batch with an `initialize` message and a tool call. -/
def openingBatch (sessionID : String) (op : Op) : Event :=
  ⟨⟨.batch ⟨true, [.request ⟨some "1", "initialize", none⟩, .request ⟨some "2", "tools/call", none⟩], .closed⟩, false,
    sessionID, .valid default, true, none⟩, op⟩

/-- Two sessions wait for one runtime in such batches, and neither is refused. -/
theorem sessions_separate_batches :
    let run := [openingBatch "a" (.beginWait ["r"]), openingBatch "b" (.beginWait ["r"])]
    Initializing run ∧ answersTo "b" run .new = Alone.answers [.beginWait ["r"]] ⟨none, []⟩ ∧
      answersTo "b" run .new = [.waits true] := by
  intro run
  have initializing : Initializing run := by
    intro e member session opened
    simp only [run, List.mem_cons, List.not_mem_nil, or_false] at member
    rcases member with rfl | rfl <;> rfl
  exact ⟨initializing, ((sessions_separate_iff run).2 initializing "b").1, by decide +kernel⟩

def waitRequest (sessionID : String) : Event :=
  ⟨⟨.single (.request ⟨some "1", "tools/call", none⟩), false, sessionID, .valid default, true, none⟩, .beginWait ["r"]⟩

/-- Two sessions wait for one runtime, and the second is refused. -/
theorem other_session_refuses_wait : answersTo "b" [waitRequest "a", waitRequest "b"] .new = [.waits false] ∧
    answersTo "b" [waitRequest "b"] .new = [.waits true] ∧
    opsOf "b" [waitRequest "a", waitRequest "b"] = opsOf "b" [waitRequest "b"] :=
  ⟨by decide +kernel, by decide +kernel, rfl⟩

end Aeontra.Mcpserver
