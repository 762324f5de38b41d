import Mathlib.Data.List.Forall2
import Mathlib.Data.List.ReduceOption

/-!
Dispatch of JSON-RPC messages and batches: `handleObservedSession`, `handleBatchObservedSession`.

What `encoding/json` makes of a body is the input.  The elements of a batch are executed one by one
as they are decoded, so a fault behind them is seen too late; and each method answers or not
whether the element has an id or not.
-/

namespace Aeontra.Mcpserver

def maxHTTPBatchItems : Nat := 128

/-- `id` and `params` are the raw texts; `none` is a member that is absent. -/
structure RpcRequest where
  id : Option String
  method : String
  params : Option String
  deriving DecidableEq

/-- One element decoded as a request: `null` leaves it empty, and what is none may have a readable method. -/
inductive Element where
  | request (r : RpcRequest)
  | null
  | malformed (method : Option String)
  deriving DecidableEq

structure RpcError where
  code : Int
  message : String
  deriving DecidableEq

structure RpcResponse (Value : Type) where
  id : Option String
  result : Except RpcError Value

structure Tools (σ Value : Type) where
  emptyObject : Value
  initializeResult : (params : Option String) → (sessionKey : String) → σ → Value × σ
  listTools : σ → Value
  callTool : RpcRequest → (sessionKey : String) → σ → Except RpcError Value × σ

variable {σ Value : Type}

def errorResponse (id : Option String) (code : Int) (message : String) : RpcResponse Value :=
  ⟨id, .error ⟨code, message⟩⟩

def handleRequest (tools : Tools σ Value) (sessionKey : String) (r : RpcRequest) (s : σ) :
    Option (RpcResponse Value) × σ :=
  if r.method = "initialize" then
    let (value, s) := tools.initializeResult r.params sessionKey s
    (some ⟨r.id, .ok value⟩, s)
  else if r.method = "notifications/initialized" ∨ r.method = "notifications/cancelled" then (none, s)
  else if r.method = "ping" then (some ⟨r.id, .ok tools.emptyObject⟩, s)
  else if r.method = "tools/list" then (some ⟨r.id, .ok (tools.listTools s)⟩, s)
  else if r.method = "tools/call" then
    let (result, s) := tools.callTool r sessionKey s
    (some ⟨r.id, result⟩, s)
  else if r.id = none then (none, s)
  else (some (errorResponse r.id (-32601) ("method not found: " ++ r.method)), s)

def Element.toRequest : Element → Option RpcRequest
  | .request r => some r
  | .null => some ⟨none, "", none⟩
  | .malformed _ => none

def handleObservedSession (tools : Tools σ Value) (sessionKey : String) (element : Element) (s : σ) :
    Option (RpcResponse Value) × σ :=
  match element.toRequest with
  | none => (some (errorResponse none (-32700) "parse error"), s)
  | some r => handleRequest tools sessionKey r s

/-- What comes after the last whole element: the closing bracket alone, more text behind it, nothing, or a
text that is no element. -/
inductive Ending where
  | closed | trailing | cut | garbled
  deriving DecidableEq

structure Body where
  opened : Bool
  elements : List Element
  ending : Ending
  deriving DecidableEq

structure Batch (σ Value : Type) where
  responses : List (RpcResponse Value)
  executed : List Element
  state : σ

def Batch.fail (b : Batch σ Value) (code : Int) (message : String) : Batch σ Value :=
  { b with responses := [errorResponse none code message] }

/-- The loop over the decoder; `count` is the number of elements before. -/
def batchLoop (tools : Tools σ Value) (sessionKey : String) (ending : Ending) :
    (count : Nat) → List Element → Batch σ Value → Batch σ Value
  | count, [], b =>
    if ending = .garbled then
      if maxHTTPBatchItems < count + 1 then b.fail (-32600) "invalid request: batch too large"
      else b.fail (-32700) "parse error"
    else if count = 0 then b.fail (-32600) "invalid request: empty batch"
    else if ending = .closed then b
    else b.fail (-32700) "parse error"
  | count, element :: rest, b =>
    if maxHTTPBatchItems < count + 1 then b.fail (-32600) "invalid request: batch too large"
    else
      let handled := handleObservedSession tools sessionKey element b.state
      batchLoop tools sessionKey ending (count + 1) rest
        ⟨b.responses ++ handled.1.toList, b.executed ++ [element], handled.2⟩

def handleBatch (tools : Tools σ Value) (sessionKey : String) (body : Body) (s : σ) : Batch σ Value :=
  if body.opened then batchLoop tools sessionKey body.ending 0 body.elements ⟨[], [], s⟩
  else Batch.fail ⟨[], [], s⟩ (-32700) "parse error"

/-- One JSON array of at least one element and not too many. -/
def Body.wellFormed (body : Body) : Bool :=
  body.opened && body.ending = .closed && 1 ≤ body.elements.length && body.elements.length ≤ maxHTTPBatchItems

/-- The element carries an id, or is no request. -/
def Element.expects : Element → Bool
  | .request r => r.id.isSome
  | _ => true

def Element.id : Element → Option String
  | .request r => r.id
  | _ => none

/-- An answer where one is due and none elsewhere, under the id of the element. -/
def Answers (element : Element) (answer : Option (RpcResponse Value)) : Prop :=
  answer.isSome = element.expects ∧ ∀ response ∈ answer, response.id = element.id

def answersOf (tools : Tools σ Value) (sessionKey : String) : List Element → σ → List (Option (RpcResponse Value))
  | [], _ => []
  | element :: rest, s =>
    let handled := handleObservedSession tools sessionKey element s
    handled.1 :: answersOf tools sessionKey rest handled.2

def AllOrNothing (tools : Tools σ Value) (sessionKey : String) (body : Body) (s : σ) : Prop :=
  let outcome := handleBatch tools sessionKey body s
  let answers := answersOf tools sessionKey body.elements s
  if body.wellFormed then
    outcome.executed = body.elements ∧ List.Forall₂ Answers body.elements answers ∧
      outcome.responses = answers.reduceOption
  else outcome.executed = [] ∧ ∃ e, outcome.responses = [⟨none, .error e⟩]

/-- A method that always answers comes with an id, a notification without one, and nothing is `null`. -/
def Element.regular : Element → Bool
  | .request r =>
    if r.method ∈ ["initialize", "ping", "tools/list", "tools/call"] then r.id.isSome
    else if r.method ∈ ["notifications/initialized", "notifications/cancelled"] then r.id.isNone
    else true
  | .null => false
  | .malformed _ => true

/-- The body is an array of regular elements, or it is at fault before its first element. -/
def Body.regular (body : Body) : Bool :=
  if body.wellFormed then body.elements.all Element.regular else !body.opened || body.elements = []

section

variable {tools : Tools σ Value} {sessionKey : String} {ending : Ending}

theorem handleRequest_answer (r : RpcRequest) (s : σ) :
    Answers (.request r) (handleRequest tools sessionKey r s).1 ↔ (Element.request r).regular = true := by
  unfold handleRequest Answers Element.regular
  by_cases notified : r.method = "notifications/initialized" ∨ r.method = "notifications/cancelled"
  · rcases notified with same | same <;> simp [same, Element.expects]
  · simp only [not_or] at notified
    split_ifs <;> simp_all [errorResponse, Element.expects, Element.id, Option.isSome_iff_ne_none]

theorem answers_iff (element : Element) (s : σ) :
    Answers element (handleObservedSession tools sessionKey element s).1 ↔ element.regular = true := by
  cases element with
  | request r => exact handleRequest_answer r s
  | null => simp [Answers, handleObservedSession, Element.toRequest, handleRequest, Element.expects, Element.regular]
  | malformed method =>
    simp [Answers, handleObservedSession, Element.toRequest, errorResponse, Element.expects,
      Element.regular, Element.id]

theorem answersOf_iff (elements : List Element) (s : σ) :
    List.Forall₂ Answers elements (answersOf tools sessionKey elements s) ↔
      elements.all Element.regular = true := by
  induction elements generalizing s with
  | nil => simp [answersOf]
  | cons element rest ih =>
    rw [answersOf, List.forall₂_cons, ih, answers_iff, List.all_cons, Bool.and_eq_true]

theorem batchLoop_outcome (tools : Tools σ Value) (sessionKey : String) (ending : Ending) {count : Nat}
    (elements : List Element) (b : Batch σ Value) (bounded : count ≤ maxHTTPBatchItems) :
    (batchLoop tools sessionKey ending count elements b).executed =
        b.executed ++ elements.take (maxHTTPBatchItems - count) ∧
      if ending = .closed ∧ 1 ≤ count + elements.length ∧ count + elements.length ≤ maxHTTPBatchItems then
        (batchLoop tools sessionKey ending count elements b).responses =
          b.responses ++ (answersOf tools sessionKey elements b.state).reduceOption
      else ∃ e, (batchLoop tools sessionKey ending count elements b).responses = [⟨none, .error e⟩] := by
  induction elements generalizing count b with
  | nil =>
    rw [batchLoop, List.take_nil, List.append_nil]
    cases ending with
    | garbled => split_ifs <;> simp_all [Batch.fail, errorResponse]
    | closed | trailing | cut => split_ifs <;> simp_all [Batch.fail, errorResponse, answersOf, List.reduceOption]
  | cons element rest ih =>
    rw [batchLoop]
    by_cases full : maxHTTPBatchItems < count + 1
    · obtain rfl : count = maxHTTPBatchItems := by omega
      rw [if_pos full, if_neg (by simp)]
      exact ⟨by simp [Batch.fail], _, rfl⟩
    · rw [if_neg full, answersOf]
      generalize handleObservedSession tools sessionKey element b.state = handled
      have fits : count + 1 ≤ maxHTTPBatchItems := by omega
      obtain ⟨executed, responses⟩ :=
        ih ⟨b.responses ++ handled.1.toList, b.executed ++ [element], handled.2⟩ fits
      obtain ⟨left, more⟩ : ∃ left, maxHTTPBatchItems - count = left + 1 := ⟨_, (Nat.succ_pred (by omega)).symm⟩
      have fewer : maxHTTPBatchItems - (count + 1) = left := by omega
      refine ⟨?_, ?_⟩
      · rw [executed, more, fewer, List.take_succ_cons, List.append_assoc, List.singleton_append]
      rw [List.length_cons, Nat.add_comm rest.length, ← Nat.add_assoc]
      split_ifs at responses ⊢
      · rw [responses]
        cases handled.1 <;> simp [List.reduceOption]
      · exact responses

end

def idleTools : Tools Unit Unit := ⟨(), fun _ _ s => ((), s), fun _ => (), fun _ _ s => (.ok (), s)⟩

end Aeontra.Mcpserver
