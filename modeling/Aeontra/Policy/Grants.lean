import Aeontra.Library.Fallible
import Aeontra.Library.Instant
import Aeontra.Library.Machine
import Aeontra.Library.Table

/-!
Requests and grants for reading secret paths: a request is approved by a human and the grant
is used once.

Every call takes the mutex once, so concurrent callers make a sequence of calls.  A missing
identifier is a failed random draw.
-/

namespace Aeontra.Policy

open Library List Table

def minGrantTTL : Duration := second
def defaultGrantTTL : Duration := 5 * minute
def maxGrantTTL : Duration := hour
def pendingRequestTTL : Duration := 15 * minute
def maxPendingAccessRequests : Nat := 256

def errAccessGrantInvalid : String := "policy: access grant invalid"
def errAccessGrantExpired : String := "policy: access grant expired"
def errAccessGrantUsed : String := "policy: access grant already used"
def errAccessGrantPathMismatch : String := "policy: access grant path mismatch"
def errRawAccessDenied : String := "policy: raw secret access requires explicit raw grant"
def errAccessGrantTTL : String := "policy: access grant ttl must be between 1s and 1h"
def errAccessRequestExpired : String := "policy: access request expired"
def errAccessRequestLimit : String := "policy: too many pending access requests"

structure AccessRequest where
  id : String
  path : String
  reason : String
  rawRequested : Bool
  createdAt : Time
  expiresAt : Time
  deriving DecidableEq

structure AccessDecision where
  requestID : String
  path : String
  raw : Bool
  expiresAt : Time
  deriving DecidableEq

structure ReadGrant where
  id : String
  path : String
  raw : Bool
  expiresAt : Time
  used : Bool
  deriving DecidableEq

structure AccessGrants where
  requests : Table AccessRequest AccessRequest.id AccessRequest.id
  grants : Table ReadGrant ReadGrant.id ReadGrant.id

namespace AccessGrants

def new : AccessGrants := ⟨.empty, .empty⟩

def pruneExpired (g : AccessGrants) (now : Time) : AccessGrants where
  requests := g.requests.delete fun r => r.expiresAt < now
  grants := g.grants.delete fun r => r.expiresAt < now

def request (g : AccessGrants) (path : String) (raw : Bool) (id : Option String) (now : Time) :
    Except String AccessRequest × AccessGrants :=
  match id with
  | none => (.error "random identifier unavailable", g)
  | some id =>
    let g := g.pruneExpired now
    if maxPendingAccessRequests ≤ g.requests.rows.length then (.error errAccessRequestLimit, g)
    else
      let r : AccessRequest :=
        ⟨id, path, "secret path read requires local human approval", raw, now, now + pendingRequestTTL⟩
      (.ok r, { g with requests := g.requests.assign r })

def approve (g : AccessGrants) (id : String) (raw : Bool) (ttl : Duration) (now : Time) :
    Except String AccessDecision × AccessGrants :=
  match g.requests.find id with
  | none => (.error errAccessGrantInvalid, g)
  | some r =>
    let forgotten := { g with requests := g.requests.delete fun other => other.id = id }
    if r.expiresAt < now then (.error errAccessRequestExpired, forgotten)
    else
      let g := g.pruneExpired now
      let ttl := if ttl = 0 then defaultGrantTTL else ttl
      if ttl < minGrantTTL ∨ maxGrantTTL < ttl then (.error errAccessGrantTTL, g)
      else
        let decision : AccessDecision := ⟨id, r.path, raw, now + ttl⟩
        (.ok decision,
          { requests := g.requests.delete fun other => other.id = id
            grants := g.grants.assign ⟨id, r.path, raw, decision.expiresAt, false⟩ })

def consume (g : AccessGrants) (id path : String) (raw : Bool) (now : Time) :
    Except String Bool × AccessGrants :=
  match g.grants.find id with
  | none => (.error errAccessGrantInvalid, g)
  | some grant =>
    if grant.used then (.error errAccessGrantUsed, g)
    else if grant.expiresAt < now then
      (.error errAccessGrantExpired, { g with grants := g.grants.delete fun other => other.id = id })
    else if grant.path ≠ path then (.error errAccessGrantPathMismatch, g)
    else if raw && !grant.raw then (.error errRawAccessDenied, g)
    else (.ok grant.raw, { g with grants := g.grants.assign { grant with used := true } })

end AccessGrants

inductive GrantCall where
  | request (path : String) (raw : Bool) (id : Option String) (now : Time)
  | approve (id : String) (raw : Bool) (ttl : Duration) (now : Time)
  | consume (id path : String) (raw : Bool) (now : Time)

inductive GrantReply where
  | requested (request : AccessRequest)
  | approved (decision : AccessDecision)
  | granted (raw : Bool)
  deriving DecidableEq

def GrantCall.drawn : GrantCall → Option String
  | .request _ _ id _ => id
  | _ => none

def AccessGrants.exec (g : AccessGrants) : GrantCall → Except String GrantReply × AccessGrants
  | .request path raw id now => ((g.request path raw id now).1.map .requested, (g.request path raw id now).2)
  | .approve id raw ttl now => ((g.approve id raw ttl now).1.map .approved, (g.approve id raw ttl now).2)
  | .consume id path raw now => ((g.consume id path raw now).1.map .granted, (g.consume id path raw now).2)

/-- Requests and grants are forgotten, and an admitted request, an approval or a use of a grant is written. -/
inductive GrantStep (g : AccessGrants) : GrantCall → Except String GrantReply → AccessGrants → Prop
  | forget {call : GrantCall} {e : String} {g' : AccessGrants} (fewer : ∀ r ∈ g'.requests, r ∈ g.requests)
      (kept : ∀ r ∈ g'.grants, r ∈ g.grants) (shorter : g'.requests.rows.length ≤ g.requests.rows.length) :
      GrantStep g call (.error e) g'
  | request {path : String} {raw : Bool} {id : String} {now : Time} {r : AccessRequest} {g' : AccessGrants}
      (named : r.id = id) (path' : r.path = path) (fewer : ∀ other ∈ g'.requests, other = r ∨ other ∈ g.requests)
      (kept : ∀ r ∈ g'.grants, r ∈ g.grants) (room : g'.requests.rows.length ≤ maxPendingAccessRequests) :
      GrantStep g (.request path raw (some id) now) (.ok (.requested r)) g'
  | approve {id : String} {raw : Bool} {ttl : Duration} {now : Time} {r : AccessRequest} {d : AccessDecision}
      {g' : AccessGrants} (pending : r ∈ g.requests) (named : r.id = id)
      (decided : d = ⟨id, r.path, raw, now + if ttl = 0 then defaultGrantTTL else ttl⟩)
      (fewer : ∀ other ∈ g'.requests, other ∈ g.requests ∧ other.id ≠ id)
      (kept : ∀ other ∈ g'.grants, other = ⟨id, r.path, raw, d.expiresAt, false⟩ ∨ other ∈ g.grants)
      (shorter : g'.requests.rows.length ≤ g.requests.rows.length) :
      GrantStep g (.approve id raw ttl now) (.ok (.approved d)) g'
  | consume {id path : String} {raw : Bool} {now : Time} {grant : ReadGrant} {g' : AccessGrants}
      (present : grant ∈ g.grants) (named : grant.id = id) (unused : grant.used = false)
      (alive : now ≤ grant.expiresAt) (same : grant.path = path) (allowed : raw = true → grant.raw = true)
      (requests : g'.requests = g.requests)
      (kept : ∀ other ∈ g'.grants, other = { grant with used := true } ∨ other ∈ g.grants ∧ other.id ≠ id) :
      GrantStep g (.consume id path raw now) (.ok (.granted grant.raw)) g'

section

variable {g : AccessGrants}

theorem mem_pruneExpired_requests {now : Time} {r : AccessRequest}
    (member : r ∈ (g.pruneExpired now).requests) : r ∈ g.requests :=
  (Table.mem_delete.mp member).1

theorem mem_pruneExpired_grants {now : Time} {r : ReadGrant} (member : r ∈ (g.pruneExpired now).grants) :
    r ∈ g.grants :=
  (Table.mem_delete.mp member).1

theorem request_step (path : String) (raw : Bool) (id : Option String) (now : Time) :
    GrantStep g (.request path raw id now) (g.exec (.request path raw id now)).1
      (g.exec (.request path raw id now)).2 := by
  cases id with
  | none => exact .forget (fun _ member => member) (fun _ member => member) (Nat.le_refl _)
  | some id =>
    simp only [AccessGrants.exec, AccessGrants.request]
    split
    · exact .forget (fun _ => mem_pruneExpired_requests) (fun _ => mem_pruneExpired_grants)
        (length_delete_le ..)
    rename_i room
    refine .request rfl rfl ?_ (fun _ => mem_pruneExpired_grants) ?_
    · intro other member
      rcases Table.mem_assign.mp member with rfl | ⟨old, -⟩
      · exact .inl rfl
      · exact .inr (mem_pruneExpired_requests old)
    · refine Nat.le_trans (length_assign_le ..) ?_
      omega

theorem approve_step (id : String) (raw : Bool) (ttl : Duration) (now : Time) :
    GrantStep g (.approve id raw ttl now) (g.exec (.approve id raw ttl now)).1
      (g.exec (.approve id raw ttl now)).2 := by
  simp only [AccessGrants.exec, AccessGrants.approve]
  cases found : g.requests.find id with
  | none => exact .forget (fun _ member => member) (fun _ member => member) (Nat.le_refl _)
  | some r =>
    obtain ⟨pending, named⟩ := Table.find_eq_some.mp found
    simp only
    generalize lasts : (if ttl = 0 then defaultGrantTTL else ttl) = lifetime
    split
    · exact .forget (fun _ member => (Table.mem_delete.mp member).1) (fun _ member => member)
        (length_delete_le ..)
    split
    · exact .forget (fun _ => mem_pruneExpired_requests) (fun _ => mem_pruneExpired_grants)
        (length_delete_le ..)
    refine .approve pending named (by rw [lasts]) ?_ ?_ ?_
    · intro other member
      obtain ⟨old, differs⟩ := Table.mem_delete.mp member
      exact ⟨mem_pruneExpired_requests old, of_decide_eq_false differs⟩
    · intro other member
      rcases Table.mem_assign.mp member with rfl | ⟨old, -⟩
      · exact .inl rfl
      · exact .inr (mem_pruneExpired_grants old)
    · exact Nat.le_trans (length_delete_le ..) (length_delete_le ..)

theorem consume_step (id path : String) (raw : Bool) (now : Time) :
    GrantStep g (.consume id path raw now) (g.exec (.consume id path raw now)).1
      (g.exec (.consume id path raw now)).2 := by
  simp only [AccessGrants.exec, AccessGrants.consume]
  have unchanged (e : String) : GrantStep g (.consume id path raw now) (.error e) g :=
    .forget (fun _ member => member) (fun _ member => member) (Nat.le_refl _)
  cases found : g.grants.find id with
  | none => exact unchanged _
  | some grant =>
    obtain ⟨present, named⟩ := Table.find_eq_some.mp found
    simp only
    split
    · exact unchanged _
    split
    · exact .forget (fun _ member => member) (fun _ member => (Table.mem_delete.mp member).1)
        (Nat.le_refl _)
    split
    · exact unchanged _
    split
    · exact unchanged _
    rename_i unused alive same refused
    refine .consume present named (by simpa using unused) (not_lt.mp alive) (not_not.mp same) ?_ rfl ?_
    · intro asked
      simpa [asked] using refused
    intro other member
    rcases Table.mem_assign.mp member with rfl | ⟨old, differs⟩
    · exact .inl rfl
    · exact .inr ⟨old, named ▸ differs⟩

theorem exec_step (call : GrantCall) : GrantStep g call (g.exec call).1 (g.exec call).2 := by
  cases call with
  | request path raw id now => exact request_step path raw id now
  | approve id raw ttl now => exact approve_step id raw ttl now
  | consume id path raw now => exact consume_step id path raw now

end

open Machine

abbrev GrantEntry := Entry AccessGrants GrantCall (Except String GrantReply)

/-- Identifiers are drawn once, and never one that is already in use. -/
structure Fresh (g : AccessGrants) (calls : List GrantCall) : Prop where
  distinct : (calls.filterMap GrantCall.drawn).Nodup
  requests : ∀ id ∈ calls.filterMap GrantCall.drawn, ∀ r ∈ g.requests, r.id ≠ id
  grants : ∀ id ∈ calls.filterMap GrantCall.drawn, ∀ r ∈ g.grants, r.id ≠ id
  apart : ∀ r ∈ g.requests, ∀ grant ∈ g.grants, r.id ≠ grant.id

theorem drawn_request (path : String) (raw : Bool) (id : String) (now : Time) (calls : List GrantCall) :
    (GrantCall.request path raw (some id) now :: calls).filterMap GrantCall.drawn =
      id :: calls.filterMap GrantCall.drawn := rfl

variable {call : GrantCall} {calls : List GrantCall} {id path : String} {g : AccessGrants} {raw : Bool}

theorem mem_drawn_cons
    (later : id ∈ calls.filterMap GrantCall.drawn) : id ∈ (call :: calls).filterMap GrantCall.drawn := by
  rw [filterMap_cons]
  split
  · exact later
  · exact mem_cons_of_mem _ later

theorem distinct_tail
    (distinct : ((call :: calls).filterMap GrantCall.drawn).Nodup) : (calls.filterMap GrantCall.drawn).Nodup := by
  rw [filterMap_cons] at distinct
  split at distinct
  · exact distinct
  · exact (List.nodup_cons.mp distinct).2

theorem Fresh.step (fresh : Fresh g (call :: calls)) : Fresh (g.exec call).2 calls := by
  have step := @exec_step g call
  generalize (g.exec call).1 = answer at step
  generalize (g.exec call).2 = g' at step
  have laterRequests : ∀ id ∈ calls.filterMap GrantCall.drawn, ∀ r ∈ g.requests, r.id ≠ id :=
    fun id later => fresh.requests id (mem_drawn_cons later)
  have laterGrants : ∀ id ∈ calls.filterMap GrantCall.drawn, ∀ r ∈ g.grants, r.id ≠ id :=
    fun id later => fresh.grants id (mem_drawn_cons later)
  cases step with
  | forget fewer kept _ =>
    exact ⟨distinct_tail fresh.distinct, fun id later r member => laterRequests id later r (fewer r member),
      fun id later r member => laterGrants id later r (kept r member),
      fun r member grant present => fresh.apart r (fewer r member) grant (kept grant present)⟩
  | @request path raw id now r g' named path' fewer kept room =>
    have drawn : id ∈ (GrantCall.request path raw (some id) now :: calls).filterMap GrantCall.drawn := by
      rw [drawn_request]
      exact mem_cons_self
    have once := fresh.distinct
    rw [drawn_request, nodup_cons] at once
    refine ⟨once.2, ?_, fun id later r member => laterGrants id later r (kept r member), ?_⟩
    · intro other later r' member
      rcases fewer r' member with rfl | old
      · rintro rfl
        exact once.1 (named ▸ later)
      · exact laterRequests other later r' old
    · intro r' member grant present
      rcases fewer r' member with rfl | old
      · rw [named]
        exact (fresh.grants id drawn grant (kept grant present)).symm
      · exact fresh.apart r' old grant (kept grant present)
  | @approve id raw ttl now r d g' pending named decided fewer kept shorter =>
    refine ⟨distinct_tail fresh.distinct,
      fun other later r' member => laterRequests other later r' (fewer r' member).1, ?_, ?_⟩
    · intro other later grant present
      rcases kept grant present with rfl | old
      · exact named ▸ laterRequests other later r pending
      · exact laterGrants other later grant old
    · intro r' member grant present
      rcases kept grant present with rfl | old
      · exact (fewer r' member).2
      · exact fresh.apart r' (fewer r' member).1 grant old
  | @consume id path raw now grant g' present named unused alive same allowed requests kept =>
    refine ⟨distinct_tail fresh.distinct, ?_, ?_, ?_⟩
    · rw [requests]
      exact laterRequests
    · intro other later grant' member
      rcases kept grant' member with rfl | ⟨old, -⟩
      · exact laterGrants other later grant present
      · exact laterGrants other later grant' old
    rw [requests]
    intro r' member grant' inside
    rcases kept grant' inside with rfl | ⟨old, -⟩
    · exact fresh.apart r' member grant present
    · exact fresh.apart r' member grant' old

def uses (id : String) (e : GrantEntry) : Bool :=
  match e.input, e.answer with
  | .consume used _ _ _, .ok (.granted _) => used = id
  | _, _ => false

structure Spent (id : String) (g : AccessGrants) (calls : List GrantCall) : Prop where
  drawn : id ∉ calls.filterMap GrantCall.drawn
  requests : ∀ r ∈ g.requests, r.id ≠ id
  grants : ∀ r ∈ g.grants, r.id = id → r.used = true

theorem spent_of_uses
    (fresh : Fresh g (call :: calls)) (used : uses id (entry AccessGrants.exec g call) = true) :
    Spent id (g.exec call).2 calls := by
  have step := @exec_step g call
  simp only [entry, uses] at used
  generalize (g.exec call).1 = answer at step used
  generalize (g.exec call).2 = g' at step
  cases step with
  | forget => cases call <;> cases used
  | request => cases used
  | approve => cases used
  | @consume id' path raw now grant g' present named unused alive same allowed requests kept =>
    obtain rfl : id' = id := of_decide_eq_true used
    refine ⟨?_, ?_, ?_⟩
    · intro later
      exact fresh.grants id' (mem_drawn_cons later) grant present named
    · rw [requests]
      intro r member
      exact named ▸ fresh.apart r member grant present
    intro other member same'
    rcases kept other member with rfl | ⟨-, differs⟩
    · rfl
    · exact absurd same' differs

theorem Spent.step (spent : Spent id g (call :: calls)) : Spent id (g.exec call).2 calls := by
  have step := @exec_step g call
  generalize (g.exec call).1 = answer at step
  generalize (g.exec call).2 = g' at step
  have drawn : id ∉ calls.filterMap GrantCall.drawn := fun later => spent.drawn (mem_drawn_cons later)
  cases step with
  | forget fewer kept _ =>
    exact ⟨drawn, fun r member => spent.requests r (fewer r member),
      fun r member => spent.grants r (kept r member)⟩
  | @request path raw id' now r g' named path' fewer kept room =>
    refine ⟨drawn, ?_, fun r member => spent.grants r (kept r member)⟩
    intro other member
    rcases fewer other member with rfl | old
    · rintro rfl
      apply spent.drawn
      rw [drawn_request, named]
      exact mem_cons_self
    · exact spent.requests other old
  | @approve id' raw ttl now r d g' pending named decided fewer kept shorter =>
    refine ⟨drawn, fun other member => spent.requests other (fewer other member).1, ?_⟩
    intro other member same
    rcases kept other member with rfl | old
    · exact absurd (named.trans same) (spent.requests r pending)
    · exact spent.grants other old same
  | @consume id' path raw now grant g' present named unused alive same allowed requests kept =>
    refine ⟨drawn, requests ▸ spent.requests, ?_⟩
    intro other member same'
    rcases kept other member with rfl | ⟨old, -⟩
    · rfl
    · exact spent.grants other old same'

theorem Spent.blocks
    (spent : Spent id g (call :: calls)) : uses id (entry AccessGrants.exec g call) = false := by
  have step := @exec_step g call
  simp only [entry, uses]
  generalize (g.exec call).1 = answer at step
  generalize (g.exec call).2 = g' at step
  cases step with
  | forget => cases call <;> rfl
  | request => rfl
  | approve => rfl
  | @consume id' path raw now grant g' present named unused alive same allowed requests kept =>
    refine decide_eq_false ?_
    rintro rfl
    have used := spent.grants grant present named
    rw [unused] at used
    cases used

theorem fresh_new (distinct : (calls.filterMap GrantCall.drawn).Nodup) : Fresh .new calls :=
  ⟨distinct, fun _ _ r member => absurd member (not_mem_empty r),
    fun _ _ r member => absurd member (not_mem_empty r),
    fun r member => absurd member (not_mem_empty r)⟩

/-- The transcript shows the request and the approval that a grant comes from. -/
def Warranted (log : List GrantEntry) (id path : String) (raw : Bool) (expires : Time) : Prop :=
  (∃ e ∈ log, ∃ r : AccessRequest, e.answer = .ok (.requested r) ∧ r.id = id ∧ r.path = path) ∧
    ∃ e ∈ log, ∃ ttl now, e.input = .approve id raw ttl now ∧
      e.answer = .ok (.approved ⟨id, path, raw, expires⟩) ∧
      expires = now + if ttl = 0 then defaultGrantTTL else ttl

structure Recorded (log : List GrantEntry) (g : AccessGrants) : Prop where
  requests : ∀ r ∈ g.requests, ∃ e ∈ log, ∃ r' : AccessRequest,
    e.answer = .ok (.requested r') ∧ r'.id = r.id ∧ r'.path = r.path
  grants : ∀ r ∈ g.grants, Warranted log r.id r.path r.raw r.expiresAt
  room : g.requests.rows.length ≤ maxPendingAccessRequests

theorem Warranted.mono {log more : List GrantEntry} {expires : Time}
    (warranted : Warranted log id path raw expires) : Warranted (log ++ more) id path raw expires := by
  obtain ⟨⟨e, member, facts⟩, e', member', facts'⟩ := warranted
  exact ⟨⟨e, mem_append_left _ member, facts⟩, e', mem_append_left _ member', facts'⟩

theorem Recorded.step {log : List GrantEntry} (recorded : Recorded log g) (call : GrantCall) :
    Recorded (log ++ [entry AccessGrants.exec g call]) (g.exec call).2 := by
  have step := @exec_step g call
  have here : entry AccessGrants.exec g call ∈ log ++ [entry AccessGrants.exec g call] :=
    mem_append_right _ mem_cons_self
  have answered : (entry AccessGrants.exec g call).answer = (g.exec call).1 := rfl
  have asked : (entry AccessGrants.exec g call).input = call := rfl
  generalize entry AccessGrants.exec g call = e at here answered asked
  generalize (g.exec call).1 = answer at step answered
  generalize (g.exec call).2 = g' at step
  have requests : ∀ r ∈ g.requests, ∃ e' ∈ log ++ [e], ∃ r' : AccessRequest,
      e'.answer = .ok (.requested r') ∧ r'.id = r.id ∧ r'.path = r.path := by
    intro r member
    obtain ⟨e', logged, facts⟩ := recorded.requests r member
    exact ⟨e', mem_append_left _ logged, facts⟩
  have grants : ∀ r ∈ g.grants, Warranted (log ++ [e]) r.id r.path r.raw r.expiresAt :=
    fun r member => (recorded.grants r member).mono
  have room := recorded.room
  cases step with
  | forget fewer kept shorter =>
    exact ⟨fun r member => requests r (fewer r member), fun r member => grants r (kept r member),
      Nat.le_trans shorter room⟩
  | @request path raw id now r g' named path' fewer kept room' =>
    refine ⟨?_, fun r member => grants r (kept r member), room'⟩
    intro other member
    rcases fewer other member with rfl | old
    · exact ⟨e, here, other, answered, rfl, rfl⟩
    · exact requests other old
  | @approve id raw ttl now r d g' pending named decided fewer kept shorter =>
    refine ⟨fun other member => requests other (fewer other member).1, ?_, Nat.le_trans shorter room⟩
    intro other member
    rcases kept other member with rfl | old
    · obtain ⟨e', logged, r', answer', named', path'⟩ := requests r pending
      subst decided
      exact ⟨⟨e', logged, r', answer', named'.trans named, path'⟩, e, here, ttl, now, asked, answered, rfl⟩
    · exact grants other old
  | @consume id path raw now grant g' present named unused alive same allowed unchanged kept =>
    refine ⟨unchanged ▸ requests, ?_, unchanged ▸ room⟩
    intro other member
    rcases kept other member with rfl | ⟨old, -⟩
    · exact grants grant present
    · exact grants other old

theorem recorded_run (calls : List GrantCall) :
    Recorded (transcript AccessGrants.exec .new calls) (run AccessGrants.exec .new calls) := by
  induction calls using List.reverseRecOn with
  | nil =>
    exact ⟨fun r member => absurd member (not_mem_empty r),
      fun r member => absurd member (not_mem_empty r), Nat.zero_le _⟩
  | append_singleton calls call ih =>
    rw [transcript_append, run_append]
    exact ih.step call

theorem consume_refused {now : Time} {e : String} (refused : (g.consume id path raw now).1 = .error e)
    (kind : e = errAccessGrantPathMismatch ∨ e = errRawAccessDenied) : (g.consume id path raw now).2 = g := by
  have lively : e ≠ errAccessGrantExpired := by
    rcases kind with rfl | rfl <;> decide
  revert refused
  simp only [AccessGrants.consume]
  split
  · exact fun _ => rfl
  split
  · exact fun _ => rfl
  split
  · intro expired
    exact absurd (Except.error.inj expired).symm lively
  split
  · exact fun _ => rfl
  split
  · exact fun _ => rfl
  · intro granted
    cases granted

theorem consume_warranted {granted : Bool} {now : Time}
    (success : ((run AccessGrants.exec .new calls).consume id path raw now).1 = .ok granted) :
    ∃ expires, now ≤ expires ∧ (raw = true → granted = true) ∧
      Warranted (transcript AccessGrants.exec .new calls) id path granted expires := by
  have step := @consume_step (run AccessGrants.exec .new calls) id path raw now
  have answered : ((run AccessGrants.exec .new calls).exec (.consume id path raw now)).1 =
      .ok (.granted granted) := by
    simp only [AccessGrants.exec, success, Except.map]
  rw [answered] at step
  generalize ((run AccessGrants.exec .new calls).exec (.consume id path raw now)).2 = g' at step
  cases step with
  | consume present named unused alive same allowed requests kept =>
    have warranted := (recorded_run calls).grants _ present
    rw [named, same] at warranted
    exact ⟨_, alive, allowed, warranted⟩

def usedTwice : List GrantCall :=
  [.request "/srv/app/.env" false (some "a1") 0, .approve "a1" false 0 second,
    .consume "a1" "/srv/app/.env" false (2 * second), .consume "a1" "/srv/app/.env" false (3 * second)]

end Aeontra.Policy
