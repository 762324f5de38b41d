import Aeontra.Library.Machine
import Aeontra.Oauth.Store

/-!
Any number of providers that share the store files.

Each request is one method of one provider.  A method whose choices end is cut off there,
and its provider is gone until it is started again.
-/

namespace Aeontra.Oauth

open Library Process

inductive Operation
  | putAccess (token : String) (grant : AccessGrant)
  | getAccess (token : String)
  | revokeAccess (token : String)
  | putRefresh (token : String) (grant : RefreshGrant)
  | consumeRefresh (token : String)
  | rotateRefresh (oldToken newToken accessToken : String) (asked : Time)
  | revokeRefresh (token : String)
  deriving DecidableEq

inductive Request
  | start (config : Config)
  | call (operation : Operation)
  deriving DecidableEq

inductive Reply
  | down
  | crashed
  | done
  | failed (failure : Failure)
  | access (found : Option AccessGrant)
  | refresh (found : Option RefreshGrant)
  deriving DecidableEq

section

variable {α : Type}

def reporting (reply : α → Reply) (outcome : Outcome α) : Reply × Option TokenStore :=
  match outcome.1 with
  | .ok result => (reply result, some outcome.2)
  | .error failure => (.failed failure, some outcome.2)

/-- `getAccess` finds nothing when it fails. -/
def finding (outcome : Outcome (Option AccessGrant)) : Reply × Option TokenStore :=
  match outcome.1 with
  | .ok found => (.access found, some outcome.2)
  | .error _ => (.access none, some outcome.2)

def silent (outcome : Outcome Unit) : Reply × Option TokenStore := (.done, some outcome.2)

def starting (outcome : Outcome Unit) : Reply × Option TokenStore :=
  match outcome.1 with
  | .ok _ => (.done, some outcome.2)
  | .error failure => (.failed failure, none)

end

def Operation.method (now : Time) (s : TokenStore) : Operation → Program (Reply × Option TokenStore)
  | .putAccess token grant => do
    let outcome ← Oauth.putAccess s token grant now
    pure (reporting (fun _ => .done) outcome)
  | .getAccess token => do
    let outcome ← Oauth.getAccess s token now
    pure (finding outcome)
  | .revokeAccess token => do
    let outcome ← Oauth.revokeAccess s token now
    pure (silent outcome)
  | .putRefresh token grant => do
    let outcome ← Oauth.putRefresh s token grant now
    pure (reporting (fun _ => .done) outcome)
  | .consumeRefresh token => do
    let outcome ← Oauth.consumeRefresh s token now
    pure (reporting .refresh outcome)
  | .rotateRefresh oldToken newToken accessToken asked => do
    let outcome ← Oauth.rotateRefresh s oldToken newToken accessToken asked now
    pure (reporting .refresh outcome)
  | .revokeRefresh token => do
    let outcome ← Oauth.revokeRefresh s token
    pure (silent outcome)

def Request.serve (now : Time) (slot : Option TokenStore) : Request → Program (Reply × Option TokenStore)
  | .start config => do
    let outcome ← newProviderStore config now
    pure (starting outcome)
  | .call operation =>
    match slot with
    | none => pure (.down, none)
    | some s => operation.method now s

structure World (P : Type) where
  files : Files := {}
  stores : P → Option TokenStore := fun _ => none

structure Input (P : Type) where
  provider : P
  request : Request
  now : Time
  choices : List Choice

variable {P : Type} [DecidableEq P]

def exec (w : World P) (input : Input P) : Reply × World P :=
  let outcome := (input.request.serve input.now (w.stores input.provider)).run environment input.choices w.files
  match outcome.1 with
  | none => (.crashed, ⟨outcome.2, Function.update w.stores input.provider none⟩)
  | some answer => (answer.1, ⟨outcome.2, Function.update w.stores input.provider answer.2⟩)

/-- A run whose inputs are allowed where they come, at times that do not go back. -/
def Disciplined (allowed : World P → Input P → Prop) : Time → World P → List (Input P) → Prop
  | _, _, [] => True
  | since, w, input :: rest =>
    since ≤ input.now ∧ allowed w input ∧ Disciplined allowed input.now (exec w input).2 rest

abbrev Input.program (input : Input P) (w : World P) : Program (Reply × Option TokenStore) :=
  input.request.serve input.now (w.stores input.provider)

abbrev Takes {α : Type} (n : Nat) (p : Program α) : Prop := p.AtMost (fun _ => true) n

variable {input : Input P} {w : World P} {post : Reply × Option TokenStore → Files → Prop}
  {rules : Rules Call Files Choice}

theorem exec_down {operation : Operation}
    (slot : w.stores input.provider = none) (request : input.request = .call operation) :
    (exec w input).1 = .down := by
  unfold exec
  rw [slot, request]
  rfl

theorem exec_ensures (ensured : (input.program w).Ensures environment rules post w.files)
    (permitted : (input.program w).Permitted environment rules input.choices w.files) :
    (∃ files, rules.holds files ∧
      exec w input = (.crashed, ⟨files, Function.update w.stores input.provider none⟩)) ∨
    ∃ answer files, post answer files ∧
      exec w input = (answer.1, ⟨files, Function.update w.stores input.provider answer.2⟩) := by
  have final := (ensured.run permitted).2
  unfold exec
  dsimp only
  cases result : ((input.program w).run environment input.choices w.files).1 with
  | none =>
    rw [result] at final
    exact .inl ⟨_, final, rfl⟩
  | some answer =>
    rw [result] at final
    exact .inr ⟨answer, _, final, rfl⟩

theorem exec_returns (w : World P) (input : Input P) {n : Nat}
    (ensured : (input.program w).Ensures environment rules post w.files)
    (permitted : (input.program w).Permitted environment rules input.choices w.files)
    (bounded : Takes n (input.program w)) (enough : n ≤ input.choices.length) :
    ∃ answer files, post answer files ∧
      exec w input = (answer.1, ⟨files, Function.update w.stores input.provider answer.2⟩) := by
  obtain ⟨answer, returned⟩ : ∃ answer, ((input.program w).run environment input.choices
      w.files).1 = some answer := bounded.returns enough w.files
  have final := (ensured.run permitted).2
  rw [returned] at final
  refine ⟨answer, _, final, ?_⟩
  unfold exec
  dsimp only
  rw [returned]

section

variable {s : TokenStore} {now : Time} {n : Nat} {α β : Type} {p : Program α}

theorem takes_bind {f : α → Program β} (first : Takes 1 p) (rest : ∀ a, Takes n (f a)) : Takes (n + 1) (p >>= f) := by
  rw [Nat.add_comm]
  exact AtMost.bind first rest

theorem takes_load {load : Program (Except Failure TokenStore)} {f : Except Failure TokenStore → Program β}
    (first : Takes 1 load) (fails : ∀ failure, ∃ out, f (.error failure) = pure out)
    (rest : ∀ s, Takes n (f (.ok s))) : Takes (n + 1) (load >>= f) := by
  refine takes_bind first fun loaded => ?_
  cases loaded with
  | error failure =>
    obtain ⟨out, same⟩ := fails failure
    exact same ▸ atMost_pure
  | ok s => exact rest s

theorem atMost_withLock {path : String} {body : Program (Outcome α)} (bounded : Takes n body) :
    Takes (1 + n) (withAccessStoreFileLock path s body) := by
  unfold withAccessStoreFileLock
  split
  · exact bounded.mono (Nat.le_add_left n 1)
  refine AtMost.bind (atMost_perform fun _ => Nat.one_pos) fun locked => ?_
  split
  · exact bounded
  · exact atMost_pure

theorem atMost_loadAccessLocked : Takes 1 (loadAccessLocked now s) := by
  refine takes_bind (atMost_perform fun _ => Nat.one_pos) fun read => ?_
  match read with
  | none => exact atMost_pure
  | some none => exact atMost_pure
  | some (some stored) =>
    dsimp only
    split
    · exact atMost_pure
    · exact atMost_pure

theorem atMost_reloadAccess : Takes 1 (reloadAccess now s) := by
  unfold reloadAccess
  split
  · exact atMost_pure
  · exact atMost_loadAccessLocked

theorem atMost_persistAccessLocked : Takes 1 (persistAccessLocked now s) := by
  unfold persistAccessLocked
  split
  · exact atMost_pure
  · exact takes_bind (atMost_perform fun _ => Nat.one_pos) fun _ => atMost_pure

theorem atMost_putAccess (token : String) (grant : AccessGrant) : Takes 3 (putAccess s token grant now) := by
  unfold putAccess
  split
  · exact atMost_pure
  refine atMost_withLock (n := 2) (takes_load atMost_reloadAccess (fun _ => ⟨_, rfl⟩) fun s' => ?_)
  dsimp only
  split
  · exact atMost_pure
  refine takes_bind atMost_persistAccessLocked fun persisted => ?_
  split
  · exact atMost_pure
  · exact atMost_pure

theorem atMost_findAccess (digest : String) : Takes 1 (findAccess s digest now) := by
  unfold findAccess
  split
  · exact atMost_pure
  split
  · exact atMost_pure
  refine takes_load atMost_loadAccessLocked (fun _ => ⟨_, rfl⟩) fun s' => ?_
  exact atMost_pure

theorem atMost_getAccess (token : String) : Takes 3 (getAccess s token now) := by
  unfold getAccess
  split
  · exact atMost_pure
  refine atMost_withLock (n := 2) (takes_bind (atMost_findAccess _) fun found => ?_)
  unfold dropExpired
  split
  · split
    · exact takes_bind atMost_persistAccessLocked fun _ => atMost_pure
    · exact atMost_pure
  · exact atMost_pure
  · exact atMost_pure

theorem atMost_revokeAccess (token : String) : Takes 3 (revokeAccess s token now) := by
  unfold revokeAccess
  split
  · exact atMost_pure
  refine atMost_withLock (n := 2) (takes_load atMost_reloadAccess (fun _ => ⟨_, rfl⟩) fun s' => ?_)
  refine takes_bind atMost_persistAccessLocked fun persisted => ?_
  split
  · exact atMost_pure
  · exact atMost_pure

theorem atMost_reloadRefresh : Takes 1 (reloadRefresh now s) := by
  unfold reloadRefresh
  split
  · exact atMost_pure
  refine takes_bind (atMost_perform fun _ => Nat.one_pos) fun read => ?_
  match read with
  | none => exact atMost_pure
  | some none => exact atMost_pure
  | some (some document) =>
    dsimp only
    split
    · exact atMost_pure
    · exact atMost_pure

theorem atMost_persistRefreshLocked : Takes 1 (persistRefreshLocked s) := by
  unfold persistRefreshLocked
  split
  · exact atMost_pure
  · exact atMost_perform fun _ => Nat.one_pos

theorem atMost_consumeRefresh (token : String) : Takes 3 (consumeRefresh s token now) := by
  unfold consumeRefresh
  split
  · exact atMost_pure
  refine atMost_withLock (n := 2) (takes_load atMost_reloadRefresh (fun _ => ⟨_, rfl⟩) fun s' => ?_)
  dsimp only
  split
  · exact atMost_pure
  refine takes_bind atMost_persistRefreshLocked fun persisted => ?_
  split
  · split
    · exact atMost_pure
    · exact atMost_pure
  · exact atMost_pure

theorem atMost_putRefresh (token : String) (grant : RefreshGrant) : Takes 3 (putRefresh s token grant now) := by
  unfold putRefresh
  refine atMost_withLock (n := 2) (takes_load atMost_reloadRefresh (fun _ => ⟨_, rfl⟩) fun s' => ?_)
  refine takes_bind atMost_persistRefreshLocked fun persisted => ?_
  split
  · exact atMost_pure
  · exact atMost_pure

theorem atMost_writeRotation (before after : TokenStore) (old : RefreshGrant) :
    Takes 3 (writeRotation before after old now) := by
  refine takes_bind atMost_persistAccessLocked fun persisted => ?_
  split
  · refine takes_bind atMost_persistRefreshLocked fun written => ?_
    split
    · exact atMost_pure
    · exact takes_bind atMost_persistAccessLocked fun _ => atMost_pure
  · exact atMost_pure

theorem atMost_rotateLoaded (oldToken newToken accessToken : String) (asked : Time) :
    Takes 3 (rotateLoaded s oldToken newToken accessToken asked now) := by
  unfold rotateLoaded
  split
  · exact atMost_pure
  split
  · refine takes_bind atMost_persistRefreshLocked fun persisted => ?_
    split
    · exact atMost_pure
    · exact atMost_pure
  split
  · exact atMost_pure
  dsimp only
  split
  · exact atMost_pure
  split
  · exact atMost_pure
  · exact atMost_writeRotation _ _ _

theorem atMost_rotateRefresh (oldToken newToken accessToken : String) (asked : Time) :
    Takes 7 (rotateRefresh s oldToken newToken accessToken asked now) := by
  unfold rotateRefresh
  split
  · exact atMost_pure
  refine atMost_withLock (n := 6) (atMost_withLock (n := 5)
    (takes_load atMost_reloadAccess (fun _ => ⟨_, rfl⟩) fun s' => ?_))
  refine takes_bind atMost_reloadRefresh fun loaded => ?_
  cases loaded with
  | error failure => exact atMost_pure
  | ok s' => exact atMost_rotateLoaded _ _ _ _

theorem atMost_revokeRefresh (token : String) : Takes 1 (revokeRefresh s token) := by
  unfold revokeRefresh
  split
  · exact atMost_pure
  refine takes_bind atMost_persistRefreshLocked fun persisted => ?_
  split
  · exact atMost_pure
  · exact atMost_pure

theorem atMost_newProviderStore (config : Config) : Takes 3 (newProviderStore config now) := by
  refine AtMost.bind (n := 2) (m := 1) (atMost_withLock (n := 1) (AtMost.bind (n := 1) (m := 0)
    atMost_reloadAccess fun loaded => ?_)) fun loaded => ?_
  · cases loaded with
    | error failure => exact atMost_pure
    | ok s' => exact atMost_pure
  split
  · exact atMost_pure
  refine takes_load atMost_reloadRefresh (fun _ => ⟨_, rfl⟩) fun s' => ?_
  exact atMost_pure

theorem atMost_serve (request : Request) (slot : Option TokenStore) : Takes 7 (request.serve now slot) := by
  have returns : ∀ {α : Type} {p : Program α} {reply : α → Reply × Option TokenStore},
      Takes 7 p → Takes 7 (p >>= fun a => pure (reply a)) :=
    fun bounded => AtMost.bind (n := 7) (m := 0) bounded fun _ => atMost_pure
  cases request with
  | start config => exact returns ((atMost_newProviderStore config).mono (by decide))
  | call operation =>
    cases slot with
    | none => exact atMost_pure
    | some s =>
      cases operation with
      | putAccess token grant => exact returns ((atMost_putAccess token grant).mono (by decide))
      | getAccess token => exact returns ((atMost_getAccess token).mono (by decide))
      | revokeAccess token => exact returns ((atMost_revokeAccess token).mono (by decide))
      | putRefresh token grant => exact returns ((atMost_putRefresh token grant).mono (by decide))
      | consumeRefresh token => exact returns ((atMost_consumeRefresh token).mono (by decide))
      | rotateRefresh oldToken newToken accessToken asked =>
        exact returns (atMost_rotateRefresh oldToken newToken accessToken asked)
      | revokeRefresh token => exact returns ((atMost_revokeRefresh token).mono (by decide))

end

end Aeontra.Oauth
