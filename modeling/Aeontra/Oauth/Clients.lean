import Aeontra.Library.Base64
import Aeontra.Oauth.Store

/-!
The registered clients of a token store, its authorization codes and its passphrase throttle.

A method runs under the store's mutex and reads the clock once.  `written` says whether the client
table, which nothing reads again, can be written after a change.
-/

namespace Aeontra.Oauth

open Library Function

def maxClients : Nat := 100
def maxRegistrationsPerWindow : Nat := 20
def registrationWindow : Duration := minute
def unactivatedClientTTL : Duration := 10 * minute

def maxPassphraseFailures : Nat := 5
def passphraseWindow : Duration := minute
def passphraseGlobalKey : String := "*"

def authCodeTTL : Duration := 60 * second

abbrev Random := { drawn : List Nat // drawn.length = 32 }

/-- A token from the bytes that were drawn; empty when none could be drawn. -/
def randToken (drawn : Option Random) : String :=
  match drawn with
  | some random => rawURLEncode random.val
  | none => ""

theorem randToken_ne_global (drawn : Option Random) : randToken drawn ≠ passphraseGlobalKey := by
  cases drawn with
  | none => decide
  | some random => exact rawURLEncode_ne (c := '*') (by decide) (by decide) random.val

theorem length_randToken (drawn : Option Random) :
    (randToken drawn).length = 0 ∨ (randToken drawn).length = 43 := by
  cases drawn with
  | none => exact .inl rfl
  | some random =>
    right
    rw [randToken, length_rawURLEncode, random.property]

def ClientReg.stale (now : Time) (client : ClientReg) : Bool :=
  !client.activated && unactivatedClientTTL ≤ now - client.createdAt

namespace TokenStore

def persistClientsLocked (s : TokenStore) (written : Bool) : Bool := s.clientStorePath == "" || written

def failures (s : TokenStore) (key : String) : List Time := (s.failTimes.read key).getD []

def pruneClients (s : TokenStore) (now : Time) : TokenStore :=
  { s with
    clients := s.clients.keep fun _ client => !client.stale now
    failTimes := s.failTimes.keep fun id _ => !(s.clients.read id).any (ClientReg.stale now) }

def pruneRegistrations (s : TokenStore) (now : Time) : TokenStore :=
  { s with regTimes := s.regTimes.filter fun t => now - t < registrationWindow }

def errRegLimited : Failure := .refused "registration limit reached"

def registerClient (s : TokenStore) (redirectURIs : List String) (now : Time) (drawn : Option Random)
    (written : Bool) : Outcome String :=
  let pruned := (s.pruneClients now).pruneRegistrations now
  if maxClients ≤ pruned.clients.size ∨ maxRegistrationsPerWindow ≤ pruned.regTimes.length then
    (.error errRegLimited, pruned)
  else
    let id := randToken drawn
    let added := { pruned with clients := pruned.clients.set id { redirectURIs := redirectURIs, createdAt := now } }
    if added.persistClientsLocked written then (.ok id, { added with regTimes := added.regTimes ++ [now] })
    else (.error .system, { added with clients := added.clients.delete id })

/-- The registration of a client; a stale one is dropped, whether or not that can be written. -/
def getClient (s : TokenStore) (id : String) (now : Time) : Option ClientReg × TokenStore :=
  if id = "" then (none, s)
  else
    match s.clients.read id with
    | none => (none, s)
    | some client =>
      if client.stale now then
        (none, { s with clients := s.clients.delete id, failTimes := s.failTimes.delete id })
      else (some client, s)

/-- Whether the code could be stored; the first one activates its client. -/
def putCode (s : TokenStore) (code : String) (c : AuthCode) (written : Bool) : Bool × TokenStore :=
  match s.clients.read c.clientID with
  | some client =>
    if client.activated then (true, { s with codes := s.codes.set code c })
    else if s.persistClientsLocked written then
      (true, { s with
        clients := s.clients.set c.clientID { client with activated := true }
        codes := s.codes.set code c })
    else (false, s)
  | none => (true, { s with codes := s.codes.set code c })

def consumeCode (s : TokenStore) (code : String) (now : Time) : Option AuthCode × TokenStore :=
  if code = "" then (none, s)
  else
    match s.codes.read code with
    | none => (none, s)
    | some c =>
      let removed := { s with codes := s.codes.delete code }
      if now > c.expiresAt then (none, removed) else (some c, removed)

def pruneFailuresLocked (s : TokenStore) (key : String) (now : Time) : TokenStore :=
  let kept := (s.failures key).filter fun t => now - t < passphraseWindow
  { s with failTimes := if kept = [] then s.failTimes.delete key else s.failTimes.set key kept }

def addFailure (s : TokenStore) (key : String) (now : Time) : TokenStore :=
  { s with failTimes := s.failTimes.set key (s.failures key ++ [now]) }

def passphraseThrottled (s : TokenStore) (clientID : String) (now : Time) : Bool × TokenStore :=
  let pruned := (s.pruneFailuresLocked clientID now).pruneFailuresLocked passphraseGlobalKey now
  (maxPassphraseFailures ≤ (pruned.failures clientID).length ||
    maxPassphraseFailures ≤ (pruned.failures passphraseGlobalKey).length, pruned)

def recordPassphraseFailure (s : TokenStore) (clientID : String) (now : Time) : TokenStore :=
  let pruned := (s.pruneFailuresLocked clientID now).pruneFailuresLocked passphraseGlobalKey now
  (pruned.addFailure clientID now).addFailure passphraseGlobalKey now

def resetPassphraseFailures (s : TokenStore) (clientID : String) : TokenStore :=
  { s with failTimes := s.failTimes.delete clientID }

def ensureFixedClient (s : TokenStore) (clientID redirectURI : String) (now : Time) (written : Bool) : Outcome Unit :=
  if clientID = "" ∨ redirectURI = "" then (.error (.refused "oauth: console client configuration is invalid"), s)
  else
    match s.clients.read clientID with
    | some existing =>
      if existing.redirectURIs = [redirectURI] then (.ok (), s)
      else (.error (.refused "oauth: console client registration conflicts with persisted state"), s)
    | none =>
      if maxClients ≤ s.clients.size then (.error (.refused "oauth: client registration limit reached"), s)
      else
        let added := { s with clients := s.clients.set clientID { redirectURIs := [redirectURI], createdAt := now } }
        if added.persistClientsLocked written then (.ok (), added)
        else (.error (.refused "oauth: could not persist console client registration"),
          { added with clients := added.clients.delete clientID })

section

variable {s : TokenStore} {key other : String} {now : Time}

theorem failures_pruneFailuresLocked (s : TokenStore) (key : String) (now : Time) :
    (s.pruneFailuresLocked key now).failures key =
      (s.failures key).filter fun t => now - t < passphraseWindow := by
  unfold pruneFailuresLocked
  dsimp only
  split
  · next empty =>
    rw [empty]
    simp [failures]
  · simp [failures]

theorem failures_pruneFailuresLocked_ne (apart : other ≠ key) :
    (s.pruneFailuresLocked key now).failures other = s.failures other := by
  unfold pruneFailuresLocked
  dsimp only
  split
  · simp [failures, update_of_ne apart]
  · simp [failures, update_of_ne apart]

theorem failures_addFailure (s : TokenStore) (key : String) (now : Time) :
    (s.addFailure key now).failures key = s.failures key ++ [now] := by
  simp [failures, addFailure]

theorem failures_addFailure_ne (apart : other ≠ key) : (s.addFailure key now).failures other = s.failures other := by
  simp [failures, addFailure, update_of_ne apart]

theorem failures_resetPassphraseFailures_ne (apart : other ≠ key) :
    (s.resetPassphraseFailures key).failures other = s.failures other := by
  simp [failures, resetPassphraseFailures, update_of_ne apart]

theorem failures_pruneClients (free : s.clients.read key = none) :
    (s.pruneClients now).failures key = s.failures key := by
  have kept : (s.pruneClients now).failTimes.read key = s.failTimes.read key := by
    unfold pruneClients
    rw [Dictionary.read_keep, free]
    cases s.failTimes.read key with
    | none => rfl
    | some times => rfl
  rw [failures, failures, kept]

theorem clients_pruneClients (free : s.clients.read key = none) :
    (s.pruneClients now).clients.read key = none := by
  simp [pruneClients, free]

theorem getClient_cases (s : TokenStore) (id : String) (now : Time) :
    ((s.getClient id now).2 = s ∧ (id ≠ "" → (s.getClient id now).1 = s.clients.read id)) ∨
    (∃ client, s.clients.read id = some client ∧ client.stale now = true ∧ (s.getClient id now).1 = none ∧
      (s.getClient id now).2 = { s with clients := s.clients.delete id, failTimes := s.failTimes.delete id }) := by
  unfold getClient
  by_cases empty : id = ""
  · rw [if_pos empty]
    exact .inl ⟨rfl, fun some => absurd empty some⟩
  rw [if_neg empty]
  cases found : s.clients.read id with
  | none => exact .inl ⟨rfl, fun _ => rfl⟩
  | some client =>
    dsimp only
    by_cases stale : client.stale now = true
    · rw [if_pos stale]
      exact .inr ⟨client, rfl, stale, rfl, rfl⟩
    · rw [if_neg stale]
      exact .inl ⟨rfl, fun _ => rfl⟩

theorem registerClient_apart (s : TokenStore) (uris : List String) (now : Time) (drawn : Option Random)
    (written : Bool) (free : s.clients.read key = none) (apart : key ≠ randToken drawn) :
    (s.registerClient uris now drawn written).2.failures key = s.failures key ∧
      (s.registerClient uris now drawn written).2.clients.read key = none := by
  have failures : ((s.pruneClients now).pruneRegistrations now).failures key = s.failures key :=
    failures_pruneClients free
  have clients : ((s.pruneClients now).pruneRegistrations now).clients.read key = none :=
    clients_pruneClients free
  unfold registerClient
  dsimp only
  split
  · exact ⟨failures, clients⟩
  split
  · refine ⟨failures, ?_⟩
    rw [Dictionary.read_set, update_of_ne apart]
    exact clients
  · refine ⟨failures, ?_⟩
    rw [Dictionary.read_delete, update_of_ne apart, Dictionary.read_set, update_of_ne apart]
    exact clients

theorem putCode_apart (s : TokenStore) (code : String) (c : AuthCode) (written : Bool)
    (free : s.clients.read key = none) :
    (s.putCode code c written).2.failures key = s.failures key ∧
      (s.putCode code c written).2.clients.read key = none := by
  unfold putCode
  cases found : s.clients.read c.clientID with
  | none => exact ⟨rfl, free⟩
  | some client =>
    dsimp only
    split
    · exact ⟨rfl, free⟩
    split
    · refine ⟨rfl, ?_⟩
      have apart : key ≠ c.clientID := by
        rintro rfl
        rw [free] at found
        cases found
      rw [Dictionary.read_set, update_of_ne apart]
      exact free
    · exact ⟨rfl, free⟩

theorem passphraseThrottled_spec (s : TokenStore) (clientID : String) (now : Time)
    (apart : clientID ≠ passphraseGlobalKey) :
    (s.passphraseThrottled clientID now).2.failures passphraseGlobalKey =
        (s.failures passphraseGlobalKey).filter (fun t => now - t < passphraseWindow) ∧
      (s.passphraseThrottled clientID now).2.clients = s.clients ∧
      ((s.passphraseThrottled clientID now).1 = false →
        ((s.failures passphraseGlobalKey).filter fun t => now - t < passphraseWindow).length <
          maxPassphraseFailures) := by
  have bucket : ((s.pruneFailuresLocked clientID now).pruneFailuresLocked passphraseGlobalKey now).failures
      passphraseGlobalKey = (s.failures passphraseGlobalKey).filter (fun t => now - t < passphraseWindow) := by
    rw [failures_pruneFailuresLocked, failures_pruneFailuresLocked_ne apart.symm]
  refine ⟨bucket, rfl, fun passed => ?_⟩
  unfold passphraseThrottled at passed
  rw [Bool.or_eq_false_iff, decide_eq_false_iff_not, decide_eq_false_iff_not, bucket] at passed
  exact Nat.lt_of_not_le passed.2

theorem recordPassphraseFailure_spec (s : TokenStore) (clientID : String) (now : Time)
    (apart : clientID ≠ passphraseGlobalKey) :
    (s.recordPassphraseFailure clientID now).failures passphraseGlobalKey =
        (s.failures passphraseGlobalKey).filter (fun t => now - t < passphraseWindow) ++ [now] ∧
      (s.recordPassphraseFailure clientID now).clients = s.clients := by
  refine ⟨?_, rfl⟩
  unfold recordPassphraseFailure
  rw [failures_addFailure, failures_addFailure_ne apart.symm, failures_pruneFailuresLocked,
    failures_pruneFailuresLocked_ne apart.symm]

end

end TokenStore

end Aeontra.Oauth
