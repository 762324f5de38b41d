import Mathlib.Data.List.Sort
import Aeontra.Library.Dictionary
import Aeontra.Library.Fallible
import Aeontra.Library.Instant
import Aeontra.Library.Process
import Aeontra.Library.Sha256

/-!
The token store of a provider: its grants, and the files it keeps them in.

A method runs under the store's mutex and reads the clock once.  What it asks of the file
system is a request that may fail; the answer to a write carries the size of the encoded
document.  A path only says whether a file is kept: providers with a path share the file.
-/

namespace Aeontra.Oauth

open Library Process

def maxAccessGrants : Nat := 1024
def maxAccessStoreSize : Nat := 2 ^ 20
def maxAccessClientID : Nat := 256
def maxAccessScope : Nat := 256
def maxAccessResource : Nat := 4096

def accessTokenTTL : Duration := hour
def refreshTokenTTL : Duration := 30 * 24 * hour

structure AccessGrant where
  clientID : String := ""
  resource : String := ""
  scope : String := ""
  expiresAt : Time := zeroTime
  deriving DecidableEq

structure AuthCode where
  clientID : String
  redirectURI : String
  codeChallenge : String
  scope : String
  resource : String
  expiresAt : Time
  deriving DecidableEq

structure RefreshGrant where
  clientID : String := ""
  scope : String := ""
  resource : String := ""
  expiresAt : Time := zeroTime
  deriving DecidableEq

structure ClientReg where
  redirectURIs : List String
  createdAt : Time
  activated : Bool := false
  deriving DecidableEq

structure TokenStore where
  access : Dictionary String AccessGrant := ∅
  codes : Dictionary String AuthCode := ∅
  refresh : Dictionary String RefreshGrant := ∅
  clients : Dictionary String ClientReg := ∅
  clientStorePath : String := ""
  accessStorePath : String := ""
  refreshStorePath : String := ""
  regTimes : List Time := []
  failTimes : Dictionary String (List Time) := ∅

def newTokenStore : TokenStore := {}

structure AccessStoreRecord where
  digest : String
  clientID : String
  scope : String
  resource : String
  expiresAt : Time
  deriving DecidableEq

structure AccessStoreFile where
  version : Int
  access : List AccessStoreRecord
  deriving DecidableEq

structure RefreshStoreRecord where
  token : String
  clientID : String
  scope : String
  resource : String
  expiresAt : Time
  deriving DecidableEq

structure RefreshStoreFile where
  version : Int
  refresh : List RefreshStoreRecord
  deriving DecidableEq

/-- An access store on disk: the document and the number of bytes it takes. -/
structure StoredAccess where
  document : AccessStoreFile
  size : Nat
  deriving DecidableEq

structure Files where
  access : Option StoredAccess := none
  refresh : Option RefreshStoreFile := none
  deriving DecidableEq

inductive Call
  | lock
  | readAccess
  | writeAccess (document : AccessStoreFile)
  | readRefresh
  | writeRefresh (document : RefreshStoreFile)
  deriving DecidableEq

abbrev Call.Answer : Call → Type
  | .lock => Bool
  | .readAccess => Option (Option StoredAccess)
  | .writeAccess _ => Bool
  | .readRefresh => Option (Option RefreshStoreFile)
  | .writeRefresh _ => Bool

abbrev Program := Process Call Call.Answer

/-- Whether a request succeeds, and the size of a document that it writes. -/
structure Choice where
  ok : Bool := true
  size : Nat := 0
  deriving DecidableEq

/-- A write replaces the whole file or does nothing (`writeFileAtomic0600`). -/
def react : (call : Call) → Choice → Files → call.Answer × Files
  | .lock, choice, files => (choice.ok, files)
  | .readAccess, choice, files => (if choice.ok then some files.access else none, files)
  | .writeAccess document, choice, files =>
    (choice.ok, if choice.ok then { files with access := some ⟨document, choice.size⟩ } else files)
  | .readRefresh, choice, files => (if choice.ok then some files.refresh else none, files)
  | .writeRefresh document, choice, files =>
    (choice.ok, if choice.ok then { files with refresh := some document } else files)

def environment : Environment Call Call.Answer Files Choice := ⟨react⟩

def lockFile : Program Bool := perform Call.lock
def readAccess : Program (Option (Option StoredAccess)) := perform Call.readAccess
def writeAccess (document : AccessStoreFile) : Program Bool := perform (Call.writeAccess document)
def readRefresh : Program (Option (Option RefreshStoreFile)) := perform Call.readRefresh
def writeRefresh (document : RefreshStoreFile) : Program Bool := perform (Call.writeRefresh document)

/-- Why a method fails: the file system, or a check of its own. -/
inductive Failure
  | system
  | refused (message : String)
  deriving DecidableEq

abbrev Outcome (α : Type) := Except Failure α × TokenStore

def withAccessStoreFileLock {α : Type} (path : String) (s : TokenStore)
    (body : Program (Outcome α)) : Program (Outcome α) :=
  if path = "" then body
  else do
    let locked ← lockFile
    if locked then body else pure (.error .system, s)

section

def accessTokenDigest (token : String) : String := sha256Hex token

def isHexDigit (c : Char) : Bool := isLowerHex c || ('A' ≤ c && c ≤ 'F')

def validAccessDigest (digest : String) : Bool := byteLength digest == 64 && (chars digest).all isHexDigit

def pruneAccess (now : Time) (access : Dictionary String AccessGrant) : Dictionary String AccessGrant :=
  access.keep fun _ grant => now ≤ grant.expiresAt

/-- The bounds that a grant has to keep to in order to be loaded. -/
def validRecord (record : AccessStoreRecord) : Bool :=
  validAccessDigest record.digest && record.clientID != "" && byteLength record.clientID ≤ maxAccessClientID &&
    byteLength record.scope ≤ maxAccessScope && record.resource != "" &&
    byteLength record.resource ≤ maxAccessResource && record.expiresAt != zeroTime

def AccessStoreRecord.grant (record : AccessStoreRecord) : AccessGrant :=
  { clientID := record.clientID, scope := record.scope, resource := record.resource, expiresAt := record.expiresAt }

def loadAccessRecord (now : Time) (loaded : Dictionary String AccessGrant) (record : AccessStoreRecord) :
    Except Failure (Dictionary String AccessGrant) :=
  if now > record.expiresAt then .ok loaded
  else if validRecord record = false then .error (.refused "access store contains an invalid grant")
  else if loaded.read record.digest ≠ none then .error (.refused "access store contains a duplicate digest")
  else .ok (loaded.set record.digest record.grant)

def decodeAccess (now : Time) (stored : StoredAccess) : Except Failure (Dictionary String AccessGrant) :=
  if stored.size > maxAccessStoreSize then .error (.refused "access store is too large")
  else if stored.document.version ≠ 1 then
    .error (.refused ("unsupported access store version " ++ toString stored.document.version))
  else if stored.document.access.length > maxAccessGrants then
    .error (.refused ("access store has " ++ toString stored.document.access.length ++ " grants, max " ++
      toString maxAccessGrants))
  else stored.document.access.foldlM (loadAccessRecord now) ∅

def loadAccessLocked (now : Time) (s : TokenStore) : Program (Except Failure TokenStore) := do
  let read ← readAccess
  match read with
  | none => pure (.error .system)
  | some none => pure (.ok s)
  | some (some stored) =>
    match decodeAccess now stored with
    | .error failure => pure (.error failure)
    | .ok loaded => pure (.ok { s with access := loaded })

def reloadAccess (now : Time) (s : TokenStore) : Program (Except Failure TokenStore) :=
  if s.accessStorePath = "" then pure (.ok s) else loadAccessLocked now s

def accessRecord (digest : String) (grant : AccessGrant) : AccessStoreRecord :=
  { digest := digest, clientID := grant.clientID, scope := grant.scope, resource := grant.resource,
    expiresAt := grant.expiresAt }

def accessDocument (access : Dictionary String AccessGrant) : AccessStoreFile where
  version := 1
  access := (access.entries.map fun e => accessRecord e.1 e.2).insertionSort fun a b => a.digest ≤ b.digest

/-- Whether the grants could be written, and the store, which is pruned first. -/
def persistAccessLocked (now : Time) (s : TokenStore) : Program (Bool × TokenStore) :=
  if s.accessStorePath = "" then pure (true, s)
  else do
    let written ← writeAccess (accessDocument (pruneAccess now s.access))
    pure (written, { s with access := pruneAccess now s.access })

def putAccess (s : TokenStore) (token : String) (grant : AccessGrant) (now : Time) : Program (Outcome Unit) :=
  if token = "" then pure (.error (.refused "access token is empty"), s)
  else withAccessStoreFileLock s.accessStorePath s do
    let loaded ← reloadAccess now s
    match loaded with
    | .error failure => pure (.error failure, s)
    | .ok s =>
      let kept := pruneAccess now s.access
      if kept.read (accessTokenDigest token) = none ∧ maxAccessGrants ≤ kept.size then
        pure (.error (.refused "access grant limit reached"), { s with access := kept })
      else do
        let persisted ← persistAccessLocked now { s with access := kept.set (accessTokenDigest token) grant }
        if persisted.1 then pure (.ok (), persisted.2)
        else pure (.error .system,
          { persisted.2 with access := persisted.2.access.delete (accessTokenDigest token) })

/-- The grant that the store holds, or else the one that the file holds. -/
def findAccess (s : TokenStore) (digest : String) (now : Time) : Program (Outcome (Option AccessGrant)) :=
  match s.access.read digest with
  | some grant => pure (.ok (some grant), s)
  | none =>
    if s.accessStorePath = "" then pure (.ok none, s)
    else do
      let loaded ← loadAccessLocked now s
      match loaded with
      | .error failure => pure (.error failure, s)
      | .ok s => pure (.ok (s.access.read digest), s)

/-- An expired grant is dropped, and what the store holds is written back. -/
def dropExpired (digest : String) (now : Time) (found : Outcome (Option AccessGrant)) :
    Program (Outcome (Option AccessGrant)) :=
  match found.1 with
  | .ok (some grant) =>
    if now > grant.expiresAt then do
      let persisted ← persistAccessLocked now { found.2 with access := found.2.access.delete digest }
      pure (.ok none, persisted.2)
    else pure (.ok (some grant), found.2)
  | .ok none => pure (.ok none, found.2)
  | .error failure => pure (.error failure, found.2)

def getAccess (s : TokenStore) (token : String) (now : Time) : Program (Outcome (Option AccessGrant)) :=
  if token = "" then pure (.ok none, s)
  else withAccessStoreFileLock s.accessStorePath s do
    let found ← findAccess s (accessTokenDigest token) now
    dropExpired (accessTokenDigest token) now found

def revokeAccess (s : TokenStore) (token : String) (now : Time) : Program (Outcome Unit) :=
  if token = "" then pure (.ok (), s)
  else withAccessStoreFileLock s.accessStorePath s do
    let loaded ← reloadAccess now s
    match loaded with
    | .error failure => pure (.error failure, s)
    | .ok s => do
      let persisted ← persistAccessLocked now { s with access := s.access.delete (accessTokenDigest token) }
      if persisted.1 then pure (.ok (), persisted.2) else pure (.error .system, persisted.2)

end

section

def RefreshStoreRecord.grant (record : RefreshStoreRecord) : RefreshGrant :=
  { clientID := record.clientID, scope := record.scope, resource := record.resource, expiresAt := record.expiresAt }

def loadRefreshRecord (now : Time) (loaded : Dictionary String RefreshGrant) (record : RefreshStoreRecord) :
    Dictionary String RefreshGrant :=
  if record.token = "" ∨ now > record.expiresAt then loaded else loaded.set record.token record.grant

def decodeRefresh (now : Time) (document : RefreshStoreFile) : Except Failure (Dictionary String RefreshGrant) :=
  if document.version ≠ 1 then
    .error (.refused ("unsupported refresh store version " ++ toString document.version))
  else .ok (document.refresh.foldl (loadRefreshRecord now) ∅)

def loadRefreshLocked (now : Time) (s : TokenStore) : Program (Except Failure TokenStore) := do
  let read ← readRefresh
  match read with
  | none => pure (.error .system)
  | some none => pure (.ok s)
  | some (some document) =>
    match decodeRefresh now document with
    | .error failure => pure (.error failure)
    | .ok loaded => pure (.ok { s with refresh := loaded })

def reloadRefresh (now : Time) (s : TokenStore) : Program (Except Failure TokenStore) :=
  if s.refreshStorePath = "" then pure (.ok s) else loadRefreshLocked now s

def refreshRecord (token : String) (grant : RefreshGrant) : RefreshStoreRecord :=
  { token := token, clientID := grant.clientID, scope := grant.scope, resource := grant.resource,
    expiresAt := grant.expiresAt }

def refreshDocument (refresh : Dictionary String RefreshGrant) : RefreshStoreFile where
  version := 1
  refresh := (refresh.entries.map fun e => refreshRecord e.1 e.2).insertionSort fun a b => a.token ≤ b.token

def persistRefreshLocked (s : TokenStore) : Program Bool :=
  if s.refreshStorePath = "" then pure true else writeRefresh (refreshDocument s.refresh)

def putRefresh (s : TokenStore) (token : String) (grant : RefreshGrant) (now : Time) : Program (Outcome Unit) :=
  withAccessStoreFileLock s.refreshStorePath s do
    let loaded ← reloadRefresh now s
    match loaded with
    | .error failure => pure (.error failure, s)
    | .ok s => do
      let added := { s with refresh := s.refresh.set token grant }
      let persisted ← persistRefreshLocked added
      if persisted then pure (.ok (), added)
      else pure (.error .system, { added with refresh := added.refresh.delete token })

def consumeRefresh (s : TokenStore) (token : String) (now : Time) : Program (Outcome (Option RefreshGrant)) :=
  if token = "" then pure (.ok none, s)
  else withAccessStoreFileLock s.refreshStorePath s do
    let loaded ← reloadRefresh now s
    match loaded with
    | .error failure => pure (.error failure, s)
    | .ok s =>
      match s.refresh.read token with
      | none => pure (.ok none, s)
      | some grant => do
        let removed := { s with refresh := s.refresh.delete token }
        let persisted ← persistRefreshLocked removed
        if persisted then
          if now > grant.expiresAt then pure (.ok none, removed) else pure (.ok (some grant), removed)
        else pure (.error .system, { removed with refresh := removed.refresh.set token grant })

def rotatedAccess (old : RefreshGrant) (now : Time) : AccessGrant :=
  { clientID := old.clientID, resource := old.resource, scope := old.scope, expiresAt := now + accessTokenTTL }

def rotatedRefresh (old : RefreshGrant) (now : Time) : RefreshGrant :=
  { clientID := old.clientID, resource := old.resource, scope := old.scope, expiresAt := now + refreshTokenTTL }

/-- Write the two stores of a rotation, the access store first, and take back what was written
when the second one fails. -/
def writeRotation (before after : TokenStore) (old : RefreshGrant) (clock : Time) :
    Program (Outcome (Option RefreshGrant)) := do
  let persisted ← persistAccessLocked clock after
  if persisted.1 then do
    let written ← persistRefreshLocked persisted.2
    if written then pure (.ok (some old), persisted.2)
    else do
      let restored ← persistAccessLocked clock
        { persisted.2 with access := before.access, refresh := before.refresh }
      pure (.error .system, restored.2)
  else pure (.error .system, { persisted.2 with access := before.access, refresh := before.refresh })

/-- What a rotation does with the reloaded stores; `now` is the caller's time. -/
def rotateLoaded (s : TokenStore) (oldToken newToken accessToken : String) (now clock : Time) :
    Program (Outcome (Option RefreshGrant)) :=
  match s.refresh.read oldToken with
  | none => pure (.ok none, s)
  | some old =>
    if now > old.expiresAt then do
      let removed := { s with refresh := s.refresh.delete oldToken }
      let persisted ← persistRefreshLocked removed
      if persisted then pure (.ok none, removed)
      else pure (.error .system, { removed with refresh := removed.refresh.set oldToken old })
    else if s.refresh.read newToken ≠ none then pure (.error (.refused "refresh token collision"), s)
    else
      let pruned := { s with access := pruneAccess now s.access }
      if pruned.access.read (accessTokenDigest accessToken) ≠ none then
        pure (.error (.refused "access token collision"), pruned)
      else if maxAccessGrants ≤ pruned.access.size then
        pure (.error (.refused "access grant limit reached"), pruned)
      else writeRotation pruned
        { pruned with
          access := pruned.access.set (accessTokenDigest accessToken) (rotatedAccess old now)
          refresh := (pruned.refresh.delete oldToken).set newToken (rotatedRefresh old now) }
        old clock

def rotateRefresh (s : TokenStore) (oldToken newToken accessToken : String) (now clock : Time) :
    Program (Outcome (Option RefreshGrant)) :=
  if oldToken = "" ∨ newToken = "" ∨ accessToken = "" then pure (.ok none, s)
  else withAccessStoreFileLock s.accessStorePath s <| withAccessStoreFileLock s.refreshStorePath s do
    let loaded ← reloadAccess clock s
    match loaded with
    | .error failure => pure (.error failure, s)
    | .ok s => do
      let loaded ← reloadRefresh clock s
      match loaded with
      | .error failure => pure (.error failure, s)
      | .ok s => rotateLoaded s oldToken newToken accessToken now clock

def revokeRefresh (s : TokenStore) (token : String) : Program (Outcome Unit) :=
  if token = "" then pure (.ok (), s)
  else do
    let removed := { s with refresh := s.refresh.delete token }
    let persisted ← persistRefreshLocked removed
    if persisted then pure (.ok (), removed) else pure (.error .system, removed)

end

structure Config where
  accessStorePath : String
  refreshStorePath : String
  deriving DecidableEq

/-- The stores that `NewProvider` loads. -/
def newProviderStore (config : Config) (now : Time) : Program (Outcome Unit) := do
  let s := { newTokenStore with
    accessStorePath := config.accessStorePath, refreshStorePath := config.refreshStorePath }
  let loaded ← withAccessStoreFileLock config.accessStorePath s do
    let loaded ← reloadAccess now s
    match loaded with
    | .error failure => pure (.error failure, s)
    | .ok s => pure (.ok (), s)
  match loaded.1 with
  | .error failure => pure (.error failure, s)
  | .ok _ => do
    let refreshed ← reloadRefresh now loaded.2
    match refreshed with
    | .error failure => pure (.error failure, s)
    | .ok s => pure (.ok (), s)

end Aeontra.Oauth
