import Mathlib.Tactic.Linarith
import Aeontra.Library.Text
import Aeontra.Oauth.Authorize
import Aeontra.Oauth.Methods

/-!
The embedded console as a client of its own provider.

Its registration lies in the table of the dynamically registered clients and, like theirs, is
dropped when nobody has logged in with it for `unactivatedClientTTL`.
-/

namespace Aeontra.Oauth

open Library List Function Dictionary
open Library.Process

def consoleClientScope : String := "mcp"

structure ConsoleClient where
  clientID : String
  redirectURI : String
  deriving DecidableEq

def sha256Bytes (text : String) : List Nat := Sha256.bytesOf 32 (Sha256.sum (bytes text))

def consoleClientID (redirectURI : String) : String :=
  "console-" ++ rawURLEncode ((sha256Bytes ("mcp-devbox-console-client\x00" ++ redirectURI)).take 18)

/-- An absolute path of the same origin, without query or fragment. -/
def callbackAccepted (path : String) (parsed : ParsedURL) : Bool :=
  (chars "/").isPrefixOf (chars path) && parsed.scheme == "" && parsed.host == "" && parsed.rawQuery == "" &&
    parsed.fragment == ""

def newConsoleClient (p : Provider) (s : TokenStore) (callbackPath : String) (now : Time) (written : Bool) :
    Outcome ConsoleClient :=
  let path := Text.trimSpace callbackPath
  if (p.parse path).any (callbackAccepted path) = false then
    (.error (.refused "oauth: console callback must be an absolute path without query or fragment"), s)
  else
    let redirectURI := p.issuer ++ path
    match validateRedirectURI p redirectURI with
    | .error _ => (.error (.refused "oauth: console callback is invalid"), s)
    | .ok _ =>
      match s.ensureFixedClient (consoleClientID redirectURI) redirectURI now written with
      | (.error failure, s) => (.error failure, s)
      | (.ok _, s) => (.ok ⟨consoleClientID redirectURI, redirectURI⟩, s)

/-- The query of the URL that the console sends the browser to. -/
def authorizationURL (p : Provider) (c : ConsoleClient) (state codeChallenge : String) : Except String Values :=
  if Text.trimSpace state = "" ∨ Text.trimSpace codeChallenge = "" then
    .error "oauth: console authorization state and PKCE challenge are required"
  else .ok [("response_type", "code"), ("client_id", c.clientID), ("redirect_uri", c.redirectURI),
    ("code_challenge", codeChallenge), ("code_challenge_method", "S256"), ("state", state),
    ("scope", consoleClientScope), ("resource", p.resource)]

def verifyPKCE (verifier challenge : String) : Bool :=
  verifier != "" && challenge != "" && rawURLEncode (sha256Bytes verifier) == challenge

def issueAccessToken (s : TokenStore) (grant : AccessGrant) (now : Time) (drawn : Option Random) :
    Program (String × TokenStore) :=
  if randToken drawn = "" then pure ("", s)
  else do
    let stored ← putAccess s (randToken drawn) grant now
    match stored.1 with
    | .error _ => pure ("", stored.2)
    | .ok _ => pure (randToken drawn, stored.2)

structure Draws where
  access : Option Random
  refresh : Option Random

def consoleAccess (p : Provider) (c : ConsoleClient) (now : Time) : AccessGrant :=
  { clientID := c.clientID, resource := p.resource, scope := consoleClientScope, expiresAt := now + minute }

def consoleRefresh (p : Provider) (c : ConsoleClient) (now : Time) : RefreshGrant :=
  { clientID := c.clientID, scope := consoleClientScope, resource := p.resource, expiresAt := now + minute }

/-- A code that was issued to the console, for the challenge of this verifier. -/
def codeFits (p : Provider) (c : ConsoleClient) (code : AuthCode) (verifier : String) : Bool :=
  code.clientID == c.clientID && code.redirectURI == c.redirectURI && code.resource == p.resource &&
    code.scope == consoleClientScope && verifyPKCE verifier code.codeChallenge

def mintAndRevoke (p : Provider) (c : ConsoleClient) (s : TokenStore) (now : Time) (draws : Draws) :
    Program (Bool × TokenStore) := do
  let access ← issueAccessToken s (consoleAccess p c now) now draws.access
  let refresh := randToken draws.refresh
  if access.1 = "" ∨ refresh = "" then do
    let revoked ← revokeAccess access.2 access.1 now
    pure (false, revoked.2)
  else do
    let stored ← putRefresh access.2 refresh (consoleRefresh p c now) now
    match stored.1 with
    | .error _ => do
      let revoked ← revokeAccess stored.2 access.1 now
      pure (false, revoked.2)
    | .ok _ => do
      let revoked ← revokeAccess stored.2 access.1 now
      let revoked ← revokeRefresh revoked.2 refresh
      pure (true, revoked.2)

def complete (p : Provider) (c : ConsoleClient) (s : TokenStore) (codeValue verifier : String) (now : Time)
    (draws : Draws) : Program (Bool × TokenStore) :=
  if codeValue = "" ∨ verifier = "" then pure (false, s)
  else
    match s.consumeCode codeValue now with
    | (none, s) => pure (false, s)
    | (some code, s) => if codeFits p c code verifier then mintAndRevoke p c s now draws else pure (false, s)

namespace Console

/-- The calls of any handlers, in the order in which the store runs them. -/
def serveAll (p : Provider) (calls : List (StoreCall × Moment)) (s : TokenStore) : TokenStore :=
  calls.foldl (fun s e => (serveCall p e.2 s e.1).2) s

section

variable {p : Provider} {s : TokenStore} {id : String} {client : ClientReg} {m : Moment}

theorem consoleClientID_ne_randToken (redirectURI : String) (drawn : Option Random) :
    consoleClientID redirectURI ≠ randToken drawn := by
  intro same
  have bytes : ((sha256Bytes ("mcp-devbox-console-client\x00" ++ redirectURI)).take 18).length = 18 := rfl
  have length : (consoleClientID redirectURI).length = 32 := by
    rw [consoleClientID, String.length_append, length_rawURLEncode, bytes]
    rfl
  rw [same] at length
  rcases length_randToken drawn with short | long
  · omega
  · omega

theorem serveCall_client (known : s.clients.read id = some client) (fresh : client.stale m.now = false)
    (apart : ∀ drawn, id ≠ randToken drawn) (call : StoreCall) :
    ∃ activated, (serveCall p m s call).2.clients.read id =
      some { client with activated := client.activated || activated } := by
  have same : some client = some { client with activated := client.activated || false } := by
    rw [Bool.or_false]
  have kept : s.clients.read id = some { client with activated := client.activated || false } := known.trans same
  cases call with
  | registerClient uris =>
    have pruned : ((s.pruneClients m.now).pruneRegistrations m.now).clients.read id = some client := by
      change (s.clients.keep fun _ client => !client.stale m.now).read id = some client
      rw [read_keep, known, Option.filter_some, fresh]
      rfl
    refine ⟨false, Eq.trans ?_ same⟩
    change (s.registerClient uris m.now m.drawn m.written).2.clients.read id = some client
    unfold TokenStore.registerClient
    dsimp only
    split
    · exact pruned
    split
    · rw [read_set, update_of_ne (apart m.drawn)]
      exact pruned
    · rw [read_delete, update_of_ne (apart m.drawn), read_set, update_of_ne (apart m.drawn)]
      exact pruned
  | getClient other =>
    refine ⟨false, Eq.trans ?_ same⟩
    change (s.getClient other m.now).2.clients.read id = some client
    rcases s.getClient_cases other m.now with ⟨unchanged, _⟩ | ⟨dropped, found, stale, _, after⟩
    · rw [unchanged]
      exact known
    have differs : id ≠ other := by
      rintro rfl
      rw [known] at found
      cases found
      rw [fresh] at stale
      cases stale
    rw [after, read_delete, update_of_ne differs]
    exact known
  | passphraseThrottled _ => exact ⟨false, kept⟩
  | comparePassphrase _ => exact ⟨false, kept⟩
  | recordPassphraseFailure _ => exact ⟨false, kept⟩
  | resetPassphraseFailures _ => exact ⟨false, kept⟩
  | randToken => exact ⟨false, kept⟩
  | timeNow => exact ⟨false, kept⟩
  | putCode code c =>
    change ∃ activated, (s.putCode code c m.written).2.clients.read id = _
    unfold TokenStore.putCode
    cases found : s.clients.read c.clientID with
    | none => exact ⟨false, kept⟩
    | some other =>
      dsimp only
      split
      · exact ⟨false, kept⟩
      split
      · by_cases here : id = c.clientID
        · subst here
          rw [known] at found
          cases found
          refine ⟨true, ?_⟩
          rw [read_set, update_self, Bool.or_true]
        · refine ⟨false, ?_⟩
          rw [read_set, update_of_ne here]
          exact kept
      · exact ⟨false, kept⟩

theorem putCode_activates (known : s.clients.read id = some client) (code : String) {c : AuthCode}
    (same : c.clientID = id) : (s.putCode code c true).2.clients.read id = some { client with activated := true } := by
  subst same
  unfold TokenStore.putCode
  rw [known]
  dsimp only
  split
  · next active =>
    rw [known]
    cases client
    cases active
    rfl
  · rw [if_pos (by rw [TokenStore.persistClientsLocked, Bool.or_true]), read_set, update_self]

theorem stale_of_activated (active : client.activated = true) (now : Time) : client.stale now = false := by
  rw [ClientReg.stale, active]
  rfl

theorem stale_of_young {now : Time} (young : now < client.createdAt + unactivatedClientTTL) :
    client.stale now = false := by
  have early : ¬ unactivatedClientTTL ≤ now - client.createdAt := by linarith
  rw [ClientReg.stale, decide_eq_false early, Bool.and_false]

structure Registered (c : ConsoleClient) (created : Time) (s : TokenStore) (activated : Bool) : Prop where
  found : ∃ client, s.clients.read c.clientID = some client ∧ client.redirectURIs = [c.redirectURI] ∧
    client.createdAt = created ∧ (activated = true → client.activated = true)

variable {c : ConsoleClient} {created : Time} {activated : Bool}

theorem Registered.call (registered : Registered c created s activated)
    (apart : ∀ drawn, c.clientID ≠ randToken drawn) (call : StoreCall)
    (good : activated = true ∨ m.now < created + unactivatedClientTTL) :
    Registered c created (serveCall p m s call).2 activated := by
  obtain ⟨client, known, uris, rfl, active⟩ := registered.found
  have fresh : client.stale m.now = false := by
    rcases good with yes | young
    · exact stale_of_activated (active yes) m.now
    · exact stale_of_young young
  obtain ⟨more, after⟩ := serveCall_client (p := p) known fresh apart call
  refine ⟨_, after, uris, rfl, fun yes => ?_⟩
  rw [active yes, Bool.true_or]

theorem Registered.calls (registered : Registered c created s activated)
    (apart : ∀ drawn, c.clientID ≠ randToken drawn) {calls : List (StoreCall × Moment)}
    (good : ∀ e ∈ calls, activated = true ∨ e.2.now < created + unactivatedClientTTL) :
    Registered c created (serveAll p calls s) activated := by
  induction calls generalizing s with
  | nil => exact registered
  | cons e calls ih =>
    exact ih (registered.call apart e.1 (good e mem_cons_self)) fun e' member =>
      good e' (mem_cons_of_mem e member)

end

section

variable {p : Provider} {s : TokenStore} {m : Moment} {code : String} {stored : AuthCode}

def overwrites (code : String) : StoreCall → Bool
  | .putCode other _ => other == code
  | _ => false

theorem serveCall_codes (s : TokenStore) {call : StoreCall} (other : overwrites code call = false) :
    (serveCall p m s call).2.codes.read code = s.codes.read code := by
  cases call with
  | registerClient uris =>
    change (s.registerClient uris m.now m.drawn m.written).2.codes.read code = _
    unfold TokenStore.registerClient
    dsimp only
    split
    · rfl
    · split
      · rfl
      · rfl
  | getClient id =>
    change (s.getClient id m.now).2.codes.read code = _
    rcases s.getClient_cases id m.now with ⟨unchanged, _⟩ | ⟨_, _, _, _, after⟩
    · rw [unchanged]
    · rw [after]
  | putCode name c =>
    have differs : code ≠ name := by
      rintro rfl
      simp [overwrites] at other
    change (s.putCode name c m.written).2.codes.read code = _
    unfold TokenStore.putCode
    split
    · split
      · rw [read_set, update_of_ne differs]
      · split
        · rw [read_set, update_of_ne differs]
        · rfl
    · rw [read_set, update_of_ne differs]
  | _ => rfl

theorem serveAll_codes (s : TokenStore) {calls : List (StoreCall × Moment)}
    (others : ∀ e ∈ calls, overwrites code e.1 = false) : (serveAll p calls s).codes.read code = s.codes.read code := by
  induction calls generalizing s with
  | nil => rfl
  | cons e calls ih =>
    refine (ih _ fun e' member => others e' (mem_cons_of_mem e member)).trans ?_
    exact serveCall_codes s (others e mem_cons_self)

theorem putCode_stores {written : Bool} (accepted : (s.putCode code stored written).1 = true) :
    (s.putCode code stored written).2.codes.read code = some stored := by
  unfold TokenStore.putCode at accepted ⊢
  split
  · split
    · rw [read_set, update_self]
    · split
      · rw [read_set, update_self]
      · next found active failed =>
        rw [found] at accepted
        dsimp only at accepted
        rw [if_neg active, if_neg failed] at accepted
        cases accepted
  · rw [read_set, update_self]

end

def willing : Rules Call Files Choice where
  may := fun _ choice _ => choice.ok = true
  holds := fun _ => True
  allows := fun _ => True

/-- The stores can be loaded and have room for one more access grant. -/
structure Roomy (now : Time) (s : TokenStore) (f : Files) : Prop where
  access : ∃ loaded, loadedAccess now s f = some loaded ∧ (pruneAccess now loaded).size < maxAccessGrants
  refresh : s.refreshStorePath ≠ "" → ∀ document, f.refresh = some document → document.version = 1

section

variable {α : Type} {s : TokenStore} {f : Files} {now : Time}

theorem free (e : Event Call Files) : willing.allows e := trivial

theorem succeeds {call : Call} : ¬ Fails willing call f := by
  rintro ⟨choice, ok, failed⟩
  exact absurd (failed.symm.trans ok) Bool.false_ne_true

variable {grant : AccessGrant}

theorem ensures_putAccess {token : String} (named : token ≠ "") (roomy : Roomy now s f) :
    (putAccess s token grant now).Ensures environment willing
      (fun outcome after => outcome.1 = .ok () ∧ OnlyAccess s f outcome.2 after) f := by
  obtain ⟨loaded, load, room⟩ := roomy.access
  unfold putAccess
  rw [if_neg named]
  refine ensures_withLock free trivial (fun fails => absurd fails succeeds) ?_
  refine (ensures_reloadAccess free trivial).bind ?_
  rintro result after ⟨rfl, ⟨other, found, rfl⟩ | ⟨-, none | fails⟩⟩
  · obtain rfl := Option.some.inj (load.symm.trans found)
    dsimp only
    rw [if_neg (fun full => absurd full.2 (Nat.not_le_of_lt room))]
    refine (ensures_persistAccessLocked free trivial).bind ?_
    rintro ⟨persisted, s'⟩ later ⟨⟨access, file, rfl, rfl⟩, -, ⟨done, -⟩ | ⟨-, document, fails⟩⟩
    · rw [if_pos done]
      exact ensures_pure ⟨rfl, _, _, rfl, rfl⟩
    · exact absurd fails succeeds
  · cases load.symm.trans none
  · exact absurd fails succeeds

theorem loadedRefresh_of_version
    (version : s.refreshStorePath ≠ "" → ∀ document, f.refresh = some document → document.version = 1) :
    loadedRefresh now s f ≠ none := by
  unfold loadedRefresh
  split
  · exact Option.some_ne_none _
  next path =>
  cases found : f.refresh with
  | none => exact Option.some_ne_none _
  | some document => simp [decodeRefresh, version path document found, Except.toOption]

theorem ensures_putRefresh (token : String) (grant : RefreshGrant)
    (version : s.refreshStorePath ≠ "" → ∀ document, f.refresh = some document → document.version = 1) :
    (putRefresh s token grant now).Ensures environment willing
      (fun outcome _ => outcome.1 = .ok () ∧ outcome.2.codes = s.codes) f := by
  unfold putRefresh
  refine ensures_withLock free trivial (fun fails => absurd fails succeeds) ?_
  refine (ensures_reloadRefresh free trivial).bind ?_
  rintro result after ⟨rfl, ⟨refresh, -, rfl⟩ | ⟨-, none | fails⟩⟩
  · refine (ensures_persistRefreshLocked free trivial).bind ?_
    rintro persisted later ⟨-, ⟨rfl, -⟩ | ⟨-, -, document, fails⟩⟩
    · exact ensures_pure ⟨rfl, rfl⟩
    · exact absurd fails succeeds
  · exact absurd none (loadedRefresh_of_version version)
  · exact absurd fails succeeds

theorem ensures_issueAccessToken {drawn : Option Random} (drew : randToken drawn ≠ "") (roomy : Roomy now s f) :
    (issueAccessToken s grant now drawn).Ensures environment willing
      (fun issued after => issued.1 = randToken drawn ∧ OnlyAccess s f issued.2 after) f := by
  unfold issueAccessToken
  rw [if_neg drew]
  refine (ensures_putAccess drew roomy).bind ?_
  rintro ⟨result, s'⟩ after ⟨rfl, alone⟩
  exact ensures_pure ⟨rfl, alone⟩

theorem ensures_mintAndRevoke (p : Provider) (c : ConsoleClient) {draws : Draws}
    (access : randToken draws.access ≠ "") (refresh : randToken draws.refresh ≠ "") (roomy : Roomy now s f) :
    (mintAndRevoke p c s now draws).Ensures environment willing
      (fun result _ => result.1 = true ∧ result.2.codes = s.codes) f := by
  unfold mintAndRevoke
  refine (ensures_issueAccessToken access roomy).bind ?_
  rintro ⟨token, issued⟩ after ⟨same, grants, file, rfl, rfl⟩
  dsimp only at same ⊢
  rw [same, if_neg (not_or.mpr ⟨access, refresh⟩)]
  refine (ensures_putRefresh _ _ (by exact roomy.refresh)).bind ?_
  rintro ⟨result, stored⟩ later ⟨rfl, kept⟩
  refine (onlyAccess_revokeAccess free (fun _ => trivial) _).bind ?_
  rintro ⟨revoked, left⟩ final ⟨grants, file, rfl, rfl⟩
  refine (onlyRefresh_revokeRefresh free trivial _).bind ?_
  rintro ⟨removed, left⟩ last ⟨grants, file, rfl, rfl⟩
  exact ensures_pure ⟨rfl, kept⟩

end

section

variable {p : Provider} {c : ConsoleClient} {s : TokenStore} {f : Files} {now : Time}
  {code verifier : String} {stored : AuthCode} {draws : Draws}

theorem consumeCode_known (named : code ≠ "") (known : s.codes.read code = some stored)
    (live : now ≤ stored.expiresAt) :
    s.consumeCode code now = (some stored, { s with codes := s.codes.delete code }) := by
  unfold TokenStore.consumeCode
  rw [if_neg named, known]
  dsimp only
  rw [if_neg (not_lt.mpr live)]

theorem ensures_complete (named : code ≠ "") (known : s.codes.read code = some stored)
    (live : now ≤ stored.expiresAt) (fits : codeFits p c stored verifier = true)
    (access : randToken draws.access ≠ "") (refresh : randToken draws.refresh ≠ "") (roomy : Roomy now s f) :
    (complete p c s code verifier now draws).Ensures environment willing
      (fun result _ => result.1 = true ∧ result.2.codes.read code = none) f := by
  have verified : verifier ≠ "" := by
    rintro rfl
    simp [codeFits, verifyPKCE] at fits
  unfold complete
  rw [if_neg (not_or.mpr ⟨named, verified⟩), consumeCode_known named known live]
  dsimp only
  rw [if_pos fits]
  have room : Roomy now { s with codes := s.codes.delete code } f := ⟨roomy.access, roomy.refresh⟩
  refine (ensures_mintAndRevoke p c access refresh room).mono ?_
  rintro result after ⟨accepted, codes⟩
  refine ⟨accepted, ?_⟩
  rw [codes, read_delete, update_self]

theorem complete_unknown (unknown : s.codes.read code = none) (choices : List Choice) :
    ((complete p c s code verifier now draws).run environment choices f).1 = some (false, s) := by
  unfold complete
  split
  · rfl
  next some =>
  have nothing : s.consumeCode code now = (none, s) := by
    unfold TokenStore.consumeCode
    rw [if_neg (fun empty => some (.inl empty)), unknown]
  rw [nothing]
  rfl

theorem atMost_complete (p : Provider) (c : ConsoleClient) (s : TokenStore) (code verifier : String) (now : Time)
    (draws : Draws) : (complete p c s code verifier now draws).AtMost (fun _ => true) 10 := by
  unfold complete
  split
  · exact atMost_pure
  split
  · exact atMost_pure
  split
  · refine AtMost.bind (n := 3) (m := 7) ?_ fun issued => ?_
    · unfold issueAccessToken
      split
      · exact atMost_pure
      refine AtMost.bind (n := 3) (m := 0) (atMost_putAccess _ _) fun stored => ?_
      split
      · exact atMost_pure
      · exact atMost_pure
    · dsimp only
      split
      · exact (AtMost.bind (m := 0) (atMost_revokeAccess _) fun _ => atMost_pure).mono (by decide)
      refine AtMost.bind (n := 3) (m := 4) (atMost_putRefresh _ _) fun stored => ?_
      split
      · exact (AtMost.bind (m := 0) (atMost_revokeAccess _) fun _ => atMost_pure).mono (by decide)
      · refine AtMost.bind (n := 3) (m := 1) (atMost_revokeAccess _) fun revoked => ?_
        exact AtMost.bind (n := 1) (m := 0) (atMost_revokeRefresh _) fun _ => atMost_pure
  · exact atMost_pure

theorem complete_once (named : code ≠ "") (known : s.codes.read code = some stored)
    (live : now ≤ stored.expiresAt) (fits : codeFits p c stored verifier = true)
    (access : randToken draws.access ≠ "") (refresh : randToken draws.refresh ≠ "") (roomy : Roomy now s f)
    {choices : List Choice} (enough : 10 ≤ choices.length) (willing : ∀ choice ∈ choices, choice.ok = true) :
    ∃ s', ((complete p c s code verifier now draws).run environment choices f).1 = some (true, s') ∧
      s'.codes.read code = none := by
  obtain ⟨⟨accepted, s'⟩, returned⟩ :
      ∃ result, ((complete p c s code verifier now draws).run environment choices f).1 = some result :=
    (atMost_complete p c s code verifier now draws).returns enough f
  have permitted : (complete p c s code verifier now draws).Permitted environment Console.willing choices f :=
    permitted_of_choices (fun _ _ _ ok => ok) _ willing f
  have final := ((ensures_complete named known live fits access refresh roomy).run permitted).2
  rw [returned] at final
  obtain ⟨rfl, gone⟩ := final
  exact ⟨s', returned, gone⟩

end

section

variable {p : Provider} {s s' : TokenStore} {c : ConsoleClient} {created : Time}

variable {id challenge state : String} {now : Time} {written : Bool} {client : ClientReg}

theorem registered_ensureFixedClient {uri : String}
    (done : s.ensureFixedClient id uri now written = (.ok (), s')) :
    ∃ client, s'.clients.read id = some client ∧ client.redirectURIs = [uri] := by
  unfold TokenStore.ensureFixedClient at done
  split at done
  · cases done
  split at done
  · next existing found =>
    split at done
    · next same =>
      cases done
      exact ⟨existing, found, same⟩
    · cases done
  split at done
  · cases done
  dsimp only at done
  split at done
  · cases done
    refine ⟨{ redirectURIs := [uri], createdAt := now }, ?_, rfl⟩
    rw [read_set, update_self]
  · cases done

theorem newConsoleClient_ok {path : String} (built : newConsoleClient p s path now written = (.ok c, s')) :
    c.clientID = consoleClientID c.redirectURI ∧
      ∃ client, s'.clients.read c.clientID = some client ∧ client.redirectURIs = [c.redirectURI] := by
  unfold newConsoleClient at built
  dsimp only at built
  split at built
  · cases built
  split at built
  · cases built
  split at built
  · cases built
  · next done =>
    cases built
    exact ⟨rfl, registered_ensureFixedClient done⟩

def logsIn (c : ConsoleClient) : StoreCall → Bool
  | .putCode _ code => code.clientID == c.clientID
  | _ => false

/-- It is activated already, is still young at the end, or somebody logs in with it while it is young. -/
def Timely (c : ConsoleClient) (s : TokenStore) (calls : List (StoreCall × Moment)) (now : Time) : Prop :=
  ∀ client, s.clients.read c.clientID = some client →
    client.activated = true ∨ now < client.createdAt + unactivatedClientTTL ∨
      ∃ e ∈ calls, logsIn c e.1 = true ∧ e.2.now < client.createdAt + unactivatedClientTTL

theorem getClient_registered (named : id ≠ "")
    (known : s.clients.read id = some client) (fresh : client.stale now = false) :
    (s.getClient id now).1 = some client := by
  unfold TokenStore.getClient
  rw [if_neg named, known]
  dsimp only
  rw [fresh]
  rfl

theorem Registered.login (registered : Registered c created s false) {call : StoreCall} {m : Moment}
    (login : logsIn c call = true) (written : m.written = true) :
    Registered c created (serveCall p m s call).2 true := by
  obtain ⟨client, known, uris, rfl, _⟩ := registered.found
  cases call with
  | putCode code stored =>
    have same : stored.clientID = c.clientID := eq_of_beq login
    refine ⟨{ client with activated := true }, ?_, uris, rfl, fun _ => rfl⟩
    change (s.putCode code stored m.written).2.clients.read c.clientID = some { client with activated := true }
    rw [written]
    exact putCode_activates known code same
  | _ => cases login

theorem registered_after {calls : List (StoreCall × Moment)}
    (apart : ∀ drawn, c.clientID ≠ randToken drawn) (known : s.clients.read c.clientID = some client)
    (uris : client.redirectURIs = [c.redirectURI]) (writes : ∀ e ∈ calls, e.2.written = true)
    (ordered : (calls.map (fun e => e.2.now) ++ [now]).Pairwise (· ≤ ·)) (timely : Timely c s calls now) :
    ∃ client, (serveAll p calls s).clients.read c.clientID = some client ∧ client.redirectURIs = [c.redirectURI] ∧
      client.stale now = false := by
  have early : ∀ e ∈ calls, e.2.now ≤ now := fun e member =>
    (List.pairwise_append.mp ordered).2.2 _ (mem_map_of_mem member) _ (mem_singleton_self now)
  have start : Registered c client.createdAt s client.activated := ⟨client, known, uris, rfl, id⟩
  have plain : Registered c client.createdAt s false :=
    ⟨client, known, uris, rfl, fun impossible => absurd impossible (by decide)⟩
  rcases timely client known with active | young | ⟨e, member, login, young⟩
  · obtain ⟨after, found, same, _, kept⟩ := (start.calls (p := p) apart fun e _ => .inl active).found
    exact ⟨after, found, same, stale_of_activated (kept active) now⟩
  · obtain ⟨after, found, same, born, _⟩ :=
      (plain.calls (p := p) apart fun e member => .inr ((early e member).trans_lt young)).found
    exact ⟨after, found, same, stale_of_young (born ▸ young)⟩
  -- before the login the registration is young, after it it is activated
  obtain ⟨first, rest, rfl⟩ := append_of_mem member
  have before : ∀ e' ∈ first, e'.2.now ≤ e.2.now := by
    have pairs := (List.pairwise_append.mp ordered).1
    rw [map_append, pairwise_append] at pairs
    exact fun e' inside => pairs.2.2 _ (mem_map_of_mem inside) _ mem_cons_self
  have reached := plain.calls (p := p) apart fun e' inside => .inr ((before e' inside).trans_lt young)
  have activated := reached.login (p := p) login (writes e member)
  have lasting : Registered c client.createdAt (serveAll p rest (serveCall p e.2 (serveAll p first s) e.1).2) true :=
    activated.calls apart fun _ _ => .inl rfl
  obtain ⟨after, found, same, _, kept⟩ := lasting.found
  refine ⟨after, ?_, same, stale_of_activated (kept rfl) now⟩
  rw [serveAll, foldl_append]
  exact found

def consoleParams (p : Provider) (c : ConsoleClient) (state codeChallenge : String) : AuthorizeParams where
  clientID := c.clientID
  redirectURI := c.redirectURI
  codeChallenge := codeChallenge
  state := state
  scope := consoleClientScope
  resource := p.resource

theorem trimSpace_empty : Text.trimSpace "" = "" := by decide

theorem checkAuthorizeRequest_console {query : Values}
    (uris : client.redirectURIs = [c.redirectURI]) (asked : authorizationURL p c state challenge = .ok query) :
    query.get "client_id" = c.clientID ∧
      checkAuthorizeRequest p query (some client) = .ok (consoleParams p c state challenge) := by
  unfold authorizationURL at asked
  split at asked
  · cases asked
  next given =>
  have challenged : challenge ≠ "" := by
    rintro rfl
    exact given (.inr trimSpace_empty)
  cases asked
  refine ⟨by simp [Values.get], ?_⟩
  simp [checkAuthorizeRequest, Values.get, registeredRedirect, uris, challenged, consoleClientScope, consoleParams]

theorem codeFits_console {verifier : String} {issued : Time} (matching : verifyPKCE verifier challenge = true) :
    codeFits p c (loginCode (consoleParams p c state challenge) issued) verifier = true := by
  simp [codeFits, loginCode, consoleParams, matching]

/-- A console client whose registration is activated in time logs in: its request is accepted
whatever the store did meanwhile, and a code that is issued for the request completes one login,
with the verifier of its challenge, while the code is good and the stores can take the tokens. -/
theorem console_login {path state challenge : String} {start now : Time} {query : Values}
    {calls : List (StoreCall × Moment)} (built : newConsoleClient p s path start true = (.ok c, s'))
    (writes : ∀ e ∈ calls, e.2.written = true)
    (ordered : (calls.map (fun e => e.2.now) ++ [now]).Pairwise (· ≤ ·))
    (timely : Timely c s' calls now) (asked : authorizationURL p c state challenge = .ok query) :
    (∀ (m : Moment) (clock : Time), m.now = now →
      ((validateAuthorizeRequest p query).run (serverEnvironment p) [m] ⟨serveAll p calls s', clock⟩).1 =
        some (.ok (consoleParams p c state challenge))) ∧
    ∀ (store : TokenStore) (code verifier : String) (issued redeemed : Time) (written : Bool)
      (later : List (StoreCall × Moment)) (draws : Draws) (f : Files) (choices : List Choice),
      code ≠ "" →
      (store.putCode code (loginCode (consoleParams p c state challenge) issued) written).1 = true →
      (∀ e ∈ later, overwrites code e.1 = false) →
      redeemed ≤ issued + authCodeTTL →
      verifyPKCE verifier challenge = true →
      randToken draws.access ≠ "" → randToken draws.refresh ≠ "" →
      Roomy redeemed
        (serveAll p later
          (store.putCode code (loginCode (consoleParams p c state challenge) issued) written).2) f →
      10 ≤ choices.length → (∀ choice ∈ choices, choice.ok = true) →
      ∃ final,
        ((complete p c
          (serveAll p later
            (store.putCode code (loginCode (consoleParams p c state challenge) issued) written).2)
          code verifier redeemed draws).run environment choices f).1 = some (true, final) ∧
        ∀ (more : List (StoreCall × Moment)) (again : String) (t : Time) (draws' : Draws) (f' : Files)
          (choices' : List Choice), (∀ e ∈ more, overwrites code e.1 = false) →
          ((complete p c (serveAll p more final) code again t draws').run environment choices' f').1 =
            some (false, serveAll p more final) := by
  obtain ⟨identity, client, known, uris⟩ := newConsoleClient_ok built
  have apart : ∀ drawn, c.clientID ≠ randToken drawn := fun drawn => by
    rw [identity]
    exact consoleClientID_ne_randToken c.redirectURI drawn
  refine ⟨fun m clock same => ?_, ?_⟩
  · obtain ⟨client, found, uris, fresh⟩ := registered_after (p := p) apart known uris writes ordered timely
    obtain ⟨here, accepted⟩ := checkAuthorizeRequest_console uris asked
    subst same
    have looked : ((serveAll p calls s').getClient (query.get "client_id") m.now).1 = some client := by
      rw [here]
      exact getClient_registered (apart none) found fresh
    change some (checkAuthorizeRequest p query
      ((serveAll p calls s').getClient (query.get "client_id") m.now).1) = _
    rw [looked, accepted]
  · intro store code verifier issued redeemed written later draws f choices named stored others live matching access
      refresh roomy enough willing
    have kept := (serveAll_codes (p := p) _ others).trans (putCode_stores stored)
    obtain ⟨final, completed, gone⟩ :=
      complete_once named kept live (codeFits_console matching) access refresh roomy enough willing
    refine ⟨final, completed, fun more again t draws' f' choices' others => ?_⟩
    exact complete_unknown ((serveAll_codes final others).trans gone) choices'

end

def sampleProvider : Provider where
  issuer := "https://box.example"
  resource := "https://box.example/mcp"
  passphrase := "open sesame"
  parse raw :=
    if raw = "/console/callback" then some ⟨"", "", "", "", ""⟩
    else some ⟨"https", "box.example", "box.example", "", ""⟩

def sampleConsole : ConsoleClient :=
  ⟨consoleClientID "https://box.example/console/callback", "https://box.example/console/callback"⟩

def sampleStore : TokenStore := (newConsoleClient sampleProvider newTokenStore "/console/callback" 0 true).2

def sampleChallenge : String := rawURLEncode (sha256Bytes "verifier")

def sampleQuery : Values :=
  [("response_type", "code"), ("client_id", sampleConsole.clientID), ("redirect_uri", sampleConsole.redirectURI),
    ("code_challenge", sampleChallenge), ("code_challenge_method", "S256"), ("state", "s"), ("scope", "mcp"),
    ("resource", "https://box.example/mcp")]

def sampleCalls : List (StoreCall × Moment) :=
  [(.putCode "first" (loginCode (consoleParams sampleProvider sampleConsole "s" sampleChallenge) minute),
    ⟨minute, none, true⟩),
    (.registerClient ["https://other.example/cb"], ⟨2 * hour, none, true⟩)]

def sampleDraws : Draws := ⟨some ⟨List.replicate 32 1, rfl⟩, some ⟨List.replicate 32 2, rfl⟩⟩

def sampleLoggedIn : Bool × TokenStore :=
  (serveAll sampleProvider sampleCalls sampleStore).putCode "second"
    (loginCode (consoleParams sampleProvider sampleConsole "s" sampleChallenge) (24 * hour)) true

theorem console_login_sample :
    ((validateAuthorizeRequest sampleProvider sampleQuery).run (serverEnvironment sampleProvider)
        [⟨24 * hour, none, true⟩] ⟨serveAll sampleProvider sampleCalls sampleStore, 0⟩).1 =
      some (.ok (consoleParams sampleProvider sampleConsole "s" sampleChallenge)) ∧
    ∃ final, ((complete sampleProvider sampleConsole sampleLoggedIn.2 "second" "verifier" (24 * hour + second)
      sampleDraws).run environment (List.replicate 10 {}) {}).1 = some (true, final) ∧
      ((complete sampleProvider sampleConsole (serveAll sampleProvider sampleCalls final) "second" "verifier"
        (25 * hour) sampleDraws).run environment (List.replicate 10 {}) {}).1 =
          some (false, serveAll sampleProvider sampleCalls final) := by
  have built : newConsoleClient sampleProvider newTokenStore "/console/callback" 0 true =
      (.ok sampleConsole, sampleStore) := Prod.ext (by decide +kernel) rfl
  have registered : sampleStore.clients.read sampleConsole.clientID =
      some { redirectURIs := [sampleConsole.redirectURI], createdAt := 0 } := by decide +kernel
  have timely : Timely sampleConsole sampleStore sampleCalls (24 * hour) := by
    intro client found
    rw [registered] at found
    cases found
    exact .inr (.inr ⟨_, mem_cons_self, by decide +kernel, by decide +kernel⟩)
  have asked : authorizationURL sampleProvider sampleConsole "s" sampleChallenge = .ok sampleQuery := by decide +kernel
  have noFile : sampleLoggedIn.2.accessStorePath = "" := by decide +kernel
  have roomy : Roomy (24 * hour + second) sampleLoggedIn.2 {} :=
    ⟨⟨sampleLoggedIn.2.access, if_pos noFile, by decide +kernel⟩, fun _ document found => nomatch found⟩
  have holds := console_login built (by decide +kernel) (by decide +kernel) timely asked
  obtain ⟨final, completed, once⟩ := holds.2 (serveAll sampleProvider sampleCalls sampleStore) "second" "verifier"
    (24 * hour) (24 * hour + second) true [] sampleDraws {} (List.replicate 10 {}) (by decide)
    (by decide +kernel) (by decide) (by decide +kernel) (by decide +kernel) (by decide +kernel) (by decide +kernel)
    roomy (by decide) (by decide)
  exact ⟨holds.1 ⟨24 * hour, none, true⟩ 0 rfl, final, completed, once sampleCalls _ _ _ _ _ (by decide)⟩

/-- Ten minutes after its registration a console with which nobody has logged in is unknown. -/
theorem console_forgotten :
    (newConsoleClient sampleProvider newTokenStore "/console/callback" 0 true).1 = .ok sampleConsole ∧
      authorizationURL sampleProvider sampleConsole "s" sampleChallenge = .ok sampleQuery ∧
      ((validateAuthorizeRequest sampleProvider sampleQuery).run (serverEnvironment sampleProvider)
        [⟨10 * minute, none, true⟩] ⟨sampleStore, 0⟩).1 = some (.error "unknown client_id") := by
  decide +kernel

end Console

end Aeontra.Oauth
