import Aeontra.Library.Pool
import Aeontra.Oauth.Clients

/-!
The authorize and register endpoints of a provider.

A handler asks the store one method at a time, and the store does it under its mutex; between
two methods other handlers may run.
-/

namespace Aeontra.Oauth

open Library Process

structure ParsedURL where
  scheme : String
  host : String
  hostname : String
  rawQuery : String
  fragment : String
  deriving DecidableEq

structure Provider where
  issuer : String
  resource : String
  passphrase : String
  parse : String → Option ParsedURL

abbrev Values := List (String × String)

def Values.get (v : Values) (key : String) : String := ((v.find? fun e => e.1 = key).map Prod.snd).getD ""

structure AuthorizeParams where
  clientID : String
  redirectURI : String
  codeChallenge : String
  state : String
  scope : String
  resource : String
  deriving DecidableEq

/-- What a handler asks of the store, of the clock and of the random source. -/
inductive StoreCall
  | registerClient (redirectURIs : List String)
  | getClient (id : String)
  | passphraseThrottled (clientID : String)
  | comparePassphrase (given : String)
  | recordPassphraseFailure (clientID : String)
  | resetPassphraseFailures (clientID : String)
  | randToken
  | timeNow
  | putCode (code : String) (c : AuthCode)
  deriving DecidableEq

abbrev StoreCall.Answer : StoreCall → Type
  | .registerClient _ => Except Failure String
  | .getClient _ => Option ClientReg
  | .passphraseThrottled _ => Bool
  | .comparePassphrase _ => Bool
  | .recordPassphraseFailure _ => Unit
  | .resetPassphraseFailures _ => Unit
  | .randToken => String
  | .timeNow => Time
  | .putCode _ _ => Bool

abbrev Handler := Process StoreCall StoreCall.Answer

/-- When a method runs, the bytes it draws and whether a write of the client table succeeds. -/
structure Moment where
  now : Time
  drawn : Option Random := none
  written : Bool := true
  deriving DecidableEq

structure Server where
  store : TokenStore
  clock : Time

def serveCall (p : Provider) (m : Moment) (s : TokenStore) : (call : StoreCall) → call.Answer × TokenStore
  | .registerClient uris => s.registerClient uris m.now m.drawn m.written
  | .getClient id => s.getClient id m.now
  | .passphraseThrottled id => s.passphraseThrottled id m.now
  | .comparePassphrase given => (given == p.passphrase, s)
  | .recordPassphraseFailure id => ((), s.recordPassphraseFailure id m.now)
  | .resetPassphraseFailures id => ((), s.resetPassphraseFailures id)
  | .randToken => (randToken m.drawn, s)
  | .timeNow => (m.now, s)
  | .putCode code c => s.putCode code c m.written

def serverEnvironment (p : Provider) : Environment StoreCall StoreCall.Answer Server Moment where
  react call m server := ((serveCall p m server.store call).1, ⟨(serveCall p m server.store call).2, m.now⟩)

inductive Response
  | error (status : Nat) (body : String)
  | registrationError (status : Nat) (code desc : String)
  | registered (clientID : String) (redirectURIs : List String)
  | login (status : Nat) (params : AuthorizeParams) (message : String)
  | redirect (uri code state : String)
  deriving DecidableEq

def registeredRedirect (client : ClientReg) (uri : String) : Bool := client.redirectURIs.any fun u => u == uri

/-- The checks on a request, given the client that was found. -/
def checkAuthorizeRequest (p : Provider) (v : Values) (found : Option ClientReg) : Except String AuthorizeParams :=
  match found with
  | none => .error "unknown client_id"
  | some client =>
    if registeredRedirect client (v.get "redirect_uri") = false then
      .error "redirect_uri does not match a registered value"
    else if v.get "response_type" ≠ "code" then .error "response_type must be code"
    else if v.get "code_challenge" = "" then .error "code_challenge is required (PKCE)"
    else if v.get "code_challenge_method" ≠ "S256" then .error "code_challenge_method must be S256"
    else if v.get "resource" ≠ p.resource then
      .error "resource must match this MCP server's canonical URI"
    else if v.get "scope" ≠ "mcp" then .error "scope must be mcp"
    else .ok {
      clientID := v.get "client_id"
      redirectURI := v.get "redirect_uri"
      codeChallenge := v.get "code_challenge"
      state := v.get "state"
      scope := v.get "scope"
      resource := v.get "resource" }

def validateAuthorizeRequest (p : Provider) (v : Values) : Handler (Except String AuthorizeParams) := do
  let found ← perform (StoreCall.getClient (v.get "client_id"))
  pure (checkAuthorizeRequest p v found)

def redirectWithCode (p : Provider) (params : AuthorizeParams) (code : String) : Response :=
  match p.parse params.redirectURI with
  | none => .error 400 "invalid redirect_uri"
  | some _ => .redirect params.redirectURI code params.state

def invalidRequest (message : String) : Response := .error 400 ("invalid authorization request: " ++ message)

def loginCode (params : AuthorizeParams) (now : Time) : AuthCode where
  clientID := params.clientID
  redirectURI := params.redirectURI
  codeChallenge := params.codeChallenge
  scope := params.scope
  resource := params.resource
  expiresAt := now + authCodeTTL

def issueCode (p : Provider) (params : AuthorizeParams) : Handler Response := do
  perform (StoreCall.resetPassphraseFailures params.clientID)
  let code ← perform StoreCall.randToken
  let now ← perform StoreCall.timeNow
  let stored ← perform (StoreCall.putCode code (loginCode params now))
  if stored then pure (redirectWithCode p params code)
  else pure (.error 503 "authorization storage is temporarily unavailable")

def tryLogin (p : Provider) (params : AuthorizeParams) (given : String) : Handler Response := do
  let throttled ← perform (StoreCall.passphraseThrottled params.clientID)
  if throttled then
    pure (.login 429 params "Too many attempts. Authorization is temporarily locked.")
  else do
    let equal ← perform (StoreCall.comparePassphrase given)
    if equal then issueCode p params
    else do
      perform (StoreCall.recordPassphraseFailure params.clientID)
      pure (.login 401 params "Incorrect passphrase.")

/-- A request to the authorize endpoint; a form that cannot be parsed is `none`. -/
inductive AuthorizeRequest
  | get (query : Values)
  | post (form : Option Values)
  | other
  deriving DecidableEq

def handleAuthorize (p : Provider) : AuthorizeRequest → Handler Response
  | .get query => do
    let params ← validateAuthorizeRequest p query
    match params with
    | .error message => pure (invalidRequest message)
    | .ok params => pure (.login 200 params "")
  | .post none => pure (.error 400 "bad form")
  | .post (some form) => do
    let params ← validateAuthorizeRequest p form
    match params with
    | .error message => pure (invalidRequest message)
    | .ok params => tryLogin p params (form.get "passphrase")
  | .other => pure (.error 405 "method not allowed")

def isLoopbackHost (host : String) : Bool := host == "localhost" || host == "127.0.0.1" || host == "::1"

def validateRedirectURI (p : Provider) (raw : String) : Except String Unit :=
  if (chars raw).contains '*' then .error "redirect_uri must not contain a wildcard"
  else
    match p.parse raw with
    | none => .error "redirect_uri is not a valid URL"
    | some u =>
      if u.fragment ≠ "" ∨ (chars raw).contains '#' = true then .error "redirect_uri must not contain a fragment"
      else if u.host = "" then .error "redirect_uri must include a host"
      else if u.scheme = "https" then .ok ()
      else if u.scheme = "http" then
        if isLoopbackHost u.hostname then .ok ()
        else .error "redirect_uri must use https (only localhost may use http)"
      else .error "redirect_uri must be an http(s) URL"

/-- A registration; a body that cannot be decoded is `none`. -/
def handleRegister (p : Provider) (body : Option (List String)) : Handler Response :=
  match body with
  | none => pure (.registrationError 400 "invalid_client_metadata" "malformed registration body")
  | some uris =>
    if uris = [] then
      pure (.registrationError 400 "invalid_redirect_uri" "at least one redirect_uri is required")
    else
      match uris.forM (validateRedirectURI p) with
      | .error message => pure (.registrationError 400 "invalid_redirect_uri" message)
      | .ok _ => do
        let registered ← perform (StoreCall.registerClient uris)
        match registered with
        | .ok clientID => pure (.registered clientID uris)
        | .error failure =>
          if failure ≠ TokenStore.errRegLimited then
            pure (.registrationError 500 "server_error" "could not store client registration")
          else
            pure (.registrationError 429 "temporarily_unavailable" "registration limit reached")

inductive EndpointRequest
  | authorize (request : AuthorizeRequest)
  | register (body : Option (List String))
  deriving DecidableEq

def EndpointRequest.handle (p : Provider) : EndpointRequest → Handler Response
  | .authorize request => handleAuthorize p request
  | .register body => handleRegister p body

end Aeontra.Oauth
