import Aeontra.Library.Throttle
import Aeontra.Oauth.Authorize

/-!
How often the owner passphrase can be guessed.

A login checks the throttle, compares the passphrase and records a failure in three methods of the
store, and only each of them is atomic.
-/

namespace Aeontra.Oauth.Throttled

open Library List Option Function GuessPhase
open Library.Process

variable {α : Type}

def due : StoreCall → GuessPhase
  | .comparePassphrase _ => .checked
  | .recordPassphraseFailure _ => .failing
  | _ => .quiet

def after : (call : StoreCall) → call.Answer → GuessPhase
  | .passphraseThrottled _, throttled => if throttled then .quiet else .checked
  | .comparePassphrase _, equal => if equal then .quiet else .failing
  | _, _ => .quiet

def named : StoreCall → Prop
  | .passphraseThrottled id => id ≠ passphraseGlobalKey
  | .recordPassphraseFailure id => id ≠ passphraseGlobalKey
  | .resetPassphraseFailures id => id ≠ passphraseGlobalKey
  | _ => True

def possible : (call : StoreCall) → call.Answer → Prop
  | .getClient id, found => id = passphraseGlobalKey → found = none
  | _, _ => True

/-- A guess comes right after a passed check, and a wrong one is recorded next. -/
def Obeys : GuessPhase → Handler α → Prop
  | phase, .done _ => phase = .quiet
  | phase, .ask call next =>
    phase = due call ∧ named call ∧ ∀ answer, possible call answer → Obeys (after call answer) (next answer)

theorem obeys_request (call : StoreCall) {f : call.Answer → Handler α} (fit : named call)
    (rest : ∀ answer, possible call answer → Obeys (after call answer) (f answer)) :
    Obeys (due call) (perform call >>= f) := And.intro rfl (And.intro fit rest)

theorem Obeys.phase {phase : GuessPhase} {handler : Handler α} (obeys : Obeys phase handler) :
    handler.request.elim quiet due = phase := by
  cases handler with
  | done result => exact obeys.symm
  | ask call next => exact obeys.1.symm

section

variable (p : Provider)

theorem checkAuthorizeRequest_ok {v : Values} {found : Option ClientReg} {params : AuthorizeParams}
    (valid : checkAuthorizeRequest p v found = .ok params) : found ≠ none ∧ params.clientID = v.get "client_id" := by
  cases found with
  | none => cases valid
  | some client =>
    refine ⟨some_ne_none client, ?_⟩
    unfold checkAuthorizeRequest at valid
    dsimp only at valid
    split_ifs at valid
    cases valid
    rfl

theorem obeys_validated {v : Values} {f : Except String AuthorizeParams → Handler α}
    (invalid : ∀ message, Obeys .quiet (f (.error message)))
    (valid : ∀ params, params.clientID ≠ passphraseGlobalKey → Obeys .quiet (f (.ok params))) :
    Obeys .quiet (validateAuthorizeRequest p v >>= f) := by
  refine obeys_request (.getClient (v.get "client_id")) trivial fun found free => ?_
  change Obeys .quiet (f (checkAuthorizeRequest p v found))
  cases checked : checkAuthorizeRequest p v found with
  | error message => exact invalid message
  | ok params =>
    obtain ⟨present, same⟩ := checkAuthorizeRequest_ok p checked
    exact valid params fun global => present (free (same.symm.trans global))

theorem obeys_issueCode {params : AuthorizeParams} (known : params.clientID ≠ passphraseGlobalKey) :
    Obeys .quiet (issueCode p params) := by
  refine obeys_request (.resetPassphraseFailures params.clientID) known fun _ _ => ?_
  refine obeys_request .randToken trivial fun code _ => ?_
  refine obeys_request .timeNow trivial fun now _ => ?_
  refine obeys_request (.putCode code (loginCode params now)) trivial fun stored _ => ?_
  cases stored with
  | true => exact rfl
  | false => exact rfl

theorem obeys_tryLogin {params : AuthorizeParams} (known : params.clientID ≠ passphraseGlobalKey) (given : String) :
    Obeys .quiet (tryLogin p params given) := by
  refine obeys_request (.passphraseThrottled params.clientID) known fun throttled _ => ?_
  cases throttled with
  | true => exact rfl
  | false =>
    refine obeys_request (.comparePassphrase given) trivial fun equal _ => ?_
    cases equal with
    | true => exact obeys_issueCode p known
    | false => exact obeys_request (.recordPassphraseFailure params.clientID) known fun _ _ => rfl

theorem obeys_handleAuthorize (request : AuthorizeRequest) : Obeys .quiet (handleAuthorize p request) := by
  cases request with
  | get query => exact obeys_validated p (fun _ => rfl) fun _ _ => rfl
  | post form =>
    cases form with
    | none => exact rfl
    | some form =>
      exact obeys_validated p (fun _ => rfl) fun params known => obeys_tryLogin p known (form.get "passphrase")
  | other => exact rfl

theorem obeys_handleRegister (body : Option (List String)) : Obeys .quiet (handleRegister p body) := by
  cases body with
  | none => exact rfl
  | some uris =>
    unfold handleRegister
    dsimp only
    split
    · exact rfl
    split
    · exact rfl
    refine obeys_request (.registerClient uris) trivial fun registered _ => ?_
    cases registered with
    | ok clientID => exact rfl
    | error failure =>
      dsimp only
      split
      · exact rfl
      · exact rfl

theorem obeys_handle (request : EndpointRequest) : Obeys .quiet (request.handle p) := by
  cases request with
  | authorize request => exact obeys_handleAuthorize p request
  | register body => exact obeys_handleRegister p body

end

abbrev ServerPool := Pool StoreCall StoreCall.Answer Response Server

abbrev Turn := Nat × Moment

section

variable (p : Provider)

def wrongGuess (e : ServerPool × Turn) : Option Time :=
  match e.1.request e.2.1 with
  | some (.comparePassphrase given) => if given == p.passphrase then none else some e.2.2.now
  | _ => none

def wrongGuesses (past : List (ServerPool × Turn)) : List Time := past.filterMap (wrongGuess p)

def phaseOf (pool : ServerPool) (i : Nat) : GuessPhase := (pool.request i).elim .quiet due

def view (past : List (ServerPool × Turn)) (pool : ServerPool) : Throttle Nat where
  phase := phaseOf pool
  guesses := wrongGuesses p past
  failures := pool.state.store.failures passphraseGlobalKey
  clock := pool.state.clock

structure Orderly (pool : ServerPool) : Prop where
  obeys : ∀ (i : Nat) (handler : Handler Response), pool.threads[i]? = some handler → ∃ phase, Obeys phase handler
  free : pool.state.store.clients.read passphraseGlobalKey = none

def Apart (pool : ServerPool) (i : Nat) : Prop :=
  match pool.request i with
  | some (.passphraseThrottled _) => ∀ j < pool.threads.length, phaseOf pool j = .quiet
  | _ => True

instance (pool : ServerPool) (i : Nat) : Decidable (Apart pool i) := by
  unfold Apart
  split <;> infer_instance

def Allowed (pool : ServerPool) (turn : Turn) : Prop := pool.state.clock ≤ turn.2.now ∧ Apart pool turn.1

variable {p}

theorem possible_answer {m : Moment} {s : TokenStore} (free : s.clients.read passphraseGlobalKey = none)
    (call : StoreCall) : possible call (serveCall p m s call).1 := by
  cases call with
  | getClient id =>
    rintro rfl
    change (s.getClient passphraseGlobalKey m.now).1 = none
    unfold TokenStore.getClient
    rw [free]
    rfl
  | registerClient => trivial
  | passphraseThrottled => trivial
  | comparePassphrase => trivial
  | recordPassphraseFailure => trivial
  | resetPassphraseFailures => trivial
  | randToken => trivial
  | timeNow => trivial
  | putCode => trivial

theorem serveCall_global {m : Moment} {s : TokenStore} (free : s.clients.read passphraseGlobalKey = none)
    {call : StoreCall} (fit : named call) :
    (serveCall p m s call).2.clients.read passphraseGlobalKey = none ∧
      match call with
      | .passphraseThrottled _ =>
        (serveCall p m s call).2.failures passphraseGlobalKey =
          (s.failures passphraseGlobalKey).filter fun t => m.now - t < passphraseWindow
      | .recordPassphraseFailure _ =>
        (serveCall p m s call).2.failures passphraseGlobalKey =
          (s.failures passphraseGlobalKey).filter (fun t => m.now - t < passphraseWindow) ++ [m.now]
      | _ => (serveCall p m s call).2.failures passphraseGlobalKey = s.failures passphraseGlobalKey := by
  cases call with
  | registerClient uris =>
    obtain ⟨failures, clients⟩ :=
      s.registerClient_apart uris m.now m.drawn m.written free (randToken_ne_global m.drawn).symm
    exact ⟨clients, failures⟩
  | getClient id =>
    rcases s.getClient_cases id m.now with ⟨same, _⟩ | ⟨client, found, _, _, dropped⟩
    · change (s.getClient id m.now).2.clients.read _ = none ∧ (s.getClient id m.now).2.failures _ = _
      rw [same]
      exact ⟨free, rfl⟩
    have apart : passphraseGlobalKey ≠ id := by
      rintro rfl
      rw [free] at found
      cases found
    change (s.getClient id m.now).2.clients.read _ = none ∧ (s.getClient id m.now).2.failures _ = _
    rw [dropped]
    refine ⟨?_, ?_⟩
    · rw [Dictionary.read_delete, update_of_ne apart]
      exact free
    · exact TokenStore.failures_resetPassphraseFailures_ne apart
  | passphraseThrottled id =>
    obtain ⟨failures, clients, _⟩ := s.passphraseThrottled_spec id m.now fit
    exact ⟨free, failures⟩
  | comparePassphrase given => exact ⟨free, rfl⟩
  | recordPassphraseFailure id =>
    obtain ⟨failures, clients⟩ := s.recordPassphraseFailure_spec id m.now fit
    exact ⟨free, failures⟩
  | resetPassphraseFailures id =>
    exact ⟨free, TokenStore.failures_resetPassphraseFailures_ne (Ne.symm fit)⟩
  | randToken => exact ⟨free, rfl⟩
  | timeNow => exact ⟨free, rfl⟩
  | putCode code c =>
    obtain ⟨failures, clients⟩ := s.putCode_apart code c m.written free
    exact ⟨clients, failures⟩

variable {past : List (ServerPool × Turn)} {pool : ServerPool} {turn : Turn}

theorem step_ask {call : StoreCall} {next : call.Answer → Handler Response}
    (here : pool.threads[turn.1]? = some (.ask call next)) :
    pool.step (serverEnvironment p) turn =
      ⟨pool.threads.set turn.1 (next (serveCall p turn.2 pool.state.store call).1),
        ⟨(serveCall p turn.2 pool.state.store call).2, turn.2.now⟩⟩ := by
  unfold Pool.step
  rw [here]
  rfl

theorem Orderly.ask (orderly : Orderly pool) {call : StoreCall} {next : call.Answer → Handler Response}
    (here : pool.threads[turn.1]? = some (.ask call next)) :
    named call ∧ Obeys (after call (serveCall p turn.2 pool.state.store call).1)
      (next (serveCall p turn.2 pool.state.store call).1) := by
  obtain ⟨phase, _, fit, rest⟩ := orderly.obeys _ _ here
  exact ⟨fit, rest _ (possible_answer orderly.free call)⟩

theorem Orderly.step (orderly : Orderly pool) (turn : Turn) : Orderly (pool.step (serverEnvironment p) turn) := by
  rcases Pool.step_cases (serverEnvironment p) pool turn with ⟨_, same⟩ | ⟨call, next, here, _, _⟩
  · rw [same]
    exact orderly
  obtain ⟨fit, obeys⟩ := orderly.ask (p := p) here
  rw [step_ask here]
  refine ⟨fun i handler found => ?_, (serveCall_global orderly.free fit).1⟩
  change (pool.threads.set turn.1 _)[i]? = some handler at found
  rw [getElem?_set] at found
  split at found
  · split at found
    · cases found
      exact ⟨_, obeys⟩
    · cases found
  · exact orderly.obeys i handler found

theorem view_step {call : StoreCall} {next : call.Answer → Handler Response}
    (here : pool.threads[turn.1]? = some (.ask call next))
    (obeys : Obeys (after call (serveCall p turn.2 pool.state.store call).1)
      (next (serveCall p turn.2 pool.state.store call).1)) :
    view p (past ++ [(pool, turn)]) (pool.step (serverEnvironment p) turn) =
      { phase := Function.update (phaseOf pool) turn.1 (after call (serveCall p turn.2 pool.state.store call).1)
        guesses := wrongGuesses p past ++ (wrongGuess p (pool, turn)).toList
        failures := (serveCall p turn.2 pool.state.store call).2.failures passphraseGlobalKey
        clock := turn.2.now } := by
  rw [step_ask here]
  refine Throttle.ext ?_ ?_ rfl rfl
  · change (fun r : Option StoreCall => r.elim quiet due) ∘ Pool.request _ = _
    rw [Pool.request_set pool here, comp_update, obeys.phase]
    rfl
  · change wrongGuesses p (past ++ [(pool, turn)]) = _
    rw [wrongGuesses, filterMap_append]
    congr 1

theorem rest_quiet {s : Throttle Nat} {i : Nat} {now : Time} {failures : List Time} (later : s.clock ≤ now)
    (same : Throttle.SameFrom passphraseWindow now failures s.failures) (quiet : s.phase i = .quiet) :
    Throttle.Step passphraseWindow maxPassphraseFailures s
      ⟨Function.update s.phase i .quiet, s.guesses ++ (none : Option Time).toList, failures, now⟩ := by
  rw [← quiet, update_eq_self, toList_none, append_nil]
  exact .rest later same

theorem wrongGuess_eq_none (silent : ∀ given, pool.request turn.1 ≠ some (.comparePassphrase given)) :
    wrongGuess p (pool, turn) = none := by
  unfold wrongGuess
  dsimp only
  split
  · next given asked => exact absurd asked (silent given)
  · rfl

/-- A turn is a step of the throttle, or it changes nothing that the throttle sees. -/
theorem step_view (past : List (ServerPool × Turn)) (orderly : Orderly pool) (allowed : Allowed pool turn) :
    Throttle.Step passphraseWindow maxPassphraseFailures (view p past pool)
        (view p (past ++ [(pool, turn)]) (pool.step (serverEnvironment p) turn)) ∨
      view p (past ++ [(pool, turn)]) (pool.step (serverEnvironment p) turn) = view p past pool := by
  rcases Pool.step_cases (serverEnvironment p) pool turn with ⟨idle, same⟩ | ⟨call, next, here, asked, _⟩
  · right
    have silent : wrongGuess p (pool, turn) = none := wrongGuess_eq_none fun given found => by
      rw [idle] at found
      cases found
    rw [same]
    refine Throttle.ext rfl ?_ rfl rfl
    change wrongGuesses p (past ++ [(pool, turn)]) = wrongGuesses p past
    rw [wrongGuesses, filterMap_append, filterMap_cons_none silent, filterMap_nil, append_nil]
    rfl
  · left
    obtain ⟨fit, obeys⟩ := orderly.ask (p := p) here
    obtain ⟨_, bucket⟩ := serveCall_global (p := p) (m := turn.2) orderly.free fit
    have phase : (view p past pool).phase turn.1 = due call := by
      change (pool.request turn.1).elim quiet due = due call
      rw [asked]
      rfl
    have later : (view p past pool).clock ≤ turn.2.now := allowed.1
    have silent : (∀ given, call ≠ .comparePassphrase given) → wrongGuess p (pool, turn) = none := fun other =>
      wrongGuess_eq_none fun given found => other given (some.inj (asked.symm.trans found))
    rw [view_step here obeys]
    cases call with
    | passphraseThrottled id =>
      have kept : Throttle.SameFrom passphraseWindow turn.2.now
          ((serveCall p turn.2 pool.state.store (.passphraseThrottled id)).2.failures passphraseGlobalKey)
          (view p past pool).failures := by
        intro u newer
        rw [bucket]
        exact recent_filter newer _
      rw [silent (by simp)]
      change Throttle.Step _ _ _ ⟨Function.update _ _
        (if (pool.state.store.passphraseThrottled id turn.2.now).1 then quiet else checked), _, _, _⟩
      cases passed : (pool.state.store.passphraseThrottled id turn.2.now).1 with
      | true => exact rest_quiet later kept phase
      | false =>
        obtain ⟨_, _, room⟩ := pool.state.store.passphraseThrottled_spec id turn.2.now fit
        have free : ∀ j, (view p past pool).phase j = .quiet := by
          intro j
          have apart := allowed.2
          unfold Apart at apart
          rw [asked] at apart
          by_cases inside : j < pool.threads.length
          · exact apart j inside
          · change (pool.threads[j]?.bind Process.request).elim quiet due = .quiet
            rw [getElem?_eq_none (Nat.le_of_not_lt inside)]
            rfl
        have few := room passed
        rw [← recent_eq_length, recent_filter (Int.le_refl _)] at few
        rw [toList_none, append_nil]
        exact .pass later kept free few
    | comparePassphrase given =>
      have guess : wrongGuess p (pool, turn) = if given == p.passphrase then none else some turn.2.now := by
        unfold wrongGuess
        rw [asked]
      rw [guess]
      change Throttle.Step _ _ _ ⟨Function.update _ _
        (if (given == p.passphrase) = true then quiet else failing), _, _, _⟩
      cases equal : given == p.passphrase with
      | true =>
        rw [if_pos rfl, if_pos rfl, toList_none, append_nil]
        exact .right later phase
      | false => exact .wrong later phase
    | recordPassphraseFailure id =>
      rw [silent (by simp), toList_none, append_nil]
      refine .record later phase fun u newer => ?_
      rw [bucket, recent_append, recent_append, recent_filter newer]
      rfl
    | registerClient uris =>
      rw [silent (by simp)]
      exact rest_quiet later (fun _ _ => congrArg _ bucket) phase
    | getClient id =>
      rw [silent (by simp)]
      exact rest_quiet later (fun _ _ => congrArg _ bucket) phase
    | resetPassphraseFailures id =>
      rw [silent (by simp)]
      exact rest_quiet later (fun _ _ => congrArg _ bucket) phase
    | randToken =>
      rw [silent (by simp)]
      exact rest_quiet later (fun _ _ => congrArg _ bucket) phase
    | timeNow =>
      rw [silent (by simp)]
      exact rest_quiet later (fun _ _ => congrArg _ bucket) phase
    | putCode code c =>
      rw [silent (by simp)]
      exact rest_quiet later (fun _ _ => congrArg _ bucket) phase

end

/-- Every id of a client was drawn at random, or is the one of a console. -/
def Issued (s : TokenStore) : Prop :=
  ∀ id client, s.clients.read id = some client →
    (∃ drawn, id = randToken drawn) ∨ ∃ digest, id = "console-" ++ rawURLEncode digest

theorem Issued.free {s : TokenStore} (issued : Issued s) : s.clients.read passphraseGlobalKey = none := by
  cases found : s.clients.read passphraseGlobalKey with
  | none => rfl
  | some client =>
    rcases issued _ _ found with ⟨drawn, same⟩ | ⟨digest, same⟩
    · exact absurd same.symm (randToken_ne_global drawn)
    · have first := congrArg (fun text => text.toList.head?) same
      rw [String.toList_append] at first
      cases first

def serving (p : Provider) (requests : List EndpointRequest) (server : Server) : ServerPool where
  threads := requests.map fun request => request.handle p
  state := server

theorem orderly_serving (p : Provider) (requests : List EndpointRequest) {server : Server}
    (issued : Issued server.store) : Orderly (serving p requests server) where
  obeys i handler found := by
    obtain ⟨request, _, rfl⟩ := mem_map.mp (mem_of_getElem? found)
    exact ⟨.quiet, obeys_handle p request⟩
  free := issued.free

/-- While no login makes its check as long as another one is past its own, at most
`maxPassphraseFailures` wrong passphrases are compared in any span of `passphraseWindow`. -/
theorem guesses_bounded (p : Provider) (requests : List EndpointRequest) (server : Server) (schedule : List Turn)
    (issued : Issued server.store)
    (monotone : ∀ e ∈ Pool.history (serverEnvironment p) (serving p requests server) schedule,
      e.1.state.clock ≤ e.2.2.now)
    (serial : ∀ e ∈ Pool.history (serverEnvironment p) (serving p requests server) schedule, Apart e.1 e.2.1) :
    Sparse passphraseWindow maxPassphraseFailures
      (wrongGuesses p (Pool.history (serverEnvironment p) (serving p requests server) schedule)) := by
  have quiet : ∀ i, phaseOf (serving p requests server) i = .quiet := by
    intro i
    unfold phaseOf Pool.request
    cases found : (serving p requests server).threads[i]? with
    | none => rfl
    | some handler =>
      obtain ⟨request, _, rfl⟩ := mem_map.mp (mem_of_getElem? found)
      exact (obeys_handle p request).phase
  have start : Orderly (serving p requests server) ∧
      Throttle.Sound passphraseWindow maxPassphraseFailures (view p [] (serving p requests server)) :=
    ⟨orderly_serving p requests issued, Throttle.sound_start quiet rfl⟩
  have final := Pool.run_keeps
    (fun past pool => Orderly pool ∧ Throttle.Sound passphraseWindow maxPassphraseFailures (view p past pool))
    Allowed (fun past pool turn sound allowed => by
      refine ⟨sound.1.step turn, ?_⟩
      rcases step_view (p := p) past sound.1 allowed with step | same
      · exact step.keeps sound.2
      · rw [same]
        exact sound.2) start fun e member => ⟨monotone e member, serial e member⟩
  exact final.2.sparse

def sampleProvider : Provider where
  issuer := "https://box.example"
  resource := "https://box.example/mcp"
  passphrase := "open sesame"
  parse _ := some ⟨"https", "client.example", "client.example", "", ""⟩

def sampleClient : String := randToken (some ⟨replicate 32 0, rfl⟩)

def sampleServer : Server where
  store := { newTokenStore with
    clients := Dictionary.set ∅ sampleClient { redirectURIs := ["https://client.example/cb"], createdAt := 0 } }
  clock := 0

def sampleLogin : EndpointRequest :=
  .authorize (.post (some [("client_id", sampleClient), ("redirect_uri", "https://client.example/cb"),
    ("response_type", "code"), ("code_challenge", "x"), ("code_challenge_method", "S256"),
    ("resource", "https://box.example/mcp"), ("scope", "mcp"), ("passphrase", "guess")]))

theorem issued_sample : Issued sampleServer.store := by
  intro id client found
  change (Dictionary.set ∅ sampleClient _).read id = some client at found
  rw [Dictionary.read_set] at found
  by_cases same : id = sampleClient
  · exact .inl ⟨_, same⟩
  · rw [update_of_ne same] at found
    cases found

def sampleSerial : List Turn :=
  [(0, ⟨1, none, true⟩), (0, ⟨1, none, true⟩), (0, ⟨1, none, true⟩), (0, ⟨2, none, true⟩),
    (1, ⟨2, none, true⟩), (1, ⟨3, none, true⟩), (1, ⟨3, none, true⟩), (1, ⟨3, none, true⟩)]

theorem guesses_bounded_sample :
    wrongGuesses sampleProvider
        (Pool.history (serverEnvironment sampleProvider)
          (serving sampleProvider [sampleLogin, sampleLogin] sampleServer)
          sampleSerial) = [1, 3] ∧
      Sparse passphraseWindow maxPassphraseFailures
        (wrongGuesses sampleProvider (Pool.history (serverEnvironment sampleProvider)
          (serving sampleProvider [sampleLogin, sampleLogin] sampleServer) sampleSerial)) := by
  refine ⟨by decide +kernel, guesses_bounded _ _ _ _ issued_sample ?_ ?_⟩
  · decide +kernel
  · decide +kernel

/-- Six logins that all make their checks before the first of them compares. -/
def sampleRace : List Turn :=
  (range 6).map (fun i => (i, ⟨1, none, true⟩)) ++ (range 6).map (fun i => (i, ⟨1, none, true⟩)) ++
    (range 6).map fun i => (i, ⟨1, none, true⟩)

theorem guesses_raced :
    Issued sampleServer.store ∧
      (∀ e ∈ Pool.history (serverEnvironment sampleProvider)
        (serving sampleProvider (replicate 6 sampleLogin) sampleServer) sampleRace, e.1.state.clock ≤ e.2.2.now) ∧
      ¬ Sparse passphraseWindow maxPassphraseFailures
        (wrongGuesses sampleProvider (Pool.history (serverEnvironment sampleProvider)
          (serving sampleProvider (replicate 6 sampleLogin) sampleServer) sampleRace)) := by
  refine ⟨issued_sample, by decide +kernel, fun sparse => ?_⟩
  exact absurd (sparse 0) (by decide +kernel)

end Aeontra.Oauth.Throttled
