import Aeontra.Oauth.RefreshMethods

/-!
How often a refresh token is redeemed.

The replies of the providers keep a ledger, and the refresh file holds what the ledger says as long
as no provider revokes a token on an old copy of the file.
-/

namespace Aeontra.Oauth.Redemption

open Library List Function Option
open Library.Process
open Library.Dictionary

section

def redeemed : Request → Reply → Option String
  | .call (.consumeRefresh token), .refresh (some _) => some token
  | .call (.rotateRefresh oldToken _ _ _), .refresh (some _) => some oldToken
  | _, _ => none

def revoked : Request → Reply → Option String
  | .call (.revokeRefresh token), .done => some token
  | _, _ => none

def issued : Request → Reply → Option (String × RefreshGrant)
  | .call (.putRefresh token grant), .done => some (token, grant)
  | .call (.rotateRefresh _ newToken _ asked), .refresh (some old) => some (newToken, rotatedRefresh old asked)
  | _, _ => none

def newToken : Request → Option String
  | .call (.putRefresh token _) => some token
  | .call (.rotateRefresh _ newToken _ _) => some newToken
  | _ => none

def presented : Request → Option String
  | .call (.consumeRefresh token) => some token
  | .call (.rotateRefresh oldToken _ _ _) => some oldToken
  | .call (.revokeRefresh token) => some token
  | _ => none

theorem presented_of_redeemed {request : Request} {reply : Reply} {token : String}
    (redeems : redeemed request reply = some token) : presented request = some token := by
  unfold redeemed at redeems
  split at redeems
  · exact redeems
  · exact redeems
  · cases redeems

theorem presented_of_revoked {request : Request} {reply : Reply} {token : String}
    (revokes : revoked request reply = some token) : presented request = some token := by
  unfold revoked at revokes
  split at revokes
  · exact revokes
  · cases revokes

theorem newToken_of_issued {request : Request} {reply : Reply} {entry : String × RefreshGrant}
    (issues : issued request reply = some entry) : newToken request = some entry.1 := by
  unfold issued at issues
  split at issues
  · cases issues
    rfl
  · cases issues
    rfl
  · cases issues

theorem quiet_crashed (request : Request) :
    redeemed request .crashed = none ∧ revoked request .crashed = none ∧ issued request .crashed = none := by
  cases request with
  | start config => exact ⟨rfl, rfl, rfl⟩
  | call operation => cases operation <;> exact ⟨rfl, rfl, rfl⟩

/-- The ledger that the replies keep: what was issued and neither redeemed nor revoked. -/
def record (ledger : Ledger) (request : Request) (reply : Reply) : Ledger :=
  deposit (withdraw (withdraw ledger (redeemed request reply)) (revoked request reply)) (issued request reply)

variable {now : Time} {first later : Ledger}

theorem standing_record (same : standing now first = standing now later) (request : Request) (reply : Reply) :
    standing now (record first request reply) = standing now (record later request reply) :=
  alive_deposit (alive_withdraw (alive_withdraw same _) _) _

theorem Written.standing_eq {file : Option RefreshStoreFile} {ledger : Ledger} (written : Written file ledger)
    (empty : standing now ledger "" = none) : standing now (held file) = standing now ledger := by
  rw [written.holds, standing, alive_update, filter_none, ← empty]
  exact update_eq_self _ _

end

section

variable {before : Option RefreshStoreFile} {f : Files} {now : Time}

structure Served (now : Time) (before : Option RefreshStoreFile) (request : Request)
    (answer : Reply × Option TokenStore) (after : Files) : Prop where
  formed : WellFormed after.refresh
  exists_ : after.refresh = none → before = none
  fits : ∀ s, answer.2 = some s → Fit after.refresh s
  ledger : standing now (held after.refresh) = standing now (record (held before) request answer.1)
  redeems : ∀ token, redeemed request answer.1 = some token → standing now (held before) token ≠ none
  failed : ∀ failure, answer.1 = .failed failure → after.refresh = before

theorem served_unchanged {request : Request} {reply : Reply} {slot : Option TokenStore} {after : Files}
    (formed : WellFormed before) (file : after.refresh = before) (fits : ∀ s, slot = some s → Fit before s)
    (quiet : redeemed request reply = none ∧ revoked request reply = none ∧ issued request reply = none) :
    Served now before request (reply, slot) after := by
  refine ⟨file ▸ formed, fun missing => file ▸ missing, fun s here => file ▸ fits s here, ?_, fun token redeems => ?_,
    fun _ _ => file⟩
  · rw [record, quiet.1, quiet.2.1, quiet.2.2, file]
    rfl
  · rw [quiet.1] at redeems
    cases redeems

theorem served_written {request : Request} {reply : Reply} {s : TokenStore} {after : Files} {ledger : Ledger}
    (fit : Fit after.refresh s) (written : Written after.refresh ledger) (empty : standing now ledger "" = none)
    (agrees : standing now ledger = standing now (record (held before) request reply))
    (redeems : ∀ token, redeemed request reply = some token → standing now (held before) token ≠ none)
    (succeeds : ∀ failure, reply ≠ .failed failure) : Served now before request (reply, some s) after := by
  refine ⟨written.formed, fun missing => absurd missing written.exists_, fun s' same => ?_,
    (written.standing_eq empty).trans agrees, redeems, fun failure failed => absurd failed (succeeds failure)⟩
  cases same
  exact fit

theorem standing_held_empty (before : Option RefreshStoreFile) : standing now (held before) "" = none := by
  rw [standing, alive, held_empty, filter_none]

theorem standing_withdrawn {ledger : Ledger} (empty : standing now ledger "" = none) (token : String) :
    standing now (update ledger token none) "" = none := by
  rw [standing, alive_update]
  by_cases same : "" = token
  · rw [same, update_self, filter_none]
  · rw [update_of_ne same]
    exact empty

theorem standing_deposited {ledger : Ledger} (empty : standing now ledger "" = none) {token : String}
    (nonempty : token ≠ "") (entry : Option RefreshGrant) :
    standing now (update ledger token entry) "" = none := by
  rw [standing, alive_update, update_of_ne nonempty.symm]
  exact empty

theorem standing_standing (ledger : Ledger) : standing now (standing now ledger) = standing now ledger :=
  alive_alive le_rfl ledger

theorem served_kept {request : Request} {reply : Reply} {s s' : TokenStore} {after : Files}
    (formed : WellFormed before) (fit : Fit before s) (kept : Kept s before s' after)
    (quiet : redeemed request reply = none ∧ revoked request reply = none ∧ issued request reply = none) :
    Served now before request (reply, some s') after := by
  refine served_unchanged formed kept.file (fun s'' same => ?_) quiet
  cases same
  exact kept.file ▸ fit.kept kept

/-- What a request may meet: providers share the file, a rotation is not asked ahead of time, and
a revocation finds the provider's copy of the grants current and a file system that works. -/
def Allowed (calm : Bool) (now : Time) (slot : Option TokenStore) (file : Option RefreshStoreFile) : Request → Prop
  | .start config => config.refreshStorePath ≠ ""
  | .call (.rotateRefresh _ _ _ asked) => asked ≤ now
  | .call (.revokeRefresh _) =>
    calm = true ∧ ∀ s, slot = some s → standing now s.refresh.read = standing now (held file)
  | .call _ => True

theorem ensures_start {calm : Bool} {config : Config} {slot : Option TokenStore} (same : f.refresh = before)
    (formed : WellFormed before) (path : config.refreshStorePath ≠ "") :
    Leads calm before ((Request.start config).serve now slot)
      (Served now before (.start config)) f := by
  refine (ensures_newProviderStore same formed path).bind ?_
  rintro out after ⟨file, fits⟩
  refine ensures_pure ?_
  unfold starting
  split
  · next started =>
    refine served_unchanged formed file (fun s here => ?_) ⟨rfl, rfl, rfl⟩
    cases here
    exact fits started
  · exact served_unchanged formed file nofun ⟨rfl, rfl, rfl⟩

theorem ensures_method {calm : Bool} {s : TokenStore} (operation : Operation) (same : f.refresh = before)
    (formed : WellFormed before) (fit : Fit before s)
    (allowed : Allowed calm now (some s) before (.call operation))
    (fresh : ∀ token, newToken (.call operation) = some token → token ≠ "") :
    Leads calm before (operation.method now s)
      (Served now before (.call operation)) f := by
  have only : ∀ {left : TokenStore} {after : Files}, Unchanged before left after →
      ∀ s', some left = some s' → Fit before s' := by
    rintro left after unchanged s' here
    cases here
    exact unchanged.fit
  have empty : standing now (standing now (held before)) "" = none := by
    rw [standing_standing]
    exact standing_held_empty before
  cases operation with
  | putAccess token grant =>
    refine (onlyAccess_putAccess free (fun _ => same) token grant).bind fun out after alone => ensures_pure ?_
    have kept := Kept.of_onlyAccess same alone
    unfold reporting
    split
    · exact served_kept formed fit kept ⟨rfl, rfl, rfl⟩
    · exact served_kept formed fit kept ⟨rfl, rfl, rfl⟩
  | getAccess token =>
    refine (onlyAccess_getAccess free (fun _ => same) token).bind fun out after alone => ensures_pure ?_
    have kept := Kept.of_onlyAccess same alone
    unfold finding
    split
    · exact served_kept formed fit kept ⟨rfl, rfl, rfl⟩
    · exact served_kept formed fit kept ⟨rfl, rfl, rfl⟩
  | revokeAccess token =>
    refine (onlyAccess_revokeAccess free (fun _ => same) token).bind fun out after alone => ensures_pure ?_
    exact served_kept formed fit (.of_onlyAccess same alone) ⟨rfl, rfl, rfl⟩
  | putRefresh token grant =>
    refine (ensures_putRefresh same token grant formed fit).bind ?_
    rintro ⟨result, left⟩ after (⟨rfl, fits, written⟩ | ⟨⟨failure, rfl⟩, -, unchanged⟩)
    · have nonempty : token ≠ "" := fresh token rfl
      refine ensures_pure (served_written fits written ?_ ?_ nofun nofun)
      · exact standing_deposited empty nonempty _
      · exact alive_update_congr (standing_standing _) token _
    · exact ensures_pure (served_unchanged formed unchanged.file (only unchanged) ⟨rfl, rfl, rfl⟩)
  | consumeRefresh token =>
    refine (ensures_consumeRefresh same token formed fit).bind ?_
    rintro ⟨result, left⟩ after (⟨grant, rfl, found, fits, written⟩ | ⟨⟨rfl, -⟩ | ⟨⟨failure, rfl⟩, -⟩, unchanged⟩)
    · refine ensures_pure (served_written fits written ?_ ?_ ?_ nofun)
      · exact standing_withdrawn empty token
      · exact alive_update_congr (standing_standing _) token _
      rintro token' redeems
      cases redeems
      rw [found]
      exact some_ne_none _
    · exact ensures_pure (served_unchanged formed unchanged.file (only unchanged) ⟨rfl, rfl, rfl⟩)
    · exact ensures_pure (served_unchanged formed unchanged.file (only unchanged) ⟨rfl, rfl, rfl⟩)
  | rotateRefresh oldToken newToken accessToken asked =>
    refine (ensures_rotateRefresh same formed fit allowed).bind ?_
    rintro ⟨result, left⟩ after (⟨grant, rfl, found, fits, written⟩ | ⟨rfl | ⟨failure, rfl⟩, unchanged⟩)
    · have nonempty : newToken ≠ "" := fresh newToken rfl
      refine ensures_pure (served_written fits written ?_ ?_ ?_ nofun)
      · exact standing_deposited (standing_withdrawn empty oldToken) nonempty _
      · exact alive_update_congr (alive_update_congr (standing_standing _) oldToken _) newToken _
      rintro token' redeems
      cases redeems
      rw [found]
      exact some_ne_none _
    · exact ensures_pure (served_unchanged formed unchanged.file (only unchanged) ⟨rfl, rfl, rfl⟩)
    · exact ensures_pure (served_unchanged formed unchanged.file (only unchanged) ⟨rfl, rfl, rfl⟩)
  | revokeRefresh token =>
    obtain ⟨rfl, current⟩ := allowed
    refine (ensures_revokeRefresh same token fit).bind ?_
    rintro ⟨result, left⟩ after (⟨rfl, unchanged⟩ | ⟨fits, written⟩)
    · refine ensures_pure ⟨unchanged.file ▸ formed, fun missing => unchanged.file ▸ missing,
        fun s' here => unchanged.file ▸ only unchanged s' here, ?_, nofun, fun _ _ =>
          unchanged.file⟩
      -- the empty token is not held, so there is nothing to withdraw
      have nothing : update (held before) "" none = held before := by
        rw [← held_empty before]
        exact update_eq_self _ _
      change standing now (held after.refresh) = standing now (update (held before) "" none)
      rw [nothing, unchanged.file]
    · refine ensures_pure (served_written fits written ?_ ?_ nofun nofun)
      · exact standing_withdrawn ((congrFun (current s rfl) "").trans (standing_held_empty before)) token
      · exact alive_update_congr (current s rfl) token _

end

section

variable {P : Type} [DecidableEq P] {since : Time} {ledger : Ledger} {w : World P} {input : Input P}
  {inputs rest : List (Input P)}

/-- The file is well formed and holds what the ledger of the replies says. -/
structure Sound (since : Time) (ledger : Ledger) (w : World P) : Prop where
  formed : WellFormed w.files.refresh
  fits : ∀ p s, w.stores p = some s → Fit w.files.refresh s
  agrees : standing since (held w.files.refresh) = standing since ledger

def Careful (w : World P) (input : Input P) : Prop :=
  Allowed (input.choices.all Choice.ok) input.now (w.stores input.provider) w.files.refresh input.request

omit [DecidableEq P] in
theorem Sound.later (sound : Sound since ledger w) {now : Time} (le : since ≤ now) : Sound now ledger w :=
  ⟨sound.formed, sound.fits, alive_mono le sound.agrees⟩

theorem permitted_all {p : Program (Reply × Option TokenStore)} {before : Option RefreshStoreFile}
    (choices : List Choice) (f : Files) :
    p.Permitted environment (undisturbed (choices.all Choice.ok) before) choices f := by
  have free : ∀ (call : Call) (choice : Choice) (f : Files), (choices.all Choice.ok = true → choice.ok = true) →
      (undisturbed (choices.all Choice.ok) before).may call choice f := fun _ _ _ may => may
  exact permitted_of_choices free p (fun choice member all => all_eq_true.mp all choice member) f

theorem fits_update {stores : P → Option TokenStore} {provider : P} {slot : Option TokenStore}
    {before after : Option RefreshStoreFile} (fits : ∀ p s, stores p = some s → Fit before s)
    (exists_ : after = none → before = none) (fit : ∀ s, slot = some s → Fit after s) :
    ∀ p s, update stores provider slot p = some s → Fit after s := by
  intro p s here
  by_cases same : p = provider
  · subst same
    rw [update_self] at here
    exact fit s here
  · rw [update_of_ne same] at here
    have old := fits p s here
    exact ⟨old.path, fun missing => old.missing (exists_ missing)⟩

structure Stepped (ledger : Ledger) (w : World P) (input : Input P) : Prop where
  sound : Sound input.now (record ledger input.request (exec w input).1) (exec w input).2
  redeems : ∀ token, redeemed input.request (exec w input).1 = some token → standing input.now ledger token ≠ none
  failed : ∀ failure, (exec w input).1 = .failed failure → (exec w input).2.files.refresh = w.files.refresh

theorem step (sound : Sound since ledger w) (le : since ≤ input.now) (careful : Careful w input)
    (fresh : ∀ token, newToken input.request = some token → token ≠ "") : Stepped ledger w input := by
  have now := sound.later le
  have ensured : (input.program w).Ensures environment
      (undisturbed (input.choices.all Choice.ok) w.files.refresh)
      (Served input.now w.files.refresh input.request) w.files := by
    unfold Careful at careful
    unfold Input.program
    revert careful fresh
    cases input.request with
    | start config => exact fun careful _ => ensures_start rfl now.formed careful
    | call operation =>
      cases slot : w.stores input.provider with
      | none =>
        exact fun _ _ => ensures_pure (served_unchanged now.formed rfl nofun
          (by cases operation <;> exact ⟨rfl, rfl, rfl⟩))
      | some s =>
        exact fun careful fresh => ensures_method operation rfl now.formed (now.fits _ s slot) careful fresh
  rcases exec_ensures ensured (permitted_all _ _) with ⟨files, same, result⟩ | ⟨answer, files, served, result⟩
  · have same : files.refresh = w.files.refresh := same
    constructor
    · rw [result]
      refine ⟨same ▸ now.formed, ?_, ?_⟩
      · exact fits_update now.fits (fun missing => same ▸ missing) nofun
      · obtain ⟨redeems, revokes, issues⟩ := quiet_crashed input.request
        rw [record, redeems, revokes, issues, same]
        exact now.agrees
    · intro token redeems
      rw [result, (quiet_crashed _).1] at redeems
      cases redeems
    · intro failure failed
      rw [result] at failed
      cases failed
  · constructor
    · rw [result]
      refine ⟨served.formed, fits_update now.fits served.exists_ served.fits, ?_⟩
      exact served.ledger.trans (standing_record now.agrees _ _)
    · intro token redeems
      rw [result] at redeems
      rw [← now.agrees]
      exact served.redeems token redeems
    · intro failure failed
      rw [result] at failed ⊢
      exact served.failed failure failed

/-- New tokens are drawn at random, so no request has named them before. -/
structure Fresh (inputs : List (Input P)) : Prop where
  own : ∀ input ∈ inputs, ∀ token, newToken input.request = some token →
    token ≠ "" ∧ presented input.request ≠ some token
  apart : inputs.Pairwise fun earlier later => ∀ token, newToken later.request = some token →
    newToken earlier.request ≠ some token ∧ presented earlier.request ≠ some token

omit [DecidableEq P] in
theorem Fresh.tail (fresh : Fresh (input :: rest)) : Fresh rest :=
  ⟨fun input member => fresh.own input (mem_cons_of_mem _ member), (pairwise_cons.mp fresh.apart).2⟩

structure Going (since : Time) (ledger : Ledger) (w : World P) (rest : List (Input P)) : Prop where
  sound : Sound since ledger w
  disciplined : Disciplined Careful since w rest
  fresh : Fresh rest
  old : ∀ token, ledger token ≠ none → ∀ input ∈ rest, newToken input.request ≠ some token

section

variable {request : Request} {reply : Reply} {token : String}

theorem issued_apart (other : newToken request ≠ some token) :
    ∀ e, issued request reply = some e → e.1 ≠ token := by
  rintro e issues rfl
  exact other (newToken_of_issued issues)

theorem record_gone (gone : ledger token = none) (other : newToken request ≠ some token) :
    record ledger request reply token = none := by
  rw [record, deposit_apart (issued_apart other)]
  exact withdraw_none (withdraw_none gone)

theorem record_ended (ends : redeemed request reply = some token ∨ revoked request reply = some token)
    (other : newToken request ≠ some token) : record ledger request reply token = none := by
  rw [record, deposit_apart (issued_apart other)]
  rcases ends with redeems | revokes
  · rw [redeems]
    exact withdraw_none (withdraw_self ledger)
  · rw [revokes]
    exact withdraw_self _

theorem record_kept (unredeemed : redeemed request reply ≠ some token)
    (unrevoked : revoked request reply ≠ some token) (other : newToken request ≠ some token) :
    record ledger request reply token = ledger token := by
  rw [record, deposit_apart (issued_apart other), withdraw_apart unrevoked, withdraw_apart unredeemed]

theorem record_issued {grant : RefreshGrant} (issues : issued request reply = some (token, grant)) :
    record ledger request reply token = some grant := by
  rw [record, issues]
  exact deposit_self _ _

end

theorem Going.stepped (going : Going since ledger w (input :: rest)) : Stepped ledger w input :=
  step going.sound going.disciplined.1 going.disciplined.2.1 fun token new =>
    (going.fresh.own input mem_cons_self token new).1

theorem Going.next (going : Going since ledger w (input :: rest)) :
    Going input.now (record ledger input.request (exec w input).1) (exec w input).2 rest := by
  refine ⟨going.stepped.sound, going.disciplined.2.2, going.fresh.tail, fun token here later member new => ?_⟩
  have apart := (pairwise_cons.mp going.fresh.apart).1 later member token new
  refine here (record_gone ?_ apart.1)
  by_contra held
  exact going.old token held later (mem_cons_of_mem _ member) new

theorem Going.run {front : List (Input P)} (going : Going since ledger w (front ++ rest)) :
    ∃ since' ledger', Going since' ledger' (Machine.run exec w front) rest ∧
      ∀ now, since ≤ now → (∀ input ∈ front, input.now ≤ now) → since' ≤ now := by
  induction front generalizing since ledger w with
  | nil => exact ⟨since, ledger, going, fun _ le _ => le⟩
  | cons input front ih =>
    obtain ⟨since', ledger', later, timely⟩ := ih going.next
    refine ⟨since', ledger', later, fun now _ all => ?_⟩
    exact timely now (all input mem_cons_self) fun i member => all i (mem_cons_of_mem _ member)

theorem Going.holds {front : List (Input P)} {token : String} {grant : RefreshGrant}
    (going : Going since ledger w (front ++ rest)) (held : ledger token = some grant)
    (left : ∀ e ∈ Machine.transcript exec w front, redeemed e.input.request e.answer ≠ some token ∧
      revoked e.input.request e.answer ≠ some token) :
    ∃ since' ledger', Going since' ledger' (Machine.run exec w front) rest ∧ ledger' token = some grant ∧
      ∀ now, since ≤ now → (∀ input ∈ front, input.now ≤ now) → since' ≤ now := by
  induction front generalizing since ledger w with
  | nil => exact ⟨since, ledger, going, held, fun _ le _ => le⟩
  | cons input front ih =>
    obtain ⟨unredeemed, unrevoked⟩ := left _ mem_cons_self
    have other := going.old token (by rw [held]; exact some_ne_none _) input mem_cons_self
    have kept : record ledger input.request (exec w input).1 token = some grant :=
      (record_kept unredeemed unrevoked other).trans held
    obtain ⟨since', ledger', later, held', timely⟩ := ih going.next kept fun e member =>
      left e (mem_cons_of_mem _ member)
    refine ⟨since', ledger', later, held', fun now _ all => ?_⟩
    exact timely now (all input mem_cons_self) fun i member => all i (mem_cons_of_mem _ member)

/-- Every provider that runs redeems the token, if its file system works. -/
def Redeemable (w : World P) (now : Time) (token : String) : Prop :=
  ∀ p s, w.stores p = some s → ∀ choices, 3 ≤ choices.length → (∀ choice ∈ choices, choice.ok = true) →
    ∃ grant, (exec w ⟨p, .call (.consumeRefresh token), now, choices⟩).1 = .refresh (some grant)

def Unredeemable (w : World P) (now : Time) (token : String) : Prop :=
  ∀ p choices grant, (exec w ⟨p, .call (.consumeRefresh token), now, choices⟩).1 ≠ .refresh (some grant)

theorem Sound.redeemable {now : Time} {token : String} (sound : Sound since ledger w) (le : since ≤ now)
    (stands : standing now ledger token ≠ none) : Redeemable w now token := by
  intro p s slot choices enough works
  rw [← (sound.later le).agrees] at stands
  have all : choices.all Choice.ok = true := all_eq_true.mpr works
  have ensured : (Request.serve now (w.stores p) (.call (.consumeRefresh token))).Ensures environment
      (undisturbed true w.files.refresh)
      (fun answer _ => ∃ grant, answer.1 = .refresh (some grant)) w.files := by
    rw [slot]
    refine (ensures_consumeRefresh rfl token sound.formed (sound.fits p s slot)).bind ?_
    rintro ⟨result, left⟩ after (⟨grant, rfl, -⟩ | ⟨⟨-, none⟩ | ⟨-, rough⟩, -⟩)
    · exact ensures_pure ⟨grant, rfl⟩
    · exact absurd none stands
    · cases rough
  have bounded : (Request.serve now (w.stores p) (.call (.consumeRefresh token))).AtMost (fun _ => true) 3 := by
    rw [slot]
    exact AtMost.bind (n := 3) (m := 0) (atMost_consumeRefresh token) fun _ => atMost_pure
  have permitted : (Request.serve now (w.stores p) (.call (.consumeRefresh token))).Permitted environment
      (undisturbed true w.files.refresh) choices w.files := all ▸ permitted_all choices w.files
  obtain ⟨answer, files, ⟨grant, found⟩, result⟩ :=
    exec_returns w ⟨p, .call (.consumeRefresh token), now, choices⟩ ensured permitted bounded enough
  exact ⟨grant, by rw [result]; exact found⟩

theorem Sound.standing_of_redeems {now : Time} {token : String} {p : P} {choices : List Choice}
    {grant : RefreshGrant} (sound : Sound since ledger w) (le : since ≤ now)
    (redeems : (exec w ⟨p, .call (.consumeRefresh token), now, choices⟩).1 = .refresh (some grant)) :
    standing now ledger token ≠ none := by
  have stepped : Stepped ledger w ⟨p, .call (.consumeRefresh token), now, choices⟩ :=
    step sound le trivial nofun
  exact stepped.redeems token (by rw [redeems]; rfl)

def Ends (e : Machine.Entry (World P) (Input P) Reply) (token : String) : Prop :=
  redeemed e.input.request e.answer = some token ∨ revoked e.input.request e.answer = some token

omit [DecidableEq P] in
theorem presented_of_ends {e : Machine.Entry (World P) (Input P) Reply} {token : String} (ends : Ends e token) :
    presented e.input.request = some token := by
  rcases ends with redeems | revokes
  · exact presented_of_redeemed redeems
  · exact presented_of_revoked revokes

structure RedeemedOnce (w : World P) (inputs : List (Input P)) : Prop where
  once : (Machine.transcript exec w inputs).Pairwise fun e later => ∀ token, Ends e token →
    redeemed later.input.request later.answer ≠ some token
  rotation : ∀ front input back, inputs = front ++ input :: back →
    ∀ oldToken newToken accessToken asked failure,
      input.request = .call (.rotateRefresh oldToken newToken accessToken asked) →
      (exec (Machine.run exec w front) input).1 = .failed failure →
        (Redeemable (Machine.run exec w front) input.now oldToken →
          Redeemable (exec (Machine.run exec w front) input).2 input.now oldToken) ∧
        ∀ now, input.now ≤ now → Unredeemable (exec (Machine.run exec w front) input).2 now newToken
  stays : ∀ front input middle back, inputs = front ++ input :: (middle ++ back) → ∀ token grant,
    issued input.request (exec (Machine.run exec w front) input).1 = some (token, grant) →
    (∀ e ∈ Machine.transcript exec (exec (Machine.run exec w front) input).2 middle, ¬ Ends e token) →
    ∀ now, (∀ i ∈ input :: middle, i.now ≤ now) → now ≤ grant.expiresAt →
      Redeemable (Machine.run exec w (front ++ input :: middle)) now token

def Underway (w : World P) (rest : List (Input P)) : Prop := ∃ since ledger, Going since ledger w rest

theorem Going.once (going : Going since ledger w inputs) :
    (Machine.transcript exec w inputs).Pairwise fun e later => ∀ token, Ends e token →
      redeemed later.input.request later.answer ≠ some token := by
  have start : Underway w inputs := ⟨since, ledger, going⟩
  have keeps : ∀ (w : World P) input rest, Underway w (input :: rest) → Underway (exec w input).2 rest := by
    rintro w input rest ⟨since, ledger, going⟩
    exact ⟨_, _, going.next⟩
  refine Machine.transcript_pairwise
    (fun e w rest => ∃ since ledger, Going since ledger w rest ∧ ∀ token, Ends e token →
      ledger token = none ∧ ∀ input ∈ rest, newToken input.request ≠ some token)
    keeps ?_ ?_ ?_ start
  · rintro w input rest ⟨since, ledger, going⟩
    refine ⟨_, _, going.next, fun token ends => ?_⟩
    have named : presented input.request = some token := presented_of_ends ends
    refine ⟨record_ended ends fun new => ?_, fun later member new => ?_⟩
    · exact (going.fresh.own input mem_cons_self token new).2 named
    · exact ((pairwise_cons.mp going.fresh.apart).1 later member token new).2 named
  · rintro e w input rest ⟨since, ledger, going, gone⟩
    refine ⟨_, _, going.next, fun token ends => ?_⟩
    obtain ⟨absent, other⟩ := gone token ends
    exact ⟨record_gone absent (other input mem_cons_self), fun later member =>
      other later (mem_cons_of_mem _ member)⟩
  · rintro e w input rest ⟨since, ledger, going, gone⟩ token ends redeems
    refine going.stepped.redeems token redeems ?_
    rw [standing, alive, (gone token ends).1, filter_none]

theorem Going.rotation (going : Going since ledger w (input :: rest))
    {oldToken newToken' accessToken : String} {asked : Time} {failure : Failure}
    (request : input.request = .call (.rotateRefresh oldToken newToken' accessToken asked))
    (failed : (exec w input).1 = .failed failure) :
    (Redeemable w input.now oldToken → Redeemable (exec w input).2 input.now oldToken) ∧
      ∀ now, input.now ≤ now → Unredeemable (exec w input).2 now newToken' := by
  have after := going.stepped.sound
  have same : record ledger input.request (exec w input).1 = ledger := by
    rw [request, failed]
    rfl
  rw [same] at after
  constructor
  · intro redeemable
    refine after.redeemable le_rfl ?_
    obtain ⟨s, slot⟩ : ∃ s, w.stores input.provider = some s := by
      cases slot : w.stores input.provider with
      | none =>
        rw [exec_down slot request] at failed
        cases failed
      | some s => exact ⟨s, rfl⟩
    obtain ⟨grant, redeems⟩ := redeemable input.provider s slot [{}, {}, {}] (by decide) (by decide)
    exact going.sound.standing_of_redeems going.disciplined.1 redeems
  · intro now le p choices grant redeems
    have stands := after.standing_of_redeems le redeems
    refine going.old newToken' (fun none => stands ?_) input mem_cons_self (by rw [request]; rfl)
    rw [standing, alive, none, filter_none]

theorem Going.stays {middle back : List (Input P)} (going : Going since ledger w (input :: (middle ++ back)))
    {token : String} {grant : RefreshGrant} (issues : issued input.request (exec w input).1 = some (token, grant))
    (left : ∀ e ∈ Machine.transcript exec (exec w input).2 middle, ¬ Ends e token) {now : Time}
    (times : ∀ i ∈ input :: middle, i.now ≤ now) (live : now ≤ grant.expiresAt) :
    Redeemable (Machine.run exec (exec w input).2 middle) now token := by
  obtain ⟨since', ledger', later, held, timely⟩ := going.next.holds (record_issued issues) fun e member =>
    ⟨fun redeems => left e member (.inl redeems), fun revokes => left e member (.inr revokes)⟩
  refine later.sound.redeemable (timely now (times input mem_cons_self) fun i member =>
    times i (mem_cons_of_mem _ member)) ?_
  have stands : standing now ledger' token = some grant := alive_eq_some.mpr ⟨held, live⟩
  rw [stands]
  exact some_ne_none _

omit [DecidableEq P] in
theorem sound_empty (since : Time) : Sound since (fun _ => none) ({} : World P) := ⟨nofun, nofun, rfl⟩

/-- Refresh tokens are redeemed at most once in every run in which revocations find their provider's
copy current and their write succeeds. -/
theorem redeemed_once (since : Time) (inputs : List (Input P)) (fresh : Fresh inputs)
    (careful : Disciplined Careful since ({} : World P) inputs) : RedeemedOnce ({} : World P) inputs := by
  have going : Going since (fun _ => none) ({} : World P) inputs :=
    ⟨sound_empty since, careful, fresh, fun _ none => absurd rfl none⟩
  refine ⟨going.once, ?_, ?_⟩
  · rintro front input back rfl oldToken newToken' accessToken asked failure request failed
    obtain ⟨since', ledger', later, -⟩ := going.run
    exact later.rotation request failed
  rintro front input middle back rfl token grant issues left now times live
  obtain ⟨since', ledger', later, -⟩ := going.run
  rw [Machine.run_append, Machine.run_cons]
  exact later.stays issues left times live

end

section

def fine : List Choice := replicate 7 {}

def sampleConfig : Config := ⟨"/state/oauth-access.json", "/state/oauth-refresh.json"⟩

def sampleGrant : RefreshGrant :=
  { clientID := "client", scope := "mcp", resource := "https://x.test/mcp", expiresAt := hour }

def sampleInputs : List (Input Bool) :=
  [⟨false, .start sampleConfig, 0, fine⟩,
    ⟨true, .start sampleConfig, 0, fine⟩,
    ⟨false, .call (.putRefresh "a" sampleGrant), 1, fine⟩,
    ⟨true, .call (.rotateRefresh "a" "b" "t" 2), 2, fine⟩,
    ⟨true, .call (.revokeRefresh "b"), 3, fine⟩,
    ⟨false, .call (.consumeRefresh "b"), 4, fine⟩]

theorem current_of_document {w : World Bool} {p : Bool} {now : Time}
    (last : (w.stores p).all (fun s => decide (w.files.refresh = some (refreshDocument s.refresh)) &&
      decide (s.refresh.read "" = none)) = true) :
    ∀ s, w.stores p = some s → standing now s.refresh.read = standing now (held w.files.refresh) := by
  intro s slot
  rw [slot, all_some, Bool.and_eq_true, decide_eq_true_iff, decide_eq_true_iff] at last
  rw [last.1, held_refreshDocument, ← last.2]
  exact congrArg (standing now) (update_eq_self "" s.refresh.read).symm

theorem sample_fresh : Fresh sampleInputs := by
  constructor
  · decide
  · decide

theorem redeemed_once_sample :
    RedeemedOnce ({} : World Bool) sampleInputs ∧
      (Machine.transcript exec ({} : World Bool) sampleInputs).map (fun e => e.answer) =
        [.done, .done, .done, .refresh (some sampleGrant), .done, .refresh none] := by
  refine ⟨redeemed_once 0 sampleInputs sample_fresh ?_, by decide +kernel⟩
  have shared : sampleConfig.refreshStorePath ≠ "" := by decide
  exact ⟨by decide, shared, by decide, shared, by decide, trivial, by decide, Int.le_refl 2, by decide,
    ⟨by decide, current_of_document (by decide +kernel)⟩, by decide, trivial, trivial⟩

/-- The console completes a login while another provider redeems a token. -/
def overlapping : List (Input Bool) :=
  [⟨false, .start sampleConfig, 0, fine⟩,
    ⟨true, .start sampleConfig, 0, fine⟩,
    ⟨true, .call (.putRefresh "a" sampleGrant), 1, fine⟩,
    ⟨false, .call (.putRefresh "console" sampleGrant), 2, fine⟩,
    ⟨true, .call (.consumeRefresh "a"), 3, fine⟩,
    ⟨false, .call (.revokeRefresh "console"), 4, fine⟩,
    ⟨true, .call (.consumeRefresh "a"), 5, fine⟩]

/-- Its revocation writes back the token that was redeemed, and it is redeemed again. -/
theorem redeemed_twice : ¬ RedeemedOnce ({} : World Bool) overlapping := by
  intro result
  have once := pairwise_iff_getElem.mp result.once 4 6 (by decide +kernel) (by decide +kernel) (by decide) "a"
  exact once (.inl (by decide +kernel)) (by decide +kernel)

end

end Aeontra.Oauth.Redemption
