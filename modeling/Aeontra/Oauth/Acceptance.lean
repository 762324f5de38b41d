import Aeontra.Oauth.AccessMethods

/-!
Which access tokens the providers accept.

The replies keep a ledger of the digests that were issued and not revoked.  A look-up trusts the
provider's own copy where that has the digest; every other method reads the file first.
-/

namespace Aeontra.Oauth.Acceptance

open Library Process

def issued : Request → Reply → Option (String × AccessGrant)
  | .call (.putAccess token grant), .done => some (token, grant)
  | .call (.rotateRefresh _ _ accessToken asked), .refresh (some old) => some (accessToken, rotatedAccess old asked)
  | _, _ => none

def revoked : Request → Reply → Option String
  | .call (.revokeAccess token), .done => if token = "" then none else some token
  | _, _ => none

def record (ledger : Ledger) (request : Request) (reply : Reply) : Ledger :=
  deposit (withdraw ledger ((revoked request reply).map accessTokenDigest))
    ((issued request reply).map fun entry => (accessTokenDigest entry.1, entry.2))

theorem standing_record {now : Time} {first later : Ledger} (same : standing now first = standing now later)
    (request : Request) (reply : Reply) :
    standing now (record first request reply) = standing now (record later request reply) :=
  alive_deposit (alive_withdraw same _) _

section

variable {before : Option StoredAccess} {f : Files} {now : Time}

def answerTo (now : Time) (ledger : Ledger) (token : String) : Option AccessGrant :=
  if token = "" then none else standing now ledger (accessTokenDigest token)

structure Served (now : Time) (before : Option StoredAccess) (slot : Option TokenStore) (request : Request)
    (answer : Reply × Option TokenStore) (after : Files) : Prop where
  formed : WellFormed after.access
  exists_ : after.access = none → before = none
  fits : ∀ s, answer.2 = some s → Fit after.access s
  ledger : standing now (held after.access) = standing now (record (held before) request answer.1)
  nonempty : ∀ entry, issued request answer.1 = some entry → entry.1 ≠ ""
  finds : ∀ s token, slot = some s → request = .call (.getAccess token) →
    answer.1 = .access (answerTo now (held before) token)

theorem served_left {request : Request} {reply : Reply} {slot : Option TokenStore} {s : TokenStore} {after : Files}
    {ledger : Ledger} (left : Left now before ledger after s)
    (agrees : standing now ledger = standing now (record (held before) request reply))
    (nonempty : ∀ entry, issued request reply = some entry → entry.1 ≠ "")
    (other : ∀ token, request ≠ .call (.getAccess token)) : Served now before slot request (reply, some s) after := by
  refine ⟨left.formed, left.exists_, fun s' same => ?_, left.ledger.trans agrees, nonempty,
    fun _ token _ same => absurd same (other token)⟩
  cases same
  exact left.fit

/-- What a request may meet: providers share the file, grants keep to the bounds of their fields
and to the limit on their number, a rotation is not asked ahead of time, and a look-up that finds
the digest in the provider's own copy finds that entry current, or the whole copy when it has expired. -/
def Allowed (now : Time) (slot : Option TokenStore) (f : Files) : Request → Prop
  | .start config => config.accessStorePath ≠ ""
  | .call (.putAccess _ grant) => validGrant grant = true ∧ liveGrants now f.access < maxAccessGrants
  | .call (.getAccess token) => ∀ s grant, slot = some s → s.access.read (accessTokenDigest token) = some grant →
      if now ≤ grant.expiresAt then held f.access (accessTokenDigest token) = some grant
      else standing now s.access.read = standing now (held f.access)
  | .call (.rotateRefresh _ _ _ asked) => asked ≤ now ∧ liveGrants now f.access < maxAccessGrants ∧
      ∀ s grant, slot = some s → Known f s grant → validGrant (rotatedAccess grant asked) = true
  | .call _ => True

theorem ensures_start {config : Config} {slot : Option TokenStore} (formed : WellFormed f.access)
    (path : config.accessStorePath ≠ "") :
    Leads ((Request.start config).serve now slot)
      (Served now f.access slot (.start config)) f := by
  refine (ensures_newProviderStore formed path).bind ?_
  rintro out after ⟨file, fits⟩
  refine ensures_pure ?_
  unfold starting
  split
  · next started =>
    refine ⟨file ▸ formed, fun missing => file ▸ missing, fun s here => ?_, by rw [file]; rfl, nofun, nofun⟩
    cases here
    exact file ▸ fits started
  · exact ⟨file ▸ formed, fun missing => file ▸ missing, nofun, by rw [file]; rfl, nofun, nofun⟩

theorem ensures_method {s : TokenStore} (operation : Operation) (formed : WellFormed f.access) (fit : Fit f.access s)
    (allowed : Allowed now (some s) f (.call operation)) :
    Leads (operation.method now s)
      (Served now f.access (some s) (.call operation)) f := by
  cases operation with
  | putAccess token grant =>
    refine (ensures_putAccess formed fit allowed.1 allowed.2).bind ?_
    rintro ⟨result, s'⟩ after (⟨⟨failure, rfl⟩, left⟩ | ⟨rfl, nonempty, left⟩)
    · exact ensures_pure (served_left left rfl nofun nofun)
    · refine ensures_pure (served_left left rfl (fun entry same => ?_) nofun)
      cases same
      exact nonempty
  | getAccess token =>
    refine (ensures_getAccess formed fit fun grant => allowed s grant rfl).bind ?_
    rintro ⟨result, s'⟩ after ⟨rfl, left⟩
    refine ensures_pure ⟨left.formed, left.exists_, fun s'' same => ?_, left.ledger, nofun,
      fun _ token' _ same => ?_⟩
    · cases same
      exact left.fit
    · cases same
      rfl
  | revokeAccess token =>
    refine (ensures_revokeAccess formed fit).bind ?_
    rintro ⟨result, s'⟩ after left
    refine ensures_pure (served_left left ?_ nofun nofun)
    change _ = standing now (withdraw (held f.access) ((if token = "" then none else some token).map
      accessTokenDigest))
    split
    · rfl
    · rfl
  | putRefresh token grant =>
    refine (onlyRefresh_putRefresh free trivial token grant).bind ?_
    rintro ⟨result, s'⟩ after alone
    have left : Left now f.access (held f.access) after s' := left_onlyRefresh alone formed fit
    cases result with
    | error failure => exact ensures_pure (served_left left rfl nofun nofun)
    | ok done => exact ensures_pure (served_left left rfl nofun nofun)
  | consumeRefresh token =>
    refine (onlyRefresh_consumeRefresh free trivial token).bind ?_
    rintro ⟨result, s'⟩ after alone
    have left : Left now f.access (held f.access) after s' := left_onlyRefresh alone formed fit
    cases result with
    | error failure => exact ensures_pure (served_left left rfl nofun nofun)
    | ok found => exact ensures_pure (served_left left rfl nofun nofun)
  | rotateRefresh oldToken newToken accessToken asked =>
    refine (ensures_rotateRefresh formed fit allowed.1 allowed.2.1 fun grant => allowed.2.2 s grant rfl).bind ?_
    rintro ⟨result, s'⟩ after (⟨grant, rfl, nonempty, left⟩ | ⟨rfl | ⟨failure, rfl⟩, left⟩)
    · refine ensures_pure (served_left left rfl (fun entry same => ?_) nofun)
      cases same
      exact nonempty
    · exact ensures_pure (served_left left rfl nofun nofun)
    · exact ensures_pure (served_left left rfl nofun nofun)
  | revokeRefresh token =>
    refine (onlyRefresh_revokeRefresh free trivial token).bind ?_
    rintro ⟨result, s'⟩ after alone
    exact ensures_pure (served_left (left_onlyRefresh alone formed fit) rfl nofun nofun)

end

section

variable {P : Type} [DecidableEq P] {since : Time} {ledger : Ledger} {w : World P} {input : Input P}
  {rest : List (Input P)}

/-- The file can be loaded and holds what the ledger of the replies says. -/
structure Sound (since : Time) (ledger : Ledger) (w : World P) : Prop where
  formed : WellFormed w.files.access
  fits : ∀ p s, w.stores p = some s → Fit w.files.access s
  agrees : standing since (held w.files.access) = standing since ledger

/-- The condition on a run, input by input: the file system does all it is asked, the encoded store
stays within its size, and the request is allowed. -/
structure Careful (w : World P) (input : Input P) : Prop where
  enough : 7 ≤ input.choices.length
  works : ∀ choice ∈ input.choices, choice.ok = true ∧ choice.size ≤ maxAccessStoreSize
  allowed : Allowed input.now (w.stores input.provider) w.files input.request

omit [DecidableEq P] in
theorem Sound.later (sound : Sound since ledger w) {now : Time} (le : since ≤ now) : Sound now ledger w :=
  ⟨sound.formed, sound.fits, alive_mono le sound.agrees⟩

structure Stepped (ledger : Ledger) (w : World P) (input : Input P) : Prop where
  sound : Sound input.now (record ledger input.request (exec w input).1) (exec w input).2
  nonempty : ∀ entry, issued input.request (exec w input).1 = some entry → entry.1 ≠ ""
  finds : ∀ s token, w.stores input.provider = some s → input.request = .call (.getAccess token) →
    (exec w input).1 = .access (answerTo input.now ledger token)

theorem step (sound : Sound since ledger w) (le : since ≤ input.now) (careful : Careful w input) :
    Stepped ledger w input := by
  have now := sound.later le
  have ensured : Leads (input.program w)
      (Served input.now w.files.access (w.stores input.provider) input.request) w.files := by
    have allowed := careful.allowed
    unfold Input.program
    revert allowed
    cases input.request with
    | start config => exact fun allowed => ensures_start now.formed allowed
    | call operation =>
      cases slot : w.stores input.provider with
      | none =>
        refine fun _ => ensures_pure ⟨now.formed, id, nofun, ?_, fun entry none => ?_, nofun⟩
        · cases operation <;> rfl
        · cases operation <;> cases none
      | some s => exact fun allowed => ensures_method operation now.formed (now.fits _ s slot) allowed
  have free : ∀ (call : Call) (choice : Choice) (f : Files),
      choice.ok = true ∧ choice.size ≤ maxAccessStoreSize → calm.may call choice f := fun _ _ _ may => may
  obtain ⟨answer, files, served, result⟩ := exec_returns w input ensured
    (permitted_of_choices free _ careful.works _) (atMost_serve _ _) careful.enough
  constructor
  · rw [result]
    refine ⟨served.formed, fun p s here => ?_, served.ledger.trans (standing_record now.agrees _ _)⟩
    dsimp only at here
    by_cases same : p = input.provider
    · subst same
      rw [Function.update_self] at here
      exact served.fits s here
    · rw [Function.update_of_ne same] at here
      have old := now.fits p s here
      exact ⟨old.path, fun missing => old.missing (served.exists_ missing)⟩
  · intro entry issues
    rw [result] at issues
    exact served.nonempty entry issues
  · intro s token slot request
    rw [result, served.finds s token slot request, answerTo, answerTo, now.agrees]

structure Going (since : Time) (ledger : Ledger) (w : World P) (rest : List (Input P)) : Prop where
  sound : Sound since ledger w
  disciplined : Disciplined Careful since w rest

theorem Going.stepped (going : Going since ledger w (input :: rest)) : Stepped ledger w input :=
  step going.sound going.disciplined.1 going.disciplined.2.1

theorem Going.next (going : Going since ledger w (input :: rest)) :
    Going input.now (record ledger input.request (exec w input).1) (exec w input).2 rest :=
  ⟨going.stepped.sound, going.disciplined.2.2⟩

theorem Going.run {front : List (Input P)} (kept : Option AccessGrant → Prop) (digest : String)
    (going : Going since ledger w (front ++ rest)) (start : kept (ledger digest))
    (keeps : ∀ e ∈ Machine.transcript exec w front, ∀ ledger : Ledger, kept (ledger digest) →
      kept (record ledger e.input.request e.answer digest)) :
    ∃ since' ledger', Going since' ledger' (Machine.run exec w front) rest ∧ kept (ledger' digest) := by
  induction front generalizing since ledger w with
  | nil => exact ⟨since, ledger, going, start⟩
  | cons input front ih =>
    exact ih going.next (keeps _ List.mem_cons_self _ start) fun e member =>
      keeps e (List.mem_cons_of_mem _ member)

def Issues (e : Machine.Entry (World P) (Input P) Reply) (digest : String) : Prop :=
  ∃ entry, issued e.input.request e.answer = some entry ∧ accessTokenDigest entry.1 = digest

def Revokes (e : Machine.Entry (World P) (Input P) Reply) (digest : String) : Prop :=
  (revoked e.input.request e.answer).map accessTokenDigest = some digest

structure AccessKept (w : World P) (inputs : List (Input P)) : Prop where
  accepted : ∀ front input middle get back, inputs = front ++ input :: (middle ++ get :: back) → ∀ token grant s,
    issued input.request (exec (Machine.run exec w front) input).1 = some (token, grant) →
    (∀ e ∈ Machine.transcript exec (exec (Machine.run exec w front) input).2 middle,
      ¬ Issues e (accessTokenDigest token) ∧ ¬ Revokes e (accessTokenDigest token)) →
    get.request = .call (.getAccess token) → get.now ≤ grant.expiresAt →
    (Machine.run exec w (front ++ input :: middle)).stores get.provider = some s →
      (exec (Machine.run exec w (front ++ input :: middle)) get).1 = .access (some grant)
  rejected : ∀ front input middle get back, inputs = front ++ input :: (middle ++ get :: back) → ∀ token grant,
    revoked input.request (exec (Machine.run exec w front) input).1 = some token →
    (∀ e ∈ Machine.transcript exec (exec (Machine.run exec w front) input).2 middle,
      ¬ Issues e (accessTokenDigest token)) →
    get.request = .call (.getAccess token) →
      (exec (Machine.run exec w (front ++ input :: middle)) get).1 ≠ .access (some grant)

section

variable {e : Machine.Entry (World P) (Input P) Reply} {digest : String}

omit [DecidableEq P] in
theorem deposit_of_not_issues (other : ¬ Issues e digest) (ledger : Ledger) :
    deposit ledger ((issued e.input.request e.answer).map fun entry => (accessTokenDigest entry.1, entry.2)) digest =
      ledger digest := by
  refine deposit_apart (fun entry here same => ?_) ledger
  obtain ⟨original, issues, rfl⟩ := Option.map_eq_some_iff.mp here
  exact other ⟨original, issues, same⟩

omit [DecidableEq P] in
theorem record_apart (other : ¬ Issues e digest ∧ ¬ Revokes e digest) (ledger : Ledger) :
    record ledger e.input.request e.answer digest = ledger digest := by
  rw [record, deposit_of_not_issues other.1]
  exact withdraw_apart other.2 ledger

omit [DecidableEq P] in
theorem record_gone (other : ¬ Issues e digest) {ledger : Ledger} (gone : ledger digest = none) :
    record ledger e.input.request e.answer digest = none := by
  rw [record, deposit_of_not_issues other]
  exact withdraw_none gone

end

theorem record_issued {request : Request} {reply : Reply} {token : String} {grant : AccessGrant}
    (issues : issued request reply = some (token, grant)) (ledger : Ledger) :
    record ledger request reply (accessTokenDigest token) = some grant := by
  rw [record, issues]
  exact deposit_self _ grant

theorem record_revoked {request : Request} {reply : Reply} {token : String}
    (revokes : revoked request reply = some token) (ledger : Ledger) :
    record ledger request reply (accessTokenDigest token) = none := by
  have nothing : issued request reply = none := by
    unfold revoked at revokes
    split at revokes
    · rfl
    · cases revokes
  rw [record, revokes, nothing]
  exact withdraw_self ledger

omit [DecidableEq P] in
theorem sound_empty (since : Time) : Sound since (fun _ => none) ({} : World P) := ⟨nofun, nofun, rfl⟩

/-- Every provider accepts what was issued, and none what was revoked, in every run in which look-ups
that trust their provider's copy find it current. -/
theorem access_kept (since : Time) (inputs : List (Input P))
    (careful : Disciplined Careful since ({} : World P) inputs) : AccessKept ({} : World P) inputs := by
  have going : Going since (fun _ => none) ({} : World P) inputs := ⟨sound_empty since, careful⟩
  constructor
  · rintro front input middle get back rfl token grant s issues left request live slot
    obtain ⟨since', ledger', here, -⟩ := going.run (fun _ => True) "" trivial fun _ _ _ _ => trivial
    have nonempty := here.stepped.nonempty _ issues
    obtain ⟨since'', ledger'', later, holds⟩ := here.next.run (fun entry => entry = some grant) _
      (record_issued issues ledger') fun e member ledger holds => (record_apart (left e member) ledger).trans holds
    rw [Machine.run_append, Machine.run_cons] at slot ⊢
    rw [later.stepped.finds s token slot request, answerTo, if_neg nonempty]
    exact congrArg Reply.access (alive_eq_some.mpr ⟨holds, live⟩)
  · rintro front input middle get back rfl token grant revokes left request
    obtain ⟨since', ledger', here, -⟩ := going.run (fun _ => True) "" trivial fun _ _ _ _ => trivial
    obtain ⟨since'', ledger'', later, gone⟩ := here.next.run (fun entry => entry = none) _
      (record_revoked revokes ledger') fun e member ledger gone => record_gone (left e member) gone
    rw [Machine.run_append, Machine.run_cons]
    intro accepted
    cases slot : (Machine.run exec (exec (Machine.run exec {} front) input).2 middle).stores get.provider with
    | none =>
      rw [exec_down slot request] at accepted
      cases accepted
    | some s =>
      rw [later.stepped.finds s token slot request, answerTo, standing, alive, gone, Option.filter_none,
        ite_self] at accepted
      cases accepted

end

section

def fine : List Choice := List.replicate 7 { size := 512 }

def sampleConfig : Config := ⟨"/state/oauth-access.json", "/state/oauth-refresh.json"⟩

def sampleGrant : AccessGrant :=
  { clientID := "client", scope := "mcp", resource := "https://x.test/mcp", expiresAt := hour }

/-- A token is issued, accepted by both providers, revoked, and then refused. -/
def sampleInputs : List (Input Bool) :=
  [⟨false, .start sampleConfig, 0, fine⟩,
    ⟨true, .start sampleConfig, 0, fine⟩,
    ⟨false, .call (.putAccess "t" sampleGrant), 1, fine⟩,
    ⟨false, .call (.getAccess "t"), 2, fine⟩,
    ⟨true, .call (.getAccess "t"), 3, fine⟩,
    ⟨true, .call (.revokeAccess "t"), 4, fine⟩,
    ⟨true, .call (.getAccess "t"), 5, fine⟩]

theorem allowed_of_check {w : World Bool} {p : Bool} {now : Time} {token : String}
    (check : (w.stores p).all (fun s => decide (s.access.read (accessTokenDigest token) = none) ||
      decide (w.files.access = some ⟨accessDocument s.access, 512⟩)) = true) :
    Allowed now (w.stores p) w.files (.call (.getAccess token)) := by
  intro s grant slot present
  rw [slot, Option.all_some, Bool.or_eq_true, decide_eq_true_iff, decide_eq_true_iff] at check
  rcases check with absent | last
  · cases absent.symm.trans present
  have same : held w.files.access = s.access.read := by
    rw [last]
    exact Dictionary.column_entries (fun _ _ => rfl) (fun _ _ => rfl) (accessDocument_perm s.access)
  rw [same]
  split
  · exact present
  · rfl

theorem fine_works : ∀ choice ∈ fine, choice.ok = true ∧ choice.size ≤ maxAccessStoreSize := by decide

theorem access_kept_sample :
    AccessKept ({} : World Bool) sampleInputs ∧
      (Machine.transcript exec ({} : World Bool) sampleInputs).map (fun e => e.answer) =
        [.done, .done, .done, .access (some sampleGrant), .access (some sampleGrant), .done, .access none] := by
  have shared : sampleConfig.accessStorePath ≠ "" := by decide
  refine ⟨access_kept 0 sampleInputs ?_, by decide +kernel⟩
  refine ⟨by decide, ⟨by decide, fine_works, shared⟩, by decide, ⟨by decide, fine_works, shared⟩, by decide,
    ⟨by decide, fine_works, by decide, by decide +kernel⟩, by decide, ⟨by decide, fine_works, ?_⟩, by decide,
    ⟨by decide, fine_works, ?_⟩, by decide, ⟨by decide, fine_works, trivial⟩, by decide,
    ⟨by decide, fine_works, ?_⟩, trivial⟩
  · exact allowed_of_check (by decide +kernel)
  · exact allowed_of_check (by decide +kernel)
  · exact allowed_of_check (by decide +kernel)

/-- A token is revoked on one provider after the other has looked it up. -/
def overlapping : List (Input Bool) :=
  [⟨false, .start sampleConfig, 0, fine⟩,
    ⟨true, .start sampleConfig, 0, fine⟩,
    ⟨false, .call (.putAccess "t" sampleGrant), 1, fine⟩,
    ⟨true, .call (.getAccess "t"), 2, fine⟩,
    ⟨false, .call (.revokeAccess "t"), 3, fine⟩,
    ⟨true, .call (.getAccess "t"), 4, fine⟩]

/-- The other provider still accepts it. -/
theorem accepted_after_revocation : ¬ AccessKept ({} : World Bool) overlapping := by
  intro kept
  refine kept.rejected (overlapping.take 4) ⟨false, .call (.revokeAccess "t"), 3, fine⟩ []
    ⟨true, .call (.getAccess "t"), 4, fine⟩ [] rfl "t" sampleGrant ?_ (fun e member => by cases member) rfl ?_
  · decide +kernel
  · decide +kernel

end

end Aeontra.Oauth.Acceptance
