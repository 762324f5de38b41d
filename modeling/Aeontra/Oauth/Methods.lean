import Aeontra.Oauth.Shared

/-!
What the methods of a store do under any rules that allow every request: what they read and
write, and which parts of the store and of the files they leave alone.
-/

namespace Aeontra.Oauth

open Library Process

def Fails (rules : Rules Call Files Choice) (call : Call) (f : Files) : Prop :=
  ∃ choice, rules.may call choice f ∧ choice.ok = false

/-- The access grants that a method starts from; `none` when the file cannot be loaded. -/
def loadedAccess (now : Time) (s : TokenStore) (f : Files) : Option (Dictionary String AccessGrant) :=
  if s.accessStorePath = "" then some s.access
  else
    match f.access with
    | none => some s.access
    | some stored => (decodeAccess now stored).toOption

def loadedRefresh (now : Time) (s : TokenStore) (f : Files) : Option (Dictionary String RefreshGrant) :=
  if s.refreshStorePath = "" then some s.refresh
  else
    match f.refresh with
    | none => some s.refresh
    | some document => (decodeRefresh now document).toOption

/-- Nothing but the access grants is changed, in the store and on disk. -/
def OnlyAccess (s : TokenStore) (f : Files) (s' : TokenStore) (after : Files) : Prop :=
  ∃ access file, s' = { s with access := access } ∧ after = { f with access := file }

def OnlyRefresh (s : TokenStore) (f : Files) (s' : TokenStore) (after : Files) : Prop :=
  ∃ refresh file, s' = { s with refresh := refresh } ∧ after = { f with refresh := file }

section

variable {rules : Rules Call Files Choice} {s : TokenStore} {f : Files} {now : Time}

variable (free : ∀ e, rules.allows e)

include free

section

variable (held : rules.holds f)

include held

theorem ensures_request (call : Call) :
    (perform call : Program call.Answer).Ensures environment rules
      (fun answer after => ∃ choice, rules.may call choice f ∧ answer = (react call choice f).1 ∧
        after = (react call choice f).2) f :=
  ensures_perform held fun choice permitted => ⟨free _, choice, permitted, rfl, rfl⟩

theorem ensures_withLock {α : Type} {path : String} {body : Program (Outcome α)} {post : Outcome α → Files → Prop}
    (refused : Fails rules .lock f → post (.error .system, s) f) (inside : body.Ensures environment rules post f) :
    (withAccessStoreFileLock path s body).Ensures environment rules post f := by
  unfold withAccessStoreFileLock
  split
  · exact inside
  refine (ensures_request free held .lock).bind ?_
  rintro locked _ ⟨choice, permitted, rfl, rfl⟩
  split
  · exact inside
  · next failed => exact ensures_pure (refused ⟨choice, permitted, eq_false_of_ne_true failed⟩)

theorem ensures_reloadAccess :
    (reloadAccess now s).Ensures environment rules (fun out after => after = f ∧
      ((∃ loaded, loadedAccess now s f = some loaded ∧ out = .ok { s with access := loaded }) ∨
        (∃ failure, out = .error failure) ∧ (loadedAccess now s f = none ∨ Fails rules .readAccess f))) f := by
  unfold reloadAccess loadedAccess
  split
  · exact ensures_pure ⟨rfl, .inl ⟨_, rfl, rfl⟩⟩
  refine (ensures_request free held .readAccess).bind ?_
  rintro read after ⟨choice, permitted, rfl, rfl⟩
  simp only [react]
  cases ok : choice.ok with
  | false => exact ensures_pure ⟨rfl, .inr ⟨⟨_, rfl⟩, .inr ⟨choice, permitted, ok⟩⟩⟩
  | true =>
    rw [if_pos rfl]
    cases after.access with
    | none => exact ensures_pure ⟨rfl, .inl ⟨_, rfl, rfl⟩⟩
    | some stored =>
      dsimp only
      cases decodeAccess now stored with
      | error failure => exact ensures_pure ⟨rfl, .inr ⟨⟨_, rfl⟩, .inl rfl⟩⟩
      | ok loaded => exact ensures_pure ⟨rfl, .inl ⟨_, rfl, rfl⟩⟩

theorem ensures_reloadRefresh :
    (reloadRefresh now s).Ensures environment rules (fun out after => after = f ∧
      ((∃ loaded, loadedRefresh now s f = some loaded ∧ out = .ok { s with refresh := loaded }) ∨
        (∃ failure, out = .error failure) ∧ (loadedRefresh now s f = none ∨ Fails rules .readRefresh f))) f := by
  unfold reloadRefresh loadedRefresh
  split
  · exact ensures_pure ⟨rfl, .inl ⟨_, rfl, rfl⟩⟩
  refine (ensures_request free held .readRefresh).bind ?_
  rintro read after ⟨choice, permitted, rfl, rfl⟩
  simp only [react]
  cases ok : choice.ok with
  | false => exact ensures_pure ⟨rfl, .inr ⟨⟨_, rfl⟩, .inr ⟨choice, permitted, ok⟩⟩⟩
  | true =>
    rw [if_pos rfl]
    cases after.refresh with
    | none => exact ensures_pure ⟨rfl, .inl ⟨_, rfl, rfl⟩⟩
    | some document =>
      dsimp only
      cases decodeRefresh now document with
      | error failure => exact ensures_pure ⟨rfl, .inr ⟨⟨_, rfl⟩, .inl rfl⟩⟩
      | ok loaded => exact ensures_pure ⟨rfl, .inl ⟨_, rfl, rfl⟩⟩

theorem ensures_persistAccessLocked :
    (persistAccessLocked now s).Ensures environment rules (fun out after => OnlyAccess s f out.2 after ∧
      (s.accessStorePath ≠ "" → out.2 = { s with access := pruneAccess now s.access }) ∧
      (out.1 = true ∧ (s.accessStorePath ≠ "" → ∃ choice document,
          rules.may (.writeAccess document) choice f ∧ document = accessDocument (pruneAccess now s.access) ∧
            after.access = some ⟨document, choice.size⟩) ∨
        out.1 = false ∧ ∃ document, Fails rules (.writeAccess document) f)) f := by
  unfold persistAccessLocked
  split
  · next path => exact ensures_pure ⟨⟨_, _, rfl, rfl⟩, absurd path, .inl ⟨rfl, absurd path⟩⟩
  refine (ensures_request free held _).bind ?_
  rintro written _ ⟨choice, permitted, rfl, rfl⟩
  refine ensures_pure ⟨?_, fun _ => rfl, ?_⟩
  · simp only [react]
    split
    · exact ⟨_, _, rfl, rfl⟩
    · exact ⟨_, _, rfl, rfl⟩
  · simp only [react]
    cases ok : choice.ok with
    | true => exact .inl ⟨rfl, fun _ => ⟨choice, _, permitted, rfl, rfl⟩⟩
    | false => exact .inr ⟨rfl, _, choice, permitted, ok⟩

theorem ensures_persistRefreshLocked :
    (persistRefreshLocked s).Ensures environment rules (fun out after =>
      (∃ file, after = { f with refresh := file }) ∧
      (out = true ∧ (s.refreshStorePath ≠ "" → after.refresh = some (refreshDocument s.refresh)) ∨
        out = false ∧ after = f ∧ ∃ document, Fails rules (.writeRefresh document) f)) f := by
  unfold persistRefreshLocked
  split
  · next path => exact ensures_pure ⟨⟨_, rfl⟩, .inl ⟨rfl, absurd path⟩⟩
  refine (ensures_request free held _).mono ?_
  rintro written _ ⟨choice, permitted, rfl, rfl⟩
  simp only [react]
  cases ok : choice.ok with
  | true => exact ⟨⟨_, rfl⟩, .inl ⟨rfl, fun _ => rfl⟩⟩
  | false => exact ⟨⟨_, rfl⟩, .inr ⟨rfl, rfl, _, choice, permitted, ok⟩⟩

end

section

variable (held : ∀ file, rules.holds { f with access := file })

include held

theorem onlyAccess_putAccess (token : String) (grant : AccessGrant) :
    (putAccess s token grant now).Ensures environment rules (fun out after => OnlyAccess s f out.2 after) f := by
  unfold putAccess
  split
  · exact ensures_pure ⟨_, _, rfl, rfl⟩
  refine ensures_withLock free (held _) (fun _ => ⟨_, _, rfl, rfl⟩) ?_
  refine (ensures_reloadAccess free (held _)).bind ?_
  rintro loaded _ ⟨rfl, ⟨access, -, rfl⟩ | ⟨⟨failure, rfl⟩, -⟩⟩
  · dsimp only
    split
    · exact ensures_pure ⟨_, _, rfl, rfl⟩
    refine (ensures_persistAccessLocked free (held _)).bind ?_
    rintro ⟨ok, s'⟩ after ⟨⟨access, file, rfl, rfl⟩, -⟩
    split
    · exact ensures_pure ⟨_, _, rfl, rfl⟩
    · exact ensures_pure ⟨_, _, rfl, rfl⟩
  · exact ensures_pure ⟨_, _, rfl, rfl⟩

theorem onlyAccess_getAccess (token : String) :
    (getAccess s token now).Ensures environment rules (fun out after => OnlyAccess s f out.2 after) f := by
  unfold getAccess
  split
  · exact ensures_pure ⟨_, _, rfl, rfl⟩
  refine ensures_withLock free (held _) (fun _ => ⟨_, _, rfl, rfl⟩) ?_
  refine ensures_via (fun found after => after = f ∧ ∃ access, found.2 = { s with access := access }) ?_ ?_
  · unfold findAccess
    split
    · exact ensures_pure ⟨rfl, _, rfl⟩
    split
    · exact ensures_pure ⟨rfl, _, rfl⟩
    next path =>
    have reload : reloadAccess now s = loadAccessLocked now s := if_neg path
    rw [← reload]
    refine (ensures_reloadAccess free (held _)).bind ?_
    rintro loaded _ ⟨rfl, ⟨access, -, rfl⟩ | ⟨⟨failure, rfl⟩, -⟩⟩
    · exact ensures_pure ⟨rfl, _, rfl⟩
    · exact ensures_pure ⟨rfl, _, rfl⟩
  rintro ⟨found, s'⟩ _ ⟨rfl, access, rfl⟩
  unfold dropExpired
  split
  · split
    · refine (ensures_persistAccessLocked free (held _)).bind ?_
      rintro ⟨ok, s'⟩ after ⟨⟨access, file, rfl, rfl⟩, -⟩
      exact ensures_pure ⟨_, _, rfl, rfl⟩
    · exact ensures_pure ⟨_, _, rfl, rfl⟩
  · exact ensures_pure ⟨_, _, rfl, rfl⟩
  · exact ensures_pure ⟨_, _, rfl, rfl⟩

theorem onlyAccess_revokeAccess (token : String) :
    (revokeAccess s token now).Ensures environment rules (fun out after => OnlyAccess s f out.2 after) f := by
  unfold revokeAccess
  split
  · exact ensures_pure ⟨_, _, rfl, rfl⟩
  refine ensures_withLock free (held _) (fun _ => ⟨_, _, rfl, rfl⟩) ?_
  refine (ensures_reloadAccess free (held _)).bind ?_
  rintro loaded _ ⟨rfl, ⟨access, -, rfl⟩ | ⟨⟨failure, rfl⟩, -⟩⟩
  · refine (ensures_persistAccessLocked free (held _)).bind ?_
    rintro ⟨ok, s'⟩ after ⟨⟨access, file, rfl, rfl⟩, -⟩
    split
    · exact ensures_pure ⟨_, _, rfl, rfl⟩
    · exact ensures_pure ⟨_, _, rfl, rfl⟩
  · exact ensures_pure ⟨_, _, rfl, rfl⟩

end

section

variable (held : rules.holds f)

include held

theorem onlyRefresh_putRefresh (token : String) (grant : RefreshGrant) :
    (putRefresh s token grant now).Ensures environment rules (fun out after => OnlyRefresh s f out.2 after) f := by
  unfold putRefresh
  refine ensures_withLock free held (fun _ => ⟨_, _, rfl, rfl⟩) ?_
  refine (ensures_reloadRefresh free held).bind ?_
  rintro loaded _ ⟨rfl, ⟨refresh, -, rfl⟩ | ⟨⟨failure, rfl⟩, -⟩⟩
  · refine (ensures_persistRefreshLocked free held).bind ?_
    rintro persisted after ⟨⟨file, rfl⟩, -⟩
    split
    · exact ensures_pure ⟨_, _, rfl, rfl⟩
    · exact ensures_pure ⟨_, _, rfl, rfl⟩
  · exact ensures_pure ⟨_, _, rfl, rfl⟩

theorem onlyRefresh_consumeRefresh (token : String) :
    (consumeRefresh s token now).Ensures environment rules (fun out after => OnlyRefresh s f out.2 after) f := by
  unfold consumeRefresh
  split
  · exact ensures_pure ⟨_, _, rfl, rfl⟩
  refine ensures_withLock free held (fun _ => ⟨_, _, rfl, rfl⟩) ?_
  refine (ensures_reloadRefresh free held).bind ?_
  rintro loaded _ ⟨rfl, ⟨refresh, -, rfl⟩ | ⟨⟨failure, rfl⟩, -⟩⟩
  · dsimp only
    split
    · exact ensures_pure ⟨_, _, rfl, rfl⟩
    refine (ensures_persistRefreshLocked free held).bind ?_
    rintro persisted after ⟨⟨file, rfl⟩, -⟩
    split
    · split
      · exact ensures_pure ⟨_, _, rfl, rfl⟩
      · exact ensures_pure ⟨_, _, rfl, rfl⟩
    · exact ensures_pure ⟨_, _, rfl, rfl⟩
  · exact ensures_pure ⟨_, _, rfl, rfl⟩

theorem onlyRefresh_revokeRefresh (token : String) :
    (revokeRefresh s token).Ensures environment rules (fun out after => OnlyRefresh s f out.2 after) f := by
  unfold revokeRefresh
  split
  · exact ensures_pure ⟨_, _, rfl, rfl⟩
  refine (ensures_persistRefreshLocked free held).bind ?_
  rintro persisted after ⟨⟨file, rfl⟩, -⟩
  split
  · exact ensures_pure ⟨_, _, rfl, rfl⟩
  · exact ensures_pure ⟨_, _, rfl, rfl⟩

end

end

end Aeontra.Oauth
