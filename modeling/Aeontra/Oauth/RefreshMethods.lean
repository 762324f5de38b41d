import Aeontra.Oauth.Methods

/-!
What each method of a store does to the refresh file.

Every method but `revokeRefresh` reads the file before it writes it, so the file is what
counts and the providers' own copies do not.
-/

namespace Aeontra.Oauth.Redemption

open Library Function RefreshStoreRecord
open Library.Process
open Library.Dictionary

abbrev Ledger := String → Option RefreshGrant

abbrev standing (now : Time) (ledger : Ledger) : Ledger := alive RefreshGrant.expiresAt now ledger

/-- What a refresh file holds; an empty token is never loaded. -/
def held : Option RefreshStoreFile → Ledger
  | none => fun _ => none
  | some document =>
    update (column token grant document.refresh) "" none

def WellFormed (file : Option RefreshStoreFile) : Prop :=
  ∀ document, file = some document →
    document.version = 1 ∧ (document.refresh.map token).Nodup

section

variable (d : Dictionary String RefreshGrant)

include d

theorem refreshDocument_perm :
    (refreshDocument d).refresh.Perm (d.entries.map fun e => refreshRecord e.1 e.2) :=
  List.perm_insertionSort _ _

theorem wellFormed_refreshDocument : WellFormed (some (refreshDocument d)) := by
  rintro document same
  cases same
  exact ⟨rfl, keys_of_entries (fun _ _ => rfl) (refreshDocument_perm d)⟩

theorem held_refreshDocument : held (some (refreshDocument d)) = update d.read "" none := by
  have written : column token grant (refreshDocument d).refresh = d.read :=
    column_entries (fun _ _ => rfl) (fun _ _ => rfl) (refreshDocument_perm d)
  rw [held, written]

omit d

theorem held_empty (file : Option RefreshStoreFile) : held file "" = none := by
  cases file with
  | none => rfl
  | some document => rw [held, update_self]

def loadable (now : Time) (token : String) (grant : RefreshGrant) : Bool :=
  decide (token ≠ "") && decide (now ≤ grant.expiresAt)

theorem loadRefreshRecord_eq (now : Time) (d : Dictionary String RefreshGrant) (r : RefreshStoreRecord) :
    loadRefreshRecord now d r = if loadable now r.token r.grant then d.set r.token r.grant else d := by
  have expired : (r.token = "" ∨ now > r.expiresAt) ↔ ¬ loadable now r.token r.grant = true := by
    simp only [loadable, bool_iff, not_and_or, not_not, not_le]
    exact Iff.rfl
  unfold loadRefreshRecord
  by_cases keeps : loadable now r.token r.grant = true
  · rw [if_neg (fun out => expired.mp out keeps), if_pos keeps]
  · rw [if_pos (expired.mpr keeps), if_neg keeps]

theorem read_decodeRefresh {document : RefreshStoreFile} (formed : WellFormed (some document)) (now : Time) :
    ∃ loaded, decodeRefresh now document = .ok loaded ∧ loaded.read = standing now (held (some document)) := by
  obtain ⟨version, distinct⟩ := formed document rfl
  have fewer : ((document.refresh.filter fun r => loadable now r.token r.grant).map
      RefreshStoreRecord.token).Nodup := distinct.sublist (List.filter_sublist.map _)
  have filtered : document.refresh.foldl (loadRefreshRecord now) ∅ =
      ofRows RefreshStoreRecord.token RefreshStoreRecord.grant
        (document.refresh.filter fun r => loadable now r.token r.grant) := by
    rw [ofRows, List.foldl_filter]
    congr 1
    funext d r
    exact loadRefreshRecord_eq now d r
  refine ⟨_, if_neg (not_not.mpr version), ?_⟩
  rw [filtered, read_ofRows fewer]
  funext token
  rw [column_filter distinct (loadable now)]
  by_cases empty : token = ""
  · subst empty
    rw [standing, alive, held_empty]
    exact Option.filter_eq_none_iff.mpr fun _ _ => by simp [loadable]
  have here : held (some document) token =
      column RefreshStoreRecord.token RefreshStoreRecord.grant document.refresh token :=
    update_of_ne empty ..
  rw [standing, alive, here]
  congr 1
  funext grant
  rw [loadable, decide_eq_true empty, Bool.true_and]

end

structure Written (file : Option RefreshStoreFile) (ledger : Ledger) : Prop where
  formed : WellFormed file
  holds : held file = update ledger "" none
  exists_ : file ≠ none

theorem written_refreshDocument (d : Dictionary String RefreshGrant) : Written (some (refreshDocument d)) d.read :=
  ⟨wellFormed_refreshDocument d, held_refreshDocument d, Option.some_ne_none _⟩

structure Fit (file : Option RefreshStoreFile) (s : TokenStore) : Prop where
  path : s.refreshStorePath ≠ ""
  missing : file = none → s.refresh.read = fun _ => none

/-- Until its last write a method leaves the refresh file alone.  A calm file system does all it
is asked. -/
def undisturbed (calm : Bool) (before : Option RefreshStoreFile) : Rules Call Files Choice where
  may := fun _ choice _ => calm = true → choice.ok = true
  holds := fun files => files.refresh = before
  allows := fun _ => True

abbrev Leads {α : Type} (calm : Bool) (before : Option RefreshStoreFile) (p : Program α) (post : α → Files → Prop)
    (f : Files) : Prop :=
  p.Ensures environment (undisturbed calm before) post f

structure Kept (s : TokenStore) (before : Option RefreshStoreFile) (s' : TokenStore) (after : Files) : Prop where
  file : after.refresh = before
  grants : s'.refresh = s.refresh
  path : s'.refreshStorePath = s.refreshStorePath

structure Reloaded (now : Time) (before : Option RefreshStoreFile) (s : TokenStore) : Prop where
  path : s.refreshStorePath ≠ ""
  grants : s.refresh.read = standing now (held before)

variable {calm : Bool} {before : Option RefreshStoreFile} {f : Files} {s : TokenStore} {now : Time}

theorem Fit.kept {s' : TokenStore} {after : Files} (fit : Fit before s) (kept : Kept s before s' after) :
    Fit after.refresh s' := by
  refine ⟨kept.path ▸ fit.path, fun missing => ?_⟩
  rw [kept.grants]
  exact fit.missing (kept.file ▸ missing)

theorem Reloaded.fit (reloaded : Reloaded now before s) : Fit before s := by
  refine ⟨reloaded.path, fun missing => ?_⟩
  rw [reloaded.grants, missing]
  rfl

theorem Written.fit {file : Option RefreshStoreFile} {ledger : Ledger} (written : Written file ledger)
    (path : s.refreshStorePath ≠ "") : Fit file s :=
  ⟨path, fun missing => absurd missing written.exists_⟩

theorem rough {call : Call} (fails : Fails (undisturbed calm before) call f) : calm = false := by
  obtain ⟨choice, may, failed⟩ := fails
  cases calm with
  | true => exact absurd (failed.symm.trans (may rfl)) Bool.false_ne_true
  | false => rfl

theorem free (e : Event Call Files) : (undisturbed calm before).allows e := trivial

section

variable (same : f.refresh = before)

include same

theorem Kept.of_onlyAccess {s' : TokenStore} {after : Files} (only : OnlyAccess s f s' after) :
    Kept s before s' after := by
  obtain ⟨access, file, rfl, rfl⟩ := only
  exact ⟨same, rfl, rfl⟩

theorem loadedRefresh_standing (formed : WellFormed before) (fit : Fit before s) (now : Time) :
    ∃ loaded, loadedRefresh now s f = some loaded ∧ loaded.read = standing now (held before) := by
  unfold loadedRefresh
  rw [if_neg fit.path, same]
  cases before with
  | none => exact ⟨_, rfl, fit.missing rfl⟩
  | some document =>
    obtain ⟨loaded, decoded, grants⟩ := read_decodeRefresh formed now
    dsimp only
    rw [decoded]
    exact ⟨loaded, rfl, grants⟩

theorem ensures_reloaded (formed : WellFormed before) (fit : Fit before s) :
    Leads calm before (reloadRefresh now s)
      (fun out after => after = f ∧ ((∃ s', out = .ok s' ∧ Reloaded now before s') ∨
        (∃ failure, out = .error failure) ∧ calm = false)) f := by
  obtain ⟨loaded, found, grants⟩ := loadedRefresh_standing same formed fit now
  refine (ensures_reloadRefresh free same).mono ?_
  rintro out after ⟨unchanged, ⟨other, found', rfl⟩ | ⟨failed, none | fails⟩⟩
  · obtain rfl := Option.some.inj (found.symm.trans found')
    exact ⟨unchanged, .inl ⟨_, rfl, fit.path, grants⟩⟩
  · cases found.symm.trans none
  · exact ⟨unchanged, .inr ⟨failed, rough fails⟩⟩

theorem ensures_written (path : s.refreshStorePath ≠ "") :
    Leads calm before (persistRefreshLocked s)
      (fun written after => written = true ∧ Written after.refresh s.refresh.read ∨
        written = false ∧ calm = false ∧ after.refresh = before) f := by
  refine (ensures_persistRefreshLocked free same).mono ?_
  rintro written after ⟨-, ⟨done, file⟩ | ⟨failed, unchanged, document, fails⟩⟩
  · refine .inl ⟨done, ?_⟩
    rw [file path]
    exact written_refreshDocument _
  · exact .inr ⟨failed, rough fails, unchanged ▸ same⟩

structure Unchanged (before : Option RefreshStoreFile) (s : TokenStore) (after : Files) : Prop where
  file : after.refresh = before
  fit : Fit before s

theorem ensures_putRefresh (token : String) (grant : RefreshGrant)
    (formed : WellFormed before) (fit : Fit before s) :
    Leads calm before (putRefresh s token grant now)
      (fun out after => out.1 = .ok () ∧ Fit after.refresh out.2 ∧
          Written after.refresh (update (standing now (held before)) token (some grant)) ∨
        (∃ failure, out.1 = .error failure) ∧ calm = false ∧ Unchanged before out.2 after) f := by
  unfold putRefresh
  refine ensures_withLock free same (fun fails => .inr ⟨⟨_, rfl⟩, rough fails, same, fit⟩) ?_
  refine (ensures_reloaded same formed fit).bind ?_
  rintro loaded after ⟨rfl, ⟨s', rfl, path, grants⟩ | ⟨⟨failure, rfl⟩, rough⟩⟩
  · refine (ensures_written same (by exact path)).bind ?_
    rintro persisted after (⟨rfl, written⟩ | ⟨rfl, rough, file⟩)
    · rw [read_set, grants] at written
      exact ensures_pure (.inl ⟨rfl, written.fit path, written⟩)
    refine ensures_pure (.inr ⟨⟨_, rfl⟩, rough, file, path, fun missing => ?_⟩)
    dsimp only
    rw [read_delete, read_set, grants, missing, update_idem]
    exact update_eq_self _ _
  · exact ensures_pure (.inr ⟨⟨_, rfl⟩, rough, same, fit⟩)

theorem ensures_consumeRefresh (token : String) (formed : WellFormed before) (fit : Fit before s) :
    Leads calm before (consumeRefresh s token now)
      (fun out after => (∃ grant, out.1 = .ok (some grant) ∧ standing now (held before) token = some grant ∧
          Fit after.refresh out.2 ∧
          Written after.refresh (update (standing now (held before)) token none)) ∨
        (out.1 = .ok none ∧ standing now (held before) token = none ∨
            (∃ failure, out.1 = .error failure) ∧ calm = false) ∧ Unchanged before out.2 after) f := by
  unfold consumeRefresh
  split
  · next empty =>
    subst empty
    refine ensures_pure (.inr ⟨.inl ⟨rfl, ?_⟩, same, fit⟩)
    rw [standing, alive, held_empty, Option.filter_none]
  refine ensures_withLock free same (fun fails => .inr ⟨.inr ⟨⟨_, rfl⟩, rough fails⟩, same, fit⟩) ?_
  refine (ensures_reloaded same formed fit).bind ?_
  rintro loaded after ⟨rfl, ⟨s', rfl, path, grants⟩ | ⟨⟨failure, rfl⟩, rough⟩⟩
  · dsimp only
    split
    · next absent =>
      rw [grants] at absent
      exact ensures_pure (.inr ⟨.inl ⟨rfl, absent⟩, same, Reloaded.fit ⟨path, grants⟩⟩)
    next grant found =>
    rw [grants] at found
    refine (ensures_written same (by exact path)).bind ?_
    rintro persisted after (⟨rfl, written⟩ | ⟨rfl, rough, file⟩)
    · rw [read_delete, grants] at written
      have live : ¬ now > grant.expiresAt := not_lt.mpr (alive_eq_some.mp found).2
      rw [if_pos rfl, if_neg live]
      exact ensures_pure (.inl ⟨grant, rfl, found, written.fit path, written⟩)
    · refine ensures_pure (.inr ⟨.inr ⟨⟨_, rfl⟩, rough⟩, file, path, fun missing => ?_⟩)
      rw [missing] at found
      cases found
  · exact ensures_pure (.inr ⟨.inr ⟨⟨_, rfl⟩, rough⟩, same, fit⟩)

theorem ensures_writeRotation {pruned after : TokenStore} {old : RefreshGrant}
    (fit : Fit before pruned) (path : after.refreshStorePath ≠ "") :
    Leads calm before (writeRotation pruned after old now)
      (fun out left => out.1 = .ok (some old) ∧ Fit left.refresh out.2 ∧ Written left.refresh after.refresh.read ∨
        (∃ failure, out.1 = .error failure) ∧ Unchanged before out.2 left) f := by
  unfold writeRotation
  refine (ensures_persistAccessLocked free same).bind ?_
  rintro ⟨ok, s'⟩ left ⟨⟨access, file, rfl, rfl⟩, -⟩
  dsimp only
  split
  · refine (ensures_written (by exact same) (by exact path)).bind ?_
    rintro written left (⟨rfl, written⟩ | ⟨rfl, -, unchanged⟩)
    · exact ensures_pure (.inl ⟨rfl, written.fit path, written⟩)
    refine (ensures_persistAccessLocked free unchanged).bind ?_
    rintro ⟨ok, s'⟩ last ⟨⟨access, file, rfl, rfl⟩, -⟩
    exact ensures_pure (.inr ⟨⟨_, rfl⟩, unchanged, path, fit.missing⟩)
  · exact ensures_pure (.inr ⟨⟨_, rfl⟩, same, path, fit.missing⟩)

def Rotated (now : Time) (before : Option RefreshStoreFile) (oldToken newToken : String) (asked : Time)
    (out : Outcome (Option RefreshGrant)) (after : Files) : Prop :=
  (∃ grant, out.1 = .ok (some grant) ∧ standing now (held before) oldToken = some grant ∧ Fit after.refresh out.2 ∧
    Written after.refresh
      (update (update (standing now (held before)) oldToken none) newToken (some (rotatedRefresh grant asked)))) ∨
  (out.1 = .ok none ∨ ∃ failure, out.1 = .error failure) ∧ Unchanged before out.2 after

theorem ensures_rotateLoaded {oldToken newToken accessToken : String} {asked : Time}
    (reloaded : Reloaded now before s) (le : asked ≤ now) :
    Leads calm before (rotateLoaded s oldToken newToken accessToken asked now)
      (Rotated now before oldToken newToken asked) f := by
  unfold rotateLoaded
  split
  · exact ensures_pure (.inr ⟨.inl rfl, same, reloaded.fit⟩)
  next old found =>
  rw [reloaded.grants] at found
  have live : ¬ asked > old.expiresAt := not_lt.mpr (le_trans le (alive_eq_some.mp found).2)
  rw [if_neg live]
  split
  · exact ensures_pure (.inr ⟨.inr ⟨_, rfl⟩, same, reloaded.fit⟩)
  have fit : Fit before { s with access := pruneAccess asked s.access } := ⟨reloaded.path, reloaded.fit.missing⟩
  dsimp only
  split
  · exact ensures_pure (.inr ⟨.inr ⟨_, rfl⟩, same, fit⟩)
  split
  · exact ensures_pure (.inr ⟨.inr ⟨_, rfl⟩, same, fit⟩)
  refine (ensures_writeRotation same fit (by exact reloaded.path)).mono ?_
  rintro out after (⟨result, fits, written⟩ | ⟨failed, unchanged⟩)
  · rw [read_set, read_delete, reloaded.grants] at written
    exact .inl ⟨old, result, found, fits, written⟩
  · exact .inr ⟨.inr failed, unchanged⟩

theorem ensures_rotateRefresh {oldToken newToken accessToken : String} {asked : Time}
    (formed : WellFormed before) (fit : Fit before s) (le : asked ≤ now) :
    Leads calm before (rotateRefresh s oldToken newToken accessToken asked now)
      (Rotated now before oldToken newToken asked) f := by
  unfold rotateRefresh
  split
  · exact ensures_pure (.inr ⟨.inl rfl, same, fit⟩)
  refine ensures_withLock free same (fun _ => .inr ⟨.inr ⟨_, rfl⟩, same, fit⟩) ?_
  refine ensures_withLock free same (fun _ => .inr ⟨.inr ⟨_, rfl⟩, same, fit⟩) ?_
  refine (ensures_reloadAccess free same).bind ?_
  rintro loaded after ⟨rfl, ⟨access, -, rfl⟩ | ⟨⟨failure, rfl⟩, -⟩⟩
  · have fit' : Fit before { s with access := access } := ⟨fit.path, fit.missing⟩
    refine (ensures_reloaded same formed fit').bind ?_
    rintro loaded after ⟨rfl, ⟨s', rfl, reloaded⟩ | ⟨⟨failure, rfl⟩, -⟩⟩
    · exact ensures_rotateLoaded same reloaded le
    · exact ensures_pure (.inr ⟨.inr ⟨_, rfl⟩, same, fit'⟩)
  · exact ensures_pure (.inr ⟨.inr ⟨_, rfl⟩, same, fit⟩)

theorem ensures_revokeRefresh (token : String) (fit : Fit before s) :
    Leads true before (revokeRefresh s token)
      (fun out after => token = "" ∧ Unchanged before out.2 after ∨
        Fit after.refresh out.2 ∧ Written after.refresh (update s.refresh.read token none)) f := by
  unfold revokeRefresh
  split
  · next empty => exact ensures_pure (.inl ⟨empty, same, fit⟩)
  refine (ensures_written same (by exact fit.path)).bind ?_
  rintro persisted after (⟨rfl, written⟩ | ⟨-, rough, -⟩)
  · rw [read_delete] at written
    exact ensures_pure (.inr ⟨written.fit fit.path, written⟩)
  · cases rough

theorem ensures_newProviderStore {config : Config} (formed : WellFormed before)
    (path : config.refreshStorePath ≠ "") :
    Leads calm before (newProviderStore config now)
      (fun out after => after.refresh = before ∧ (out.1 = .ok () → Fit before out.2)) f := by
  unfold newProviderStore
  have fresh : Fit before { newTokenStore with
      accessStorePath := config.accessStorePath, refreshStorePath := config.refreshStorePath } :=
    ⟨path, fun _ => rfl⟩
  refine ensures_via (fun out after => after = f ∧ Fit before out.2) ?_ ?_
  · refine ensures_withLock free same (fun _ => ⟨rfl, fresh⟩) ?_
    refine (ensures_reloadAccess free same).bind ?_
    rintro loaded after ⟨rfl, ⟨access, -, rfl⟩ | ⟨⟨failure, rfl⟩, -⟩⟩
    · exact ensures_pure ⟨rfl, fresh.path, fresh.missing⟩
    · exact ensures_pure ⟨rfl, fresh⟩
  rintro loaded after ⟨rfl, fit⟩
  split
  · exact ensures_pure ⟨same, nofun⟩
  refine (ensures_reloaded same formed fit).bind ?_
  rintro refreshed after ⟨rfl, ⟨s', rfl, reloaded⟩ | ⟨⟨failure, rfl⟩, -⟩⟩
  · exact ensures_pure ⟨same, fun _ => reloaded.fit⟩
  · exact ensures_pure ⟨same, nofun⟩

end

end Aeontra.Oauth.Redemption
