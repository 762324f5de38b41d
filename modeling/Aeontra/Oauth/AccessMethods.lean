import Aeontra.Oauth.Methods

/-!
What each method of a store does to the access file, when the file system does all it is
asked and the written documents stay within their size.
-/

namespace Aeontra.Oauth.Acceptance

open Library List Function
open Library.Process
open Library.Dictionary

abbrev Ledger := String → Option AccessGrant

abbrev standing (now : Time) (ledger : Ledger) : Ledger := alive AccessGrant.expiresAt now ledger

def held : Option StoredAccess → Ledger
  | none => fun _ => none
  | some stored => column AccessStoreRecord.digest AccessStoreRecord.grant stored.document.access

structure Loadable (stored : StoredAccess) : Prop where
  small : stored.size ≤ maxAccessStoreSize
  version : stored.document.version = 1
  few : stored.document.access.length ≤ maxAccessGrants
  distinct : (stored.document.access.map AccessStoreRecord.digest).Nodup
  valid : ∀ record ∈ stored.document.access, validRecord record = true

def WellFormed (file : Option StoredAccess) : Prop := ∀ stored, file = some stored → Loadable stored

def isLive (now : Time) (record : AccessStoreRecord) : Bool := decide (now ≤ record.grant.expiresAt)

def liveGrants (now : Time) : Option StoredAccess → Nat
  | none => 0
  | some stored => (stored.document.access.filter (isLive now)).length

def validGrant (grant : AccessGrant) : Bool :=
  grant.clientID != "" && byteLength grant.clientID ≤ maxAccessClientID && byteLength grant.scope ≤ maxAccessScope &&
    grant.resource != "" && byteLength grant.resource ≤ maxAccessResource && grant.expiresAt != zeroTime

section

variable {c : Char}

theorem isHexDigit_of_isLowerHex (hex : isLowerHex c = true) : isHexDigit c = true := by
  rw [isHexDigit, hex, Bool.true_or]

theorem utf8Size_of_isLowerHex (hex : isLowerHex c = true) : c.utf8Size = 1 := by
  have small : c.val ≤ 0x7F := by
    simp only [isLowerHex, bool_iff] at hex
    rcases hex with ⟨-, le⟩ | ⟨-, le⟩
    · have top : c.val ≤ 'f'.val := le
      exact UInt32.le_trans top (by decide)
    · have top : c.val ≤ '9'.val := le
      exact UInt32.le_trans top (by decide)
  exact if_pos small

theorem validAccessDigest_accessTokenDigest (token : String) :
    validAccessDigest (accessTokenDigest token) = true := by
  have digits : ∀ c ∈ hexDigits 64 (Sha256.sum (bytes token)), isLowerHex c = true := fun c member =>
    isLowerHex_of_mem_hexDigits member
  have sizes : (hexDigits 64 (Sha256.sum (bytes token))).map Char.utf8Size = List.replicate 64 1 := by
    rw [eq_replicate_iff, length_map, length_hexDigits]
    refine ⟨rfl, fun n member => ?_⟩
    obtain ⟨c, inside, rfl⟩ := List.mem_map.mp member
    exact utf8Size_of_isLowerHex (digits c inside)
  rw [validAccessDigest, Bool.and_eq_true, beq_iff_eq, accessTokenDigest, sha256Hex, byteLength_ofList, sizes,
    chars_eq_toList, String.toList_ofList, all_eq_true]
  exact ⟨rfl, fun c member => isHexDigit_of_isLowerHex (digits c member)⟩

theorem validRecord_accessRecord (digest : String) (grant : AccessGrant) :
    validRecord (accessRecord digest grant) = (validAccessDigest digest && validGrant grant) := by
  simp only [validRecord, accessRecord, validGrant, Bool.and_assoc]
  rfl

theorem accessDocument_perm (d : Dictionary String AccessGrant) :
    (accessDocument d).access.Perm (d.entries.map fun e => accessRecord e.1 e.2) :=
  perm_insertionSort _ _

theorem foldlM_loadAccessRecord {now : Time} (rows : List AccessStoreRecord) (d : Dictionary String AccessGrant)
    (distinct : (rows.map AccessStoreRecord.digest).Nodup) (valid : ∀ record ∈ rows, validRecord record = true)
    (new : ∀ record ∈ rows, d.read record.digest = none) :
    rows.foldlM (loadAccessRecord now) d =
      .ok ((rows.filter (isLive now)).foldl
        (fun d record => d.set record.digest record.grant) d) := by
  induction rows generalizing d with
  | nil => rfl
  | cons record rows ih =>
    rw [map_cons, nodup_cons] at distinct
    have validRest := fun r member => valid r (mem_cons_of_mem record member)
    rw [foldlM_cons]
    by_cases live : now ≤ record.expiresAt
    · have loaded : loadAccessRecord now d record = .ok (d.set record.digest record.grant) := by
        unfold loadAccessRecord
        rw [if_neg (not_lt.mpr live), if_neg (by rw [valid record mem_cons_self]; decide),
          if_neg (not_not.mpr (new record mem_cons_self))]
      have passes : isLive now record = true := decide_eq_true live
      rw [loaded, ok_bind, filter_cons_of_pos passes, foldl_cons]
      refine ih _ distinct.2 validRest fun r member => ?_
      have other : r.digest ≠ record.digest := fun same =>
        distinct.1 (same ▸ mem_map_of_mem member)
      rw [read_set, update_of_ne other]
      exact new r (mem_cons_of_mem _ member)
    · have skipped : loadAccessRecord now d record = .ok d := if_pos (not_le.mp live)
      have fails : ¬ isLive now record = true := fun passes => live (of_decide_eq_true passes)
      rw [skipped, ok_bind, filter_cons_of_neg fails]
      exact ih d distinct.2 validRest fun r member => new r (mem_cons_of_mem _ member)

theorem read_decodeAccess {stored : StoredAccess} (loadable : Loadable stored) (now : Time) :
    ∃ loaded, decodeAccess now stored = .ok loaded ∧ loaded.read = standing now (held (some stored)) ∧
      loaded.size = liveGrants now (some stored) := by
  have distinct := loadable.distinct
  have fewer : ((stored.document.access.filter (isLive now)).map
      AccessStoreRecord.digest).Nodup := distinct.sublist (filter_sublist.map _)
  refine ⟨ofRows AccessStoreRecord.digest AccessStoreRecord.grant
    (stored.document.access.filter (isLive now)), ?_, ?_, size_ofRows fewer⟩
  · unfold decodeAccess
    rw [if_neg (not_lt.mpr loadable.small), if_neg (not_not.mpr loadable.version), if_neg (not_lt.mpr loadable.few),
      foldlM_loadAccessRecord _ _ distinct loadable.valid fun _ _ => rfl]
    rfl
  · rw [read_ofRows fewer]
    funext digest
    exact column_filter distinct (fun _ grant => decide (now ≤ AccessGrant.expiresAt grant)) digest

end

def Presentable (ledger : Ledger) : Prop :=
  ∀ digest grant, ledger digest = some grant → validAccessDigest digest = true ∧ validGrant grant = true

structure Written (file : Option StoredAccess) (ledger : Ledger) : Prop where
  formed : WellFormed file
  holds : held file = ledger
  exists_ : file ≠ none

section

theorem presentable_held {file : Option StoredAccess} (formed : WellFormed file) : Presentable (held file) := by
  intro digest grant here
  cases file with
  | none => cases here
  | some stored =>
    have loadable := formed stored rfl
    obtain ⟨record, member, rfl, rfl⟩ := (column_eq_some loadable.distinct).mp here
    have valid := loadable.valid record member
    have same : accessRecord record.digest record.grant = record := rfl
    rw [← same, validRecord_accessRecord, Bool.and_eq_true] at valid
    exact valid

variable {ledger : Ledger}

theorem Presentable.standing (presentable : Presentable ledger) (now : Time) :
    Presentable (standing now ledger) := fun digest grant here =>
  presentable digest grant (alive_eq_some.mp here).1

theorem Presentable.deposit (presentable : Presentable ledger) {grant : AccessGrant}
    (valid : validGrant grant = true) (token : String) :
    Presentable (update ledger (accessTokenDigest token) (some grant)) := by
  intro digest other here
  by_cases same : digest = accessTokenDigest token
  · subst same
    rw [update_self, Option.some.injEq] at here
    subst here
    exact ⟨validAccessDigest_accessTokenDigest token, valid⟩
  · rw [update_of_ne same] at here
    exact presentable digest other here

theorem Presentable.withdraw (presentable : Presentable ledger) (digest : String) :
    Presentable (update ledger digest none) := by
  intro other grant here
  by_cases same : other = digest
  · subst same
    rw [update_self] at here
    cases here
  · rw [update_of_ne same] at here
    exact presentable other grant here

theorem written_accessDocument {d : Dictionary String AccessGrant} {size : Nat} (small : size ≤ maxAccessStoreSize)
    (few : d.size ≤ maxAccessGrants) (presentable : Presentable d.read) :
    Written (some ⟨accessDocument d, size⟩) d.read := by
  refine ⟨?_, ?_, Option.some_ne_none _⟩
  · rintro stored same
    cases same
    refine ⟨small, rfl, ?_, keys_of_entries (fun _ _ => rfl) (accessDocument_perm d), fun record member => ?_⟩
    · rw [(accessDocument_perm d).length_eq, length_map]
      exact few
    · obtain ⟨e, inside, rfl⟩ := mem_map.mp ((accessDocument_perm d).mem_iff.mp member)
      rw [validRecord_accessRecord, Bool.and_eq_true]
      exact presentable e.1 e.2 (read_eq_some.mpr inside)
  · exact column_entries (fun _ _ => rfl) (fun _ _ => rfl) (accessDocument_perm d)

end

structure Fit (file : Option StoredAccess) (s : TokenStore) : Prop where
  path : s.accessStorePath ≠ ""
  missing : file = none → s.access.read = fun _ => none

def calm : Rules Call Files Choice where
  may := fun _ choice _ => choice.ok = true ∧ choice.size ≤ maxAccessStoreSize
  holds := fun _ => True
  allows := fun _ => True

abbrev Leads {α : Type} (p : Program α) (post : α → Files → Prop) (f : Files) : Prop :=
  p.Ensures environment calm post f

section

variable {f : Files} {s : TokenStore} {α : Type} {now : Time}

theorem free (e : Event Call Files) : calm.allows e := trivial

theorem succeeds {call : Call} : ¬ Fails calm call f := by
  rintro ⟨choice, may, failed⟩
  exact absurd (failed.symm.trans may.1) Bool.false_ne_true

theorem ensures_locked {path : String} {body : Program (Outcome α)} {post : Outcome α → Files → Prop}
    (inside : Leads body post f) : Leads (withAccessStoreFileLock path s body) post f :=
  ensures_withLock free trivial (fun fails => absurd fails succeeds) inside

structure Reloaded (now : Time) (file : Option StoredAccess) (s s' : TokenStore) : Prop where
  path : s'.accessStorePath ≠ ""
  grants : s'.access.read = standing now (held file)
  size : s'.access.size = liveGrants now file
  refresh : s'.refresh = s.refresh

variable {file : Option StoredAccess}

theorem Reloaded.fit {s' : TokenStore} (reloaded : Reloaded now file s s') : Fit file s' := by
  refine ⟨reloaded.path, fun missing => ?_⟩
  rw [reloaded.grants, missing]
  rfl

theorem size_of_standing {d : Dictionary String AccessGrant} (formed : WellFormed file)
    (same : d.read = standing now (held file)) : d.size = liveGrants now file := by
  cases file with
  | none => exact size_eq (e := ∅) same
  | some stored =>
    obtain ⟨loaded, -, grants, size⟩ := read_decodeAccess (formed stored rfl) now
    exact (size_eq (same.trans grants.symm)).trans size

theorem liveGrants_le (formed : WellFormed file) : liveGrants now file ≤ maxAccessGrants := by
  cases file with
  | none => exact Nat.zero_le _
  | some stored => exact le_trans (length_filter_le _ _) (formed stored rfl).few

theorem loadedAccess_standing (formed : WellFormed f.access) (fit : Fit f.access s) (now : Time) :
    ∃ loaded, loadedAccess now s f = some loaded ∧ loaded.read = standing now (held f.access) ∧
      loaded.size = liveGrants now f.access := by
  unfold loadedAccess
  rw [if_neg fit.path]
  cases file : f.access with
  | none =>
    have empty := fit.missing file
    exact ⟨_, rfl, empty, size_of_standing nofun empty⟩
  | some stored =>
    obtain ⟨loaded, decoded, grants, size⟩ := read_decodeAccess (formed stored file) now
    dsimp only
    rw [decoded]
    exact ⟨loaded, rfl, grants, size⟩

theorem ensures_reloaded (formed : WellFormed f.access) (fit : Fit f.access s) :
    Leads (reloadAccess now s)
      (fun out after => after = f ∧ ∃ s', out = .ok s' ∧ Reloaded now f.access s s') f := by
  obtain ⟨loaded, found, grants, size⟩ := loadedAccess_standing formed fit now
  refine (ensures_reloadAccess free trivial).mono ?_
  rintro out after ⟨unchanged, ⟨other, found', rfl⟩ | ⟨-, none | fails⟩⟩
  · obtain rfl := Option.some.inj (found.symm.trans found')
    exact ⟨unchanged, _, rfl, fit.path, grants, size, rfl⟩
  · cases found.symm.trans none
  · exact absurd fails succeeds

theorem ensures_written (path : s.accessStorePath ≠ "")
    (few : (pruneAccess now s.access).size ≤ maxAccessGrants) (presentable : Presentable (standing now s.access.read)) :
    Leads (persistAccessLocked now s)
      (fun out after => out.1 = true ∧ Written after.access (standing now s.access.read) ∧
        out.2 = { s with access := pruneAccess now s.access }) f := by
  have pruned : (pruneAccess now s.access).read = standing now s.access.read := read_keep_alive now s.access
  refine (ensures_persistAccessLocked free trivial).mono ?_
  rintro out after ⟨-, kept, ⟨done, wrote⟩ | ⟨-, document, fails⟩⟩
  · obtain ⟨choice, document, may, rfl, file⟩ := wrote path
    refine ⟨done, ?_, kept path⟩
    rw [file, ← pruned]
    exact written_accessDocument may.2 few (pruned ▸ presentable)
  · exact absurd fails succeeds

end

/-- What a method leaves: a file that holds a ledger, and a store that goes with it. -/
structure Left (now : Time) (before : Option StoredAccess) (ledger : Ledger) (after : Files) (s : TokenStore) :
    Prop where
  formed : WellFormed after.access
  exists_ : after.access = none → before = none
  fit : Fit after.access s
  ledger : standing now (held after.access) = standing now ledger

section

variable {f : Files} {s : TokenStore} {now : Time}

theorem standing_standing (ledger : Ledger) : standing now (standing now ledger) = standing now ledger :=
  alive_alive le_rfl ledger

theorem left_same (formed : WellFormed f.access) (fit : Fit f.access s) : Left now f.access (held f.access) f s :=
  ⟨formed, id, fit, rfl⟩

variable {after : Files} {before : Option StoredAccess} {ledger : Ledger} {token : String}

theorem Written.left (written : Written after.access (standing now ledger)) (path : s.accessStorePath ≠ "") :
    Left now before ledger after s :=
  ⟨written.formed, fun missing => absurd missing written.exists_,
    ⟨path, fun missing => absurd missing written.exists_⟩, by rw [written.holds, standing_standing]⟩

theorem Left.congr {other : Ledger}
    (left : Left now before ledger after s) (same : standing now ledger = standing now other) :
    Left now before other after s :=
  ⟨left.formed, left.exists_, left.fit, left.ledger.trans same⟩

theorem Reloaded.pruned {file : Option StoredAccess} {s' : TokenStore} {asked : Time}
    (reloaded : Reloaded now file s s') (le : asked ≤ now) :
    (pruneAccess asked s'.access).read = standing now (held file) := by
  have keeps : (pruneAccess asked s'.access).read = standing asked s'.access.read := read_keep_alive asked s'.access
  rw [keeps, reloaded.grants]
  funext digest
  apply Option.ext
  intro grant
  constructor
  · exact fun here => (alive_eq_some.mp here).1
  · exact fun here => alive_eq_some.mpr ⟨here, le_trans le (alive_eq_some.mp here).2⟩

theorem ensures_putAccess {grant : AccessGrant} (formed : WellFormed f.access)
    (fit : Fit f.access s) (valid : validGrant grant = true) (room : liveGrants now f.access < maxAccessGrants) :
    Leads (putAccess s token grant now)
      (fun out after => (∃ failure, out.1 = .error failure) ∧ Left now f.access (held f.access) after out.2 ∨
        out.1 = .ok () ∧ token ≠ "" ∧ Left now f.access
          (update (held f.access) (accessTokenDigest token) (some grant)) after out.2) f := by
  unfold putAccess
  split
  · exact ensures_pure (.inl ⟨⟨_, rfl⟩, left_same formed fit⟩)
  next nonempty =>
  refine ensures_locked ((ensures_reloaded formed fit).bind ?_)
  rintro loaded after ⟨rfl, s', rfl, reloaded⟩
  have pruned := reloaded.pruned le_rfl
  have size := size_of_standing formed pruned
  have few : ¬ ((pruneAccess now s'.access).read (accessTokenDigest token) = none ∧
      maxAccessGrants ≤ (pruneAccess now s'.access).size) := by
    rintro ⟨-, full⟩
    omega
  have held' := (presentable_held formed).standing now
  dsimp only
  rw [if_neg few]
  refine (ensures_written (by exact reloaded.path) ?_ ?_).bind ?_
  · refine le_trans (size_keep_le _ _) (le_trans (size_set_le _ _ _) ?_)
    omega
  · dsimp only
    rw [read_set, pruned]
    exact (held'.deposit valid token).standing now
  rintro persisted after ⟨ok, written, same⟩
  rw [if_pos ok]
  dsimp only at written
  rw [read_set, pruned] at written
  refine ensures_pure (.inr ⟨rfl, nonempty, (written.left (by rw [same]; exact reloaded.path)).congr ?_⟩)
  exact alive_update_congr (standing_standing _) _ _

theorem ensures_getAccess (formed : WellFormed f.access) (fit : Fit f.access s)
    (current : ∀ grant, s.access.read (accessTokenDigest token) = some grant →
      if now ≤ grant.expiresAt then held f.access (accessTokenDigest token) = some grant
      else standing now s.access.read = standing now (held f.access)) :
    Leads (getAccess s token now)
      (fun out after => out.1 = .ok (if token = "" then none else
          standing now (held f.access) (accessTokenDigest token)) ∧
        Left now f.access (held f.access) after out.2) f := by
  unfold getAccess
  split
  · exact ensures_pure ⟨rfl, left_same formed fit⟩
  refine ensures_locked ?_
  unfold findAccess
  split
  · next grant found =>
    have agrees := current grant found
    refine ensures_via (fun out after => out = (.ok (some grant), s) ∧ after = f) (ensures_pure ⟨rfl, rfl⟩) ?_
    rintro out after ⟨rfl, rfl⟩
    unfold dropExpired
    dsimp only
    split
    · next expired =>
      -- the copy is written back without the expired grant
      rw [if_neg (not_le.mpr expired)] at agrees
      have absent : standing now s.access.read (accessTokenDigest token) = none := by
        rw [standing, alive, found, Option.filter_some, if_neg]
        exact fun live => absurd expired (not_lt.mpr (decide_eq_true_iff.mp live))
      have gone : standing now (update s.access.read (accessTokenDigest token) none) =
          standing now (held after.access) := by
        rw [← agrees, standing, alive_update, Option.filter_none, ← absent]
        exact update_eq_self _ _
      have kept : (pruneAccess now (s.access.delete (accessTokenDigest token))).read =
          standing now (held after.access) := by
        rw [← gone, ← read_delete]
        exact read_keep_alive now _
      refine (ensures_written (by exact fit.path) ?_ ?_).bind ?_
      · dsimp only
        rw [size_of_standing formed kept]
        exact liveGrants_le formed
      · dsimp only
        rw [read_delete, gone]
        exact (presentable_held formed).standing now
      rintro persisted left ⟨-, written, same⟩
      dsimp only at written
      rw [read_delete] at written
      refine ensures_pure ⟨?_, (written.left (by rw [same]; exact fit.path)).congr gone⟩
      rw [← agrees, absent]
    · next live =>
      rw [if_pos (not_lt.mp live)] at agrees
      refine ensures_pure ⟨?_, left_same formed fit⟩
      rw [standing, alive_eq_some.mpr ⟨agrees, not_lt.mp live⟩]
  · have reload : reloadAccess now s = loadAccessLocked now s := if_neg fit.path
    rw [if_neg fit.path, ← reload]
    refine ensures_via (fun out after => after = f ∧ ∃ s', Reloaded now f.access s s' ∧
      out = (.ok (s'.access.read (accessTokenDigest token)), s')) ?_ ?_
    · refine (ensures_reloaded formed fit).bind ?_
      rintro loaded after ⟨rfl, s', rfl, reloaded⟩
      exact ensures_pure ⟨rfl, s', reloaded, rfl⟩
    rintro out after ⟨rfl, s', reloaded, rfl⟩
    have left : Left now after.access (held after.access) after s' := left_same formed reloaded.fit
    unfold dropExpired
    dsimp only
    rw [reloaded.grants]
    cases found : standing now (held after.access) (accessTokenDigest token) with
    | none => exact ensures_pure ⟨rfl, left⟩
    | some grant =>
      have live : ¬ now > grant.expiresAt := not_lt.mpr (alive_eq_some.mp found).2
      dsimp only
      rw [if_neg live]
      exact ensures_pure ⟨rfl, left⟩

theorem ensures_revokeAccess (formed : WellFormed f.access) (fit : Fit f.access s) :
    Leads (revokeAccess s token now)
      (fun out after => Left now f.access (if token = "" then held f.access else
        update (held f.access) (accessTokenDigest token) none) after out.2) f := by
  unfold revokeAccess
  split
  · exact ensures_pure (left_same formed fit)
  refine ensures_locked ((ensures_reloaded formed fit).bind ?_)
  rintro loaded after ⟨rfl, s', rfl, reloaded⟩
  refine (ensures_written (by exact reloaded.path) ?_ ?_).bind ?_
  · refine le_trans (size_keep_le _ _) (le_trans (size_delete_le _ _) ?_)
    rw [reloaded.size]
    exact liveGrants_le formed
  · dsimp only
    rw [read_delete, reloaded.grants]
    exact (((presentable_held formed).standing now).withdraw _).standing now
  rintro persisted after ⟨ok, written, same⟩
  rw [if_pos ok]
  dsimp only at written
  rw [read_delete, reloaded.grants] at written
  refine ensures_pure ((written.left (by rw [same]; exact reloaded.path)).congr ?_)
  exact alive_update_congr (standing_standing _) _ _

end

section

variable {f : Files} {s : TokenStore} {now : Time}

variable {s' : TokenStore} {accessToken newToken oldToken : String} {asked : Time}

theorem left_onlyRefresh {after : Files} (alone : OnlyRefresh s f s' after) (formed : WellFormed f.access)
    (fit : Fit f.access s) : Left now f.access (held f.access) after s' := by
  obtain ⟨refresh, file, rfl, rfl⟩ := alone
  exact ⟨formed, id, ⟨fit.path, fit.missing⟩, rfl⟩

def Known (f : Files) (s : TokenStore) (grant : RefreshGrant) : Prop :=
  (∃ token, s.refresh.read token = some grant) ∨
    ∃ document, f.refresh = some document ∧ ∃ record ∈ document.refresh, record.grant = grant

theorem read_foldl_loadRefreshRecord {rows : List RefreshStoreRecord} {d : Dictionary String RefreshGrant}
    {token : String} {grant : RefreshGrant}
    (found : (rows.foldl (loadRefreshRecord now) d).read token = some grant) :
    d.read token = some grant ∨ ∃ record ∈ rows, record.grant = grant := by
  induction rows generalizing d with
  | nil => exact .inl found
  | cons record rows ih =>
    rcases ih found with here | ⟨later, member, same⟩
    · unfold loadRefreshRecord at here
      split at here
      · exact .inl here
      rw [read_set] at here
      by_cases same : token = record.token
      · rw [same, update_self, Option.some.injEq] at here
        exact .inr ⟨record, mem_cons_self, here⟩
      · rw [update_of_ne same] at here
        exact .inl here
    · exact .inr ⟨later, mem_cons_of_mem _ member, same⟩

theorem known_of_loadedRefresh {loaded : Dictionary String RefreshGrant} {token : String} {grant : RefreshGrant}
    (found : loadedRefresh now s f = some loaded) (here : loaded.read token = some grant) : Known f s grant := by
  unfold loadedRefresh at found
  split at found
  · exact .inl ⟨token, Option.some.inj found ▸ here⟩
  cases file : f.refresh with
  | none =>
    rw [file] at found
    exact .inl ⟨token, Option.some.inj found ▸ here⟩
  | some document =>
    rw [file] at found
    dsimp only [decodeRefresh] at found
    split at found
    · cases found
    cases found
    rcases read_foldl_loadRefreshRecord here with absent | ⟨record, member, equal⟩
    · cases absent
    · exact .inr ⟨document, file, record, member, equal⟩

theorem ensures_refreshWritten :
    Leads (persistRefreshLocked s)
      (fun written after => written = true ∧ ∃ file, after = { f with refresh := file }) f := by
  refine (ensures_persistRefreshLocked free trivial).mono ?_
  rintro written after ⟨rest, ⟨done, -⟩ | ⟨-, -, document, fails⟩⟩
  · exact ⟨done, rest⟩
  · exact absurd fails succeeds

theorem ensures_writeRotation (before : Option StoredAccess) {pruned after : TokenStore} {old : RefreshGrant}
    (path : after.accessStorePath ≠ "") (few : (pruneAccess now after.access).size ≤ maxAccessGrants)
    (presentable : Presentable (standing now after.access.read)) :
    Leads (writeRotation pruned after old now)
      (fun out left => out.1 = .ok (some old) ∧ Left now before after.access.read left out.2) f := by
  unfold writeRotation
  refine (ensures_written path few presentable).bind ?_
  rintro persisted left ⟨ok, written, same⟩
  rw [if_pos ok]
  refine ensures_refreshWritten.bind ?_
  rintro refreshed last ⟨rfl, file, rfl⟩
  have kept : Left now before after.access.read left persisted.2 := written.left (by rw [same]; exact path)
  exact ensures_pure ⟨rfl, kept.formed, kept.exists_, kept.fit, kept.ledger⟩

def Rotated (now : Time) (f : Files) (accessToken : String) (asked : Time) (out : Outcome (Option RefreshGrant))
    (after : Files) : Prop :=
  (∃ grant, out.1 = .ok (some grant) ∧ accessToken ≠ "" ∧ Left now f.access
    (update (held f.access) (accessTokenDigest accessToken) (some (rotatedAccess grant asked))) after out.2) ∨
  (out.1 = .ok none ∨ ∃ failure, out.1 = .error failure) ∧ Left now f.access (held f.access) after out.2

theorem ensures_rotateLoaded
    (formed : WellFormed f.access) (fit : Fit f.access s') (grants : s'.access.read = standing now (held f.access))
    (nonempty : accessToken ≠ "") (le : asked ≤ now) (room : liveGrants now f.access < maxAccessGrants)
    (valid : ∀ token grant, s'.refresh.read token = some grant → validGrant (rotatedAccess grant asked) = true) :
    Leads (rotateLoaded s' oldToken newToken accessToken asked now)
      (Rotated now f accessToken asked) f := by
  have same : Left now f.access (held f.access) f s' := left_same formed fit
  have pruned : (pruneAccess asked s'.access).read = standing now (held f.access) :=
    (show Reloaded now f.access s' s' from ⟨fit.path, grants, size_of_standing formed grants, rfl⟩).pruned le
  have size := size_of_standing formed pruned
  unfold rotateLoaded
  split
  · exact ensures_pure (.inr ⟨.inl rfl, same⟩)
  next old found =>
  split
  · refine ensures_refreshWritten.bind ?_
    rintro persisted after ⟨ok, file, rfl⟩
    rw [if_pos ok]
    exact ensures_pure (.inr ⟨.inl rfl, left_onlyRefresh ⟨_, _, rfl, rfl⟩ formed fit⟩)
  split
  · exact ensures_pure (.inr ⟨.inr ⟨_, rfl⟩, same⟩)
  have fitPruned : Fit f.access { s' with access := pruneAccess asked s'.access } := by
    refine ⟨fit.path, fun missing => ?_⟩
    dsimp only
    rw [pruned, missing]
    rfl
  have samePruned : Left now f.access (held f.access) f { s' with access := pruneAccess asked s'.access } :=
    left_same formed fitPruned
  dsimp only
  split
  · exact ensures_pure (.inr ⟨.inr ⟨_, rfl⟩, samePruned⟩)
  split
  · exact ensures_pure (.inr ⟨.inr ⟨_, rfl⟩, samePruned⟩)
  refine (ensures_writeRotation f.access (by exact fit.path) ?_ ?_).mono ?_
  · refine le_trans (size_keep_le _ _) (le_trans (size_set_le _ _ _) ?_)
    omega
  · dsimp only
    rw [read_set, pruned]
    exact (((presentable_held formed).standing now).deposit (valid _ old found) accessToken).standing now
  rintro out left ⟨result, written⟩
  dsimp only at written
  rw [read_set, pruned] at written
  exact .inl ⟨old, result, nonempty, written.congr (alive_update_congr (standing_standing _) _ _)⟩

theorem ensures_rotateRefresh (formed : WellFormed f.access)
    (fit : Fit f.access s) (le : asked ≤ now) (room : liveGrants now f.access < maxAccessGrants)
    (valid : ∀ grant, Known f s grant → validGrant (rotatedAccess grant asked) = true) :
    Leads (rotateRefresh s oldToken newToken accessToken asked now)
      (Rotated now f accessToken asked) f := by
  unfold rotateRefresh
  split
  · exact ensures_pure (.inr ⟨.inl rfl, left_same formed fit⟩)
  next nonempty =>
  refine ensures_locked (ensures_locked ((ensures_reloaded formed fit).bind ?_))
  rintro loaded after ⟨rfl, s', rfl, reloaded⟩
  refine (ensures_reloadRefresh free trivial).bind ?_
  rintro loaded later ⟨rfl, ⟨refresh, found, rfl⟩ | ⟨⟨failure, rfl⟩, -⟩⟩
  · refine ensures_rotateLoaded formed ⟨reloaded.path, reloaded.fit.missing⟩ reloaded.grants
      (fun empty => nonempty (.inr (.inr empty))) le room ?_
    intro token grant here
    refine valid grant ?_
    have known := known_of_loadedRefresh found here
    unfold Known at known ⊢
    rw [reloaded.refresh] at known
    exact known
  · exact ensures_pure (.inr ⟨.inr ⟨_, rfl⟩, left_same formed reloaded.fit⟩)

theorem ensures_newProviderStore {config : Config} (formed : WellFormed f.access) (path : config.accessStorePath ≠ "") :
    Leads (newProviderStore config now)
      (fun out after => after.access = f.access ∧ (out.1 = .ok () → Fit f.access out.2)) f := by
  unfold newProviderStore
  refine ensures_via (fun out after => after = f ∧ Fit f.access out.2) ?_ ?_
  · refine ensures_locked ((ensures_reloaded formed ⟨path, fun _ => rfl⟩).bind ?_)
    rintro loaded after ⟨rfl, s', rfl, reloaded⟩
    exact ensures_pure ⟨rfl, reloaded.fit⟩
  rintro loaded after ⟨rfl, fit⟩
  split
  · exact ensures_pure ⟨rfl, nofun⟩
  refine (ensures_reloadRefresh free trivial).bind ?_
  rintro refreshed later ⟨rfl, ⟨refresh, -, rfl⟩ | ⟨⟨failure, rfl⟩, -⟩⟩
  · exact ensures_pure ⟨rfl, fun _ => ⟨fit.path, fit.missing⟩⟩
  · exact ensures_pure ⟨rfl, nofun⟩

end

end Aeontra.Oauth.Acceptance
