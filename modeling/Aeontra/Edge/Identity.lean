import Aeontra.Library.Fallible
import Aeontra.Library.Instant
import Aeontra.Library.Machine
import Aeontra.Library.Sha256
import Aeontra.Library.Table

/-!
Pairing codes, paired devices and the authentication of their signed requests.

The hash, the signature check and upper case are parameters.  Each call reads the clock once
and runs one transaction; random bytes are arguments, and missing ones are a failed draw.
-/

namespace Aeontra.Edge

open Library Table

def pairingTTL : Duration := 10 * minute
def signatureWindow : Duration := 2 * minute
def nonceTTL : Duration := 10 * minute

def publicKeySize : Nat := 32
def signatureSize : Nat := 64

structure Crypto where
  sum256 : List Nat → List Nat
  verify : List Nat → List Nat → List Nat → Bool
  toUpper : String → String

/-- `Time.Unix`: whole seconds, rounded down. -/
def unixSeconds (t : Time) : Int := t / second

/-- `time.Unix`. -/
def ofSeconds (seconds : Int) : Time := seconds * second

inductive State where
  | active
  | revoked
  deriving DecidableEq

structure Device where
  id : String
  name : String
  state : State
  pairedAt : Time
  deriving DecidableEq

structure SignedRequest where
  deviceID : String
  timestamp : Int
  nonce : String
  method : String
  path : String
  body : List Nat
  signature : List Nat
  deriving DecidableEq

/-- `hex.EncodeToString`. -/
def encodeHex (value : List Nat) : String := String.ofList (value.flatMap (hexDigits 2))

def SignedRequest.canonical (crypto : Crypto) (r : SignedRequest) : List Nat :=
  bytes ("edge-v1\n" ++ r.deviceID ++ "\n" ++ toString r.timestamp ++ "\n" ++ r.nonce ++ "\n" ++
    crypto.toUpper r.method ++ "\n" ++ r.path ++ "\n" ++ encodeHex (crypto.sum256 r.body))

def namePattern : Pattern :=
  [[Pattern.exactly isLowerAlnum 1, ⟨fun c => isLowerAlnum c || c == '_' || c == '-', 0, 63⟩]]

def idPattern : Pattern := [Pattern.literal "ed_" ++ [Pattern.exactly isLowerHex 32]]

def noncePattern : Pattern := [[⟨fun c => isAlnum c || c == '_' || c == '-', 16, 96⟩]]

def randomOpaque (lead : String) (value : List Nat) : String := lead ++ encodeHex value

def digest (crypto : Crypto) (value : String) : List Nat := crypto.sum256 (bytes value)

structure PairingRow where
  codeHash : List Nat
  expiresAt : Int
  consumedAt : Option Int
  deriving DecidableEq

structure DeviceRow where
  deviceID : String
  name : String
  publicKey : List Nat
  state : State
  pairedAt : Int
  revokedAt : Option Int
  deriving DecidableEq

structure NonceRow where
  deviceID : String
  nonceHash : List Nat
  expiresAt : Int
  deriving DecidableEq

def NonceRow.key (r : NonceRow) : String × List Nat := (r.deviceID, r.nonceHash)

structure ContactRow where
  deviceID : String
  lastContactAt : Int
  deriving DecidableEq

structure Store where
  pairings : Table PairingRow PairingRow.codeHash PairingRow.codeHash
  devices : Table DeviceRow DeviceRow.deviceID DeviceRow.publicKey
  nonces : Table NonceRow NonceRow.key NonceRow.key
  contacts : Table ContactRow ContactRow.deviceID ContactRow.deviceID

namespace Store

def new : Store := ⟨.empty, .empty, .empty, .empty⟩

variable (crypto : Crypto) (s : Store) (now : Time)

def createPairing (ttl : Duration) (draw : Option (List Nat)) : Except String (String × Store) := do
  reject (ttl ≤ 0 || pairingTTL < ttl) "pairing ttl is invalid"
  let value ← required "pairing generation failed" draw
  let code := randomOpaque "ep_" value
  let pairings ← required "pairing persistence failed"
    (s.pairings.insert ⟨digest crypto code, unixSeconds (now + ttl), none⟩)
  return (code, { s with pairings })

def consumable (code : String) (row : PairingRow) : Bool :=
  row.codeHash = digest crypto code && row.consumedAt.isNone && unixSeconds now < row.expiresAt

def pair (code name : String) (publicKey : List Nat) (draw : Option (List Nat)) :
    Except String (Device × Store) := do
  reject (!namePattern.matchString name || publicKey.length ≠ publicKeySize || !(chars "ep_").isPrefixOf (chars code))
    "pairing request is invalid"
  let pairings := s.pairings.update (consumable crypto now code)
    (fun row => { row with consumedAt := some (unixSeconds now) }) (fun _ => rfl) (fun _ => rfl)
  reject (s.pairings.count (consumable crypto now code) ≠ 1) "pairing code is invalid or expired"
  let value ← required "device identity generation failed" draw
  let id := randomOpaque "ed_" value
  let devices ← required "device registration failed"
    (s.devices.insert ⟨id, name, publicKey, .active, unixSeconds now, none⟩)
  return (⟨id, name, .active, now⟩, { s with pairings, devices })

def authenticate (request : SignedRequest) : Except String (Device × Store) := do
  reject (!idPattern.matchString request.deviceID || !noncePattern.matchString request.nonce ||
    request.signature.length ≠ signatureSize) "edge authentication failed"
  let signedAt := ofSeconds request.timestamp
  reject (signedAt < now - signatureWindow || now + signatureWindow < signedAt) "edge authentication failed"
  let row ← required "edge authentication failed" (s.devices.find request.deviceID)
  reject (row.state ≠ .active || !crypto.verify row.publicKey (request.canonical crypto) request.signature)
    "edge authentication failed"
  let live := s.nonces.delete fun nonce => nonce.expiresAt ≤ unixSeconds now
  let nonces ← required "edge authentication failed"
    (live.insert ⟨request.deviceID, digest crypto request.nonce, unixSeconds (now + nonceTTL)⟩)
  return (⟨request.deviceID, row.name, row.state, ofSeconds row.pairedAt⟩,
    { s with nonces, contacts := s.contacts.assign ⟨request.deviceID, unixSeconds now⟩ })

def revocable (deviceID : String) (row : DeviceRow) : Bool := row.deviceID = deviceID && row.state = .active

def revoke (deviceID : String) : Except String Store := do
  reject (!idPattern.matchString deviceID) "device id is invalid"
  let devices := s.devices.update (revocable deviceID)
    (fun row => { row with state := .revoked, revokedAt := some (unixSeconds now) }) (fun _ => rfl) (fun _ => rfl)
  reject (s.devices.count (revocable deviceID) ≠ 1) "active device not found"
  return { s with devices }

end Store

inductive Call where
  | createPairing (ttl : Duration) (draw : Option (List Nat))
  | pair (code name : String) (publicKey : List Nat) (draw : Option (List Nat))
  | authenticate (request : SignedRequest)
  | revoke (deviceID : String)

structure Timed where
  now : Time
  call : Call

inductive Reply where
  | code (text : String)
  | device (device : Device)
  | done
  deriving DecidableEq

/-- The reply and the store of a transaction; a failed one is rolled back. -/
def settle {α : Type} (s : Store) (reply : α → Reply) : Except String (α × Store) → Except String Reply × Store
  | .ok (a, s') => (.ok (reply a), s')
  | .error e => (.error e, s)

def Store.exec (crypto : Crypto) (s : Store) (timed : Timed) : Except String Reply × Store :=
  match timed.call with
  | .createPairing ttl draw => settle s .code (s.createPairing crypto timed.now ttl draw)
  | .pair code name publicKey draw => settle s .device (s.pair crypto timed.now code name publicKey draw)
  | .authenticate request => settle s .device (s.authenticate crypto timed.now request)
  | .revoke deviceID => settle s (fun _ => .done) ((s.revoke timed.now deviceID).map fun s' => ((), s'))

def Store.consumed (crypto : Crypto) (s : Store) (now : Time) (code : String) :
    Table PairingRow PairingRow.codeHash PairingRow.codeHash :=
  s.pairings.update (Store.consumable crypto now code)
    (fun row => { row with consumedAt := some (unixSeconds now) }) (fun _ => rfl) (fun _ => rfl)

def Store.withdrawn (s : Store) (now : Time) (deviceID : String) :
    Table DeviceRow DeviceRow.deviceID DeviceRow.publicKey :=
  s.devices.update (Store.revocable deviceID)
    (fun row => { row with state := .revoked, revokedAt := some (unixSeconds now) }) (fun _ => rfl) (fun _ => rfl)

variable {now t t' : Time} {s : Store}

theorem Store.mem_consumed {crypto : Crypto} {code : String} {row : PairingRow} :
    row ∈ s.consumed crypto now code ↔ ∃ old ∈ s.pairings,
      (if Store.consumable crypto now code old then { old with consumedAt := some (unixSeconds now) } else old) =
        row :=
  mem_update

theorem Store.mem_withdrawn {deviceID : String} {row : DeviceRow} :
    row ∈ s.withdrawn now deviceID ↔ ∃ old ∈ s.devices,
      (if Store.revocable deviceID old then
        { old with state := .revoked, revokedAt := some (unixSeconds now) } else old) = row :=
  mem_update

/-- What one call can do; a refused call changes nothing. -/
inductive Step (crypto : Crypto) (s : Store) : Timed → Except String Reply → Store → Prop
  | refuse {timed : Timed} {e : String} : Step crypto s timed (.error e) s
  | createPairing {now : Time} {ttl : Duration} {value : List Nat}
      {pairings : Table PairingRow PairingRow.codeHash PairingRow.codeHash}
      (inserted : s.pairings.insert ⟨digest crypto (randomOpaque "ep_" value), unixSeconds (now + ttl), none⟩ =
        some pairings) :
      Step crypto s ⟨now, .createPairing ttl (some value)⟩ (.ok (.code (randomOpaque "ep_" value)))
        { s with pairings }
  | pair {now : Time} {code name : String} {publicKey : List Nat} {draw : Option (List Nat)} {row : PairingRow}
      {device : Device} {added : DeviceRow} {devices : Table DeviceRow DeviceRow.deviceID DeviceRow.publicKey}
      (present : row ∈ s.pairings) (free : Store.consumable crypto now code row = true)
      (inserted : s.devices.insert added = some devices) :
      Step crypto s ⟨now, .pair code name publicKey draw⟩ (.ok (.device device))
        { s with pairings := s.consumed crypto now code, devices }
  | authenticate {now : Time} {request : SignedRequest} {row : DeviceRow} {device : Device}
      {nonces : Table NonceRow NonceRow.key NonceRow.key}
      (early : now - signatureWindow ≤ ofSeconds request.timestamp)
      (late : ofSeconds request.timestamp ≤ now + signatureWindow)
      (present : row ∈ s.devices) (named : row.deviceID = request.deviceID) (active : row.state = .active)
      (inserted : (s.nonces.delete fun nonce => nonce.expiresAt ≤ unixSeconds now).insert
        ⟨request.deviceID, digest crypto request.nonce, unixSeconds (now + nonceTTL)⟩ = some nonces) :
      Step crypto s ⟨now, .authenticate request⟩ (.ok (.device device))
        { s with nonces, contacts := s.contacts.assign ⟨request.deviceID, unixSeconds now⟩ }
  | revoke {now : Time} {deviceID : String} {row : DeviceRow} (present : row ∈ s.devices)
      (named : row.deviceID = deviceID) (active : row.state = .active) :
      Step crypto s ⟨now, .revoke deviceID⟩ (.ok .done) { s with devices := s.withdrawn now deviceID }

section

variable {crypto : Crypto} {s : Store}

variable {timed : Timed} {s' : Store} {answer : Except String Reply}

theorem settle_step {α : Type} {reply : α → Reply} {result : Except String (α × Store)}
    (succeeded : ∀ a s', result = .ok (a, s') → Step crypto s timed (.ok (reply a)) s') :
    Step crypto s timed (settle s reply result).1 (settle s reply result).2 := by
  cases result with
  | error e => exact .refuse
  | ok pair => exact succeeded pair.1 pair.2 rfl

theorem exec_step (timed : Timed) : Step crypto s timed (s.exec crypto timed).1 (s.exec crypto timed).2 := by
  cases timed with
  | mk now call =>
  cases call with
  | createPairing ttl draw =>
    apply settle_step
    intro code s' result
    simp only [Store.createPairing, bind_eq_ok, required_eq_ok, pure_eq_ok] at result
    rcases result with ⟨-, -, value, rfl, pairings, inserted, same⟩
    cases same
    exact .createPairing inserted
  | pair code name publicKey draw =>
    apply settle_step
    intro device s' result
    simp only [Store.pair, bind_eq_ok, reject_eq_ok, required_eq_ok, pure_eq_ok] at result
    rcases result with ⟨-, -, -, counted, value, -, devices, inserted, same⟩
    cases same
    have one : s.pairings.count (Store.consumable crypto now code) ≠ 0 := by
      have exact_one := of_decide_eq_false counted
      omega
    rcases exists_of_count one with ⟨row, present, holds⟩
    exact .pair present holds inserted
  | authenticate request =>
    apply settle_step
    intro device s' result
    simp only [Store.authenticate, bind_eq_ok, reject_eq_ok, required_eq_ok, pure_eq_ok] at result
    rcases result with ⟨-, -, -, window, row, found, -, checked, nonces, inserted, same⟩
    cases same
    simp only [bool_iff, not_lt, not_not] at window checked
    have held := Table.find_eq_some.mp found
    exact .authenticate window.1 window.2 held.1 held.2 checked.1 inserted
  | revoke deviceID =>
    apply settle_step
    intro u s' result
    cases revoked : s.revoke now deviceID with
    | error e => simp [revoked, Except.map] at result
    | ok s'' =>
      simp only [revoked, Except.map, Except.ok.injEq, Prod.mk.injEq] at result
      rcases result with ⟨-, rfl⟩
      simp only [Store.revoke, ok_iff] at revoked
      rcases revoked with ⟨-, -, -, counted, same⟩
      cases same
      have one : s.devices.count (Store.revocable deviceID) ≠ 0 := by
        have exact_one := of_decide_eq_false counted
        omega
      rcases exists_of_count one with ⟨row, present, holds⟩
      simp only [Store.revocable, bool_iff] at holds
      exact .revoke present holds.1 holds.2

theorem step_refused {e : String} (step : Step crypto s timed (.error e) s') : s' = s := by
  cases step with
  | refuse => rfl

variable (step : Step crypto s timed answer s')

include step

theorem Step.nonce_stays {row : NonceRow} (present : row ∈ s.nonces) :
    row ∈ s'.nonces ∨ row.expiresAt ≤ unixSeconds timed.now := by
  cases step with
  | @authenticate now request device _ nonces _ _ _ _ _ inserted =>
    by_cases expired : row.expiresAt ≤ unixSeconds now
    · exact .inr expired
    left
    apply (mem_insert inserted).mpr
    left
    exact Table.mem_delete.mpr ⟨present, decide_eq_false expired⟩
  | _ => exact .inl present

theorem Step.revoked_stays {row : DeviceRow} (present : row ∈ s.devices) (gone : row.state = .revoked) :
    row ∈ s'.devices := by
  cases step with
  | pair _ _ inserted => exact (mem_insert inserted).mpr (.inl present)
  | revoke _ _ _ =>
    apply Store.mem_withdrawn.mpr
    refine ⟨row, present, if_neg ?_⟩
    simp [Store.revocable, gone]
  | _ => exact present

theorem Step.pairing_stays {row : PairingRow} (present : row ∈ s.pairings) :
    ∃ row' ∈ s'.pairings, row'.codeHash = row.codeHash ∧ row'.expiresAt = row.expiresAt ∧
      (row.consumedAt.isSome → row'.consumedAt.isSome) := by
  cases step with
  | createPairing inserted =>
    exact ⟨row, (mem_insert inserted).mpr (.inl present), rfl, rfl, id⟩
  | pair _ _ _ =>
    refine ⟨_, Store.mem_consumed.mpr ⟨row, present, rfl⟩, ?_⟩
    split
    · exact ⟨rfl, rfl, fun _ => rfl⟩
    · exact ⟨rfl, rfl, id⟩
  | _ => exact ⟨row, present, rfl, rfl, id⟩

end

open Machine

abbrev EdgeEntry := Entry Store Timed (Except String Reply)

def Accepts (r : SignedRequest) (e : EdgeEntry) : Prop :=
  e.input.call = .authenticate r ∧ ∃ device, e.answer = .ok (.device device)

def Revokes (deviceID : String) (e : EdgeEntry) : Prop := e.input.call = .revoke deviceID ∧ e.answer = .ok .done

def Registers (code : String) (e : EdgeEntry) : Prop :=
  (∃ name publicKey draw, e.input.call = .pair code name publicKey draw) ∧
    ∃ device, e.answer = .ok (.device device)

def Creates (code : String) (expiry : Time) (e : EdgeEntry) : Prop :=
  (∃ ttl draw, e.input.call = .createPairing ttl draw ∧ expiry = e.input.now + ttl) ∧ e.answer = .ok (.code code)

/-- Two requests are the same when they agree on the device, the timestamp and the nonce. -/
structure Sound (e later : EdgeEntry) : Prop where
  once : ∀ r r', Accepts r e → Accepts r' later → r.deviceID = r'.deviceID → r.nonce = r'.nonce →
    r.timestamp ≠ r'.timestamp
  nonce : ∀ r r', Accepts r e → Accepts r' later → r.deviceID = r'.deviceID → r.nonce = r'.nonce →
    nonceTTL ≤ ofSeconds (unixSeconds later.input.now) - ofSeconds (unixSeconds e.input.now)
  revoked : ∀ r, Revokes r.deviceID e → ¬ Accepts r later
  single : ∀ code, Registers code e → ¬ Registers code later
  expired : ∀ code expiry, Creates code expiry e → Registers code later → later.input.now < expiry

/-- What the call of an entry leaves behind, with the calls that are still to come. -/
structure Mark (crypto : Crypto) (e : EdgeEntry) (s : Store) (rest : List Timed) : Prop where
  ordered : rest.Pairwise fun a b => a.now ≤ b.now
  signed : ∀ r, Accepts r e → ofSeconds r.timestamp ≤ e.input.now + signatureWindow
  nonce : ∀ r, Accepts r e →
    (⟨r.deviceID, digest crypto r.nonce, unixSeconds (e.input.now + nonceTTL)⟩ : NonceRow) ∈ s.nonces ∨
      ∀ timed ∈ rest, unixSeconds (e.input.now + nonceTTL) ≤ unixSeconds timed.now
  revoked : ∀ deviceID, Revokes deviceID e → ∃ row ∈ s.devices, row.deviceID = deviceID ∧ row.state = .revoked
  consumed : ∀ code, Registers code e →
    ∃ row ∈ s.pairings, row.codeHash = digest crypto code ∧ row.consumedAt.isSome
  created : ∀ code expiry, Creates code expiry e →
    ∃ row ∈ s.pairings, row.codeHash = digest crypto code ∧ row.expiresAt = unixSeconds expiry

theorem unixSeconds_mono {a b : Time} (earlier : a ≤ b) : unixSeconds a ≤ unixSeconds b :=
  Int.ediv_le_ediv (by decide) earlier

theorem unixSeconds_add (t : Time) (n : Int) : unixSeconds (t + n * second) = unixSeconds t + n :=
  Int.add_mul_ediv_right t n (by decide)

theorem nonceTTL_le (expired : unixSeconds (t + nonceTTL) ≤ unixSeconds t') :
    nonceTTL ≤ ofSeconds (unixSeconds t') - ofSeconds (unixSeconds t) := by
  rw [show nonceTTL = 600 * second by decide, unixSeconds_add] at expired
  rw [show nonceTTL = 600 * second by decide, ofSeconds, ofSeconds, ← Int.sub_mul]
  apply Int.mul_le_mul_of_nonneg_right _ (by decide)
  omega

/-- A signature outlives its window before the nonce that was accepted with it is forgotten. -/
theorem window_lt_nonceTTL {signed : Time} (late : signed ≤ t + signatureWindow)
    (early : t' - signatureWindow ≤ signed) : unixSeconds t' < unixSeconds (t + nonceTTL) := by
  have close : t' ≤ t + 240 * second := by
    have reached := Int.le_add_of_sub_right_le (early.trans late)
    rw [add_assoc] at reached
    exact reached
  have bound := unixSeconds_mono close
  rw [unixSeconds_add] at bound
  rw [show nonceTTL = 600 * second by decide, unixSeconds_add]
  omega

section

variable {crypto : Crypto} {s : Store} {timed : Timed} {rest : List Timed}

theorem mark_of_exec (ordered : (timed :: rest).Pairwise fun a b => a.now ≤ b.now) :
    Mark crypto (entry (Store.exec crypto) s timed) (s.exec crypto timed).2 rest := by
  have step := @exec_step crypto s timed
  rw [List.pairwise_cons] at ordered
  simp only [entry]
  generalize (s.exec crypto timed).1 = answer at step
  generalize (s.exec crypto timed).2 = s' at step
  refine ⟨ordered.2, ?_, ?_, ?_, ?_, ?_⟩
  · rintro r ⟨call, device, accepted⟩
    cases step with
    | authenticate _ late =>
      cases call
      exact late
    | _ => cases accepted <;> cases call
  · rintro r ⟨call, device, accepted⟩
    cases step with
    | authenticate _ _ _ _ _ inserted =>
      cases call
      exact .inl ((mem_insert inserted).mpr (.inr rfl))
    | _ => cases accepted <;> cases call
  · rintro deviceID ⟨call, accepted⟩
    cases step with
    | @revoke now deviceID' row present named active =>
      cases call
      refine ⟨_, Store.mem_withdrawn.mpr ⟨row, present, if_pos ?_⟩, named, rfl⟩
      simp [Store.revocable, named, active]
    | _ => cases accepted
  · rintro code ⟨⟨name, publicKey, draw, call⟩, device, accepted⟩
    cases step with
    | @pair now code' name' publicKey' draw' row device' added devices present free inserted =>
      cases call
      refine ⟨_, Store.mem_consumed.mpr ⟨row, present, if_pos free⟩, ?_, rfl⟩
      simp only [Store.consumable, bool_iff] at free
      exact free.1.1
    | _ => cases accepted <;> cases call
  · rintro code expiry ⟨⟨ttl, draw, call, rfl⟩, accepted⟩
    cases step with
    | createPairing inserted =>
      cases call
      cases accepted
      exact ⟨_, (mem_insert inserted).mpr (.inr rfl), rfl, rfl⟩
    | _ => cases accepted

variable {e : EdgeEntry}

variable (mark : Mark crypto e s (timed :: rest))

include mark

theorem Mark.step : Mark crypto e (s.exec crypto timed).2 rest := by
  have step := @exec_step crypto s timed
  generalize (s.exec crypto timed).1 = answer at step
  generalize (s.exec crypto timed).2 = s' at step
  have ordered := List.pairwise_cons.mp mark.ordered
  constructor
  case ordered => exact ordered.2
  case signed => exact mark.signed
  case nonce =>
    intro r accepted
    rcases mark.nonce r accepted with present | expired
    · rcases step.nonce_stays present with stays | gone
      · exact .inl stays
      · right
        intro later member
        exact gone.trans (unixSeconds_mono (ordered.1 later member))
    · exact .inr fun later member => expired later (List.mem_cons_of_mem _ member)
  case revoked =>
    intro deviceID revoked
    rcases mark.revoked deviceID revoked with ⟨row, present, named, gone⟩
    exact ⟨row, step.revoked_stays present gone, named, gone⟩
  case consumed =>
    intro code registered
    rcases mark.consumed code registered with ⟨row, present, hash, used⟩
    rcases step.pairing_stays present with ⟨row', stays, hash', -, used'⟩
    exact ⟨row', stays, hash'.trans hash, used' used⟩
  case created =>
    intro code expiry made
    rcases mark.created code expiry made with ⟨row, present, hash, expires⟩
    rcases step.pairing_stays present with ⟨row', stays, hash', expires', -⟩
    exact ⟨row', stays, hash'.trans hash, expires'.trans expires⟩

theorem Mark.expired {r r' : SignedRequest}
    (first : Accepts r e) (again : Accepts r' (entry (Store.exec crypto) s timed))
    (device : r.deviceID = r'.deviceID) (nonce : r.nonce = r'.nonce) :
    unixSeconds (e.input.now + nonceTTL) ≤ unixSeconds timed.now ∧
      timed.now - signatureWindow ≤ ofSeconds r'.timestamp := by
  have step := @exec_step crypto s timed
  simp only [entry, Accepts] at again
  generalize (s.exec crypto timed).1 = answer at step again
  generalize (s.exec crypto timed).2 = s' at step
  rcases again with ⟨call, device', accepted⟩
  cases step with
  | @authenticate now request row device'' nonces early late present named active inserted =>
    cases call
    refine ⟨?_, early⟩
    rcases mark.nonce r first with kept | expired
    · by_contra alive
      have fresh := (Table.insert_eq_some.mp inserted).1 _
        (Table.mem_delete.mpr ⟨kept, decide_eq_false alive⟩)
      apply fresh
      simp [NonceRow.key, device, nonce]
    · exact expired _ List.mem_cons_self
  | _ => cases accepted <;> cases call

theorem Mark.sound : Sound e (entry (Store.exec crypto) s timed) := by
  have step := @exec_step crypto s timed
  generalize (s.exec crypto timed).2 = s' at step
  constructor
  case once =>
    intro r r' first again device nonce same
    have expired := mark.expired first again device nonce
    have signed := mark.signed r first
    rw [same] at signed
    exact absurd expired.1 (not_le.mpr (window_lt_nonceTTL signed expired.2))
  case nonce =>
    intro r r' first again device nonce
    exact nonceTTL_le (mark.expired first again device nonce).1
  case revoked =>
    intro r revoked later
    rcases mark.revoked r.deviceID revoked with ⟨row, present, named, gone⟩
    simp only [entry, Accepts] at later
    generalize (s.exec crypto timed).1 = answer at step later
    rcases later with ⟨call, device, accepted⟩
    cases step with
    | @authenticate now request row' device' nonces early late present' named' active inserted =>
      cases call
      have same := eq_of_key present present' (named.trans named'.symm)
      rw [same, active] at gone
      cases gone
    | _ => cases accepted <;> cases call
  case single =>
    intro code registered later
    rcases mark.consumed code registered with ⟨row, present, hash, used⟩
    simp only [entry, Registers] at later
    generalize (s.exec crypto timed).1 = answer at step later
    rcases later with ⟨⟨name, publicKey, draw, call⟩, device, accepted⟩
    cases step with
    | @pair now code' name' publicKey' draw' row' device' added devices present' free inserted =>
      cases call
      simp only [Store.consumable, bool_iff] at free
      have same := eq_of_key present present' (hash.trans free.1.1.symm)
      rw [same, Option.isSome_iff_ne_none] at used
      exact used (Option.isNone_iff_eq_none.mp free.1.2)
    | _ => cases accepted <;> cases call
  case expired =>
    intro code expiry created later
    rcases mark.created code expiry created with ⟨row, present, hash, expires⟩
    simp only [entry, Registers] at later ⊢
    generalize (s.exec crypto timed).1 = answer at step later
    rcases later with ⟨⟨name, publicKey, draw, call⟩, device, accepted⟩
    cases step with
    | @pair now code' name' publicKey' draw' row' device' added devices present' free inserted =>
      cases call
      simp only [Store.consumable, bool_iff] at free
      have same := eq_of_key present present' (hash.trans free.1.1.symm)
      have before := free.2
      rw [← same, expires] at before
      by_contra after
      have reached := unixSeconds_mono (not_lt.mp after)
      exact absurd before (not_lt.mpr reached)
    | _ => cases accepted <;> cases call

end

/-- Replay protection over any sequence of calls, from any store. -/
theorem authentication_sound (crypto : Crypto) (s : Store) {calls : List Timed}
    (clock : calls.Pairwise fun a b => a.now ≤ b.now) :
    (transcript (Store.exec crypto) s calls).Pairwise Sound ∧
      ∀ e ∈ transcript (Store.exec crypto) s calls, ∀ r, e.input.call = .authenticate r → ¬ Accepts r e →
        (e.state.exec crypto e.input).2.contacts = e.state.contacts := by
  constructor
  · apply @transcript_pairwise _ _ _ _ (fun _ rest => rest.Pairwise fun a b => a.now ≤ b.now) Sound (Mark crypto)
    · exact fun _ _ _ ordered => (List.pairwise_cons.mp ordered).2
    · exact fun _ _ _ ordered => mark_of_exec ordered
    · exact fun _ _ _ _ mark => mark.step
    · exact fun _ _ _ _ mark => mark.sound
    · exact clock
  intro e member r call refused
  rcases mem_transcript member with ⟨front, back, -, same⟩
  have step := @exec_step crypto e.state e.input
  have answered : (e.state.exec crypto e.input).1 = e.answer := by
    rw [same]
    rfl
  rw [answered] at step
  generalize (e.state.exec crypto e.input).2 = s' at step ⊢
  simp only [Accepts, call, true_and] at refused
  cases kind : e.answer with
  | error message =>
    rw [kind] at step
    rw [step_refused step]
  | ok reply =>
    rw [kind] at step refused
    rw [show e.input = ⟨e.input.now, .authenticate r⟩ by rw [← call]] at step
    cases step with
    | authenticate => exact absurd ⟨_, rfl⟩ refused

def plainCrypto : Crypto := ⟨id, fun _ _ _ => true, id⟩

def pairedID : String := "ed_00000000000000000000000000000000"

def sampleRequest (timestamp : Int) : SignedRequest :=
  ⟨pairedID, timestamp, "nonce-0123456789", "GET", "/v1/edge", [], List.replicate 64 0⟩

/-- A device is paired and sends two requests with one nonce, at 0.9 and at 600 seconds. -/
def twiceCalls : List Timed :=
  [⟨0, .createPairing minute (some (List.replicate 24 0))⟩,
    ⟨0, .pair "ep_000000000000000000000000000000000000000000000000" "laptop" (List.replicate 32 0)
      (some (List.replicate 16 0))⟩,
    ⟨900000000, .authenticate (sampleRequest 1)⟩, ⟨600 * second, .authenticate (sampleRequest 600)⟩]

theorem twiceCalls_ordered : twiceCalls.Pairwise fun a b => a.now ≤ b.now := by decide

theorem twiceCalls_sound : (transcript (Store.exec plainCrypto) Store.new twiceCalls).Pairwise Sound :=
  (authentication_sound plainCrypto Store.new twiceCalls_ordered).1

/-- The clock shows 599.1 seconds between the two uses of the nonce. -/
theorem nonce_twice_within_ttl : (twiceCalls.Pairwise fun a b => a.now ≤ b.now) ∧
    ¬ (transcript (Store.exec plainCrypto) Store.new twiceCalls).Pairwise fun e later =>
      ∀ r r', Accepts r e → Accepts r' later → r.deviceID = r'.deviceID → r.nonce = r'.nonce →
        nonceTTL ≤ later.input.now - e.input.now := by
  refine ⟨twiceCalls_ordered, fun apart => ?_⟩
  have uses := List.pairwise_iff_getElem.mp apart 2 3 (by decide) (by decide) (by decide)
  have gap := uses (sampleRequest 1) (sampleRequest 600) ⟨rfl, ⟨pairedID, "laptop", .active, 0⟩, by decide⟩
    ⟨rfl, ⟨pairedID, "laptop", .active, 0⟩, by decide⟩ rfl rfl
  exact absurd gap (by decide)

end Aeontra.Edge
