import Aeontra.Library.Search
import Aeontra.Workqueue.DevelopmentTypes

/-!
Capabilities, execution classes, attested environments and the authority policy of an
objective.

The named values of the source are constructors here; a text outside the enumeration is
refused by every check that meets it and has no constructor.
-/

namespace Aeontra.Development

open Library Workqueue

def maxEnvironmentCatalogEntries : Nat := 64

abbrev CapabilityID := String

abbrev Requirement := CapabilityID

/-- Letters and digits with single dots and hyphens between them; the flag says that a separator was just
read. -/
def capabilityTail : (separated : Bool) → List Char → Bool
  | separated, [] => !separated
  | separated, c :: rest =>
    if isLowerAlnum c then capabilityTail false rest
    else (c == '.' || c == '-') && !separated && capabilityTail true rest

def validCapabilityID (id : CapabilityID) : Bool :=
  match chars id with
  | [] => false
  | c :: rest => 'a' ≤ c && c ≤ 'z' && capabilityTail false rest

def sourceDigestPattern : Pattern := hexPattern "sha256:" 64 64

def normalizeCapabilityID (raw : String) : Except String CapabilityID := do
  let value := Text.lowerText (Text.trimSpace raw)
  reject (!validCapabilityID value) "development capability id is invalid"
  pure value

structure CapabilitySet where
  ids : List CapabilityID
  deriving DecidableEq

def capabilitySetFromIDs (ids : List CapabilityID) : Except String CapabilitySet := do
  reject (ids.any fun id => !validCapabilityID id) "development capability id is invalid"
  pure ⟨canonical ids⟩

def requirements (raw : List String) : Except String (List Requirement) := do
  let ids ← raw.mapM normalizeCapabilityID
  let set ← capabilitySetFromIDs ids
  pure set.ids

def normalizeRequirementList (requirements : List Requirement) : Except String (List Requirement) := do
  reject (requirements.any fun id => !validCapabilityID id)
    "development capability requirement is invalid"
  let set ← capabilitySetFromIDs requirements
  pure set.ids

theorem normalizeRequirementList_eq_ok {requirements normalized : List Requirement} :
    normalizeRequirementList requirements = .ok normalized ↔
      (∀ id ∈ requirements, validCapabilityID id = true) ∧ normalized = canonical requirements := by
  simp only [normalizeRequirementList, capabilitySetFromIDs, ok_iff, List.any_eq_false, Bool.not_eq_true',
    Bool.not_eq_false]
  constructor
  · rintro ⟨-, valid, _, ⟨-, -, rfl⟩, rfl⟩
    exact ⟨valid, rfl⟩
  · rintro ⟨valid, rfl⟩
    exact ⟨(), valid, _, ⟨(), valid, rfl⟩, rfl⟩

def canonicalCapabilityIDs (ids : List CapabilityID) : Except String (List CapabilityID) := do
  let set ← capabilitySetFromIDs ids
  pure set.ids

def CapabilitySet.has (s : CapabilitySet) (id : CapabilityID) : Bool :=
  validCapabilityID id && searchFinds s.ids id

def CapabilitySet.missing (s : CapabilitySet) (requirements : List Requirement) : List CapabilityID :=
  (requirements.filter fun id => !s.has id).insertionSort (· ≤ ·)

def zeroTerminated (values : List String) : String := String.join (values.map (· ++ "\x00"))

def CapabilitySet.digest (s : CapabilitySet) : String :=
  payloadDigest ("aeontra-development-capability-set-v1\x00" ++ zeroTerminated s.ids)

abbrev AuthorityTier := Nat

def tierL3Sandbox : AuthorityTier := 1
def tierIsolatedRunner : AuthorityTier := 7

inductive ExecutionClass where
  | l3Sandbox | workcell | managedToolchain | toolbox | rootlessRuntime | brokeredPrivileged
  | isolatedRunner | externalValidationRunner
  deriving DecidableEq

def ExecutionClass.text : ExecutionClass → String
  | .l3Sandbox => "l3-sandbox"
  | .workcell => "workcell"
  | .managedToolchain => "managed-toolchain"
  | .toolbox => "toolbox"
  | .rootlessRuntime => "rootless-runtime"
  | .brokeredPrivileged => "brokered-privileged"
  | .isolatedRunner => "isolated-runner"
  | .externalValidationRunner => "external-validation-runner"

def ExecutionClass.tier : ExecutionClass → AuthorityTier
  | .l3Sandbox => 1
  | .workcell => 2
  | .managedToolchain => 3
  | .toolbox => 4
  | .rootlessRuntime => 5
  | .brokeredPrivileged => 6
  | .isolatedRunner | .externalValidationRunner => 7

theorem ExecutionClass.text_injective : Function.Injective ExecutionClass.text := by
  intro a b same
  cases a <;> cases b <;> first | rfl | simp [ExecutionClass.text] at same

structure EnvironmentAttestation where
  environmentID : String
  executionClass : ExecutionClass
  generation : Nat
  capabilities : CapabilitySet
  digest : String
  deriving DecidableEq

def attestationDigest (a : EnvironmentAttestation) : String :=
  payloadDigest ("aeontra-development-capability-attestation-v1\x00" ++
    zeroTerminated [a.environmentID, a.executionClass.text, toString a.generation] ++
    a.capabilities.digest)

def EnvironmentAttestation.valid (a : EnvironmentAttestation) : Bool :=
  identityPattern.matchString a.environmentID && a.generation ≠ 0 &&
    (match capabilitySetFromIDs a.capabilities.ids with
    | .ok canonical => canonical.digest = a.capabilities.digest
    | .error _ => false) && a.digest = attestationDigest a

structure ResolutionPolicy where
  maxTier : AuthorityTier
  allowed : List ExecutionClass
  deriving DecidableEq

def newResolutionPolicy (maxTier : AuthorityTier) (allowed : List ExecutionClass) :
    Except String ResolutionPolicy := do
  reject (maxTier < tierL3Sandbox || maxTier > tierIsolatedRunner || allowed.isEmpty ||
    allowed.any fun c => c.tier > maxTier) "development resolution policy is invalid"
  pure ⟨maxTier, allowed.dedup.insertionSort (fun a b => a.text ≤ b.text)⟩

def ResolutionPolicy.allowsClass (p : ResolutionPolicy) (c : ExecutionClass) : Bool :=
  c.tier ≤ p.maxTier && searchFinds (p.allowed.map ExecutionClass.text) c.text

def ResolutionPolicy.allows (p : ResolutionPolicy) (a : EnvironmentAttestation) : Bool :=
  a.valid && p.allowsClass a.executionClass

def ResolutionPolicy.valid (p : ResolutionPolicy) : Bool :=
  tierL3Sandbox ≤ p.maxTier && p.maxTier ≤ tierIsolatedRunner && !p.allowed.isEmpty &&
    (p.allowed.all fun c => c.tier ≤ p.maxTier) && ascending (p.allowed.map ExecutionClass.text)

end Aeontra.Development
