import Aeontra.Development.Capability
import Aeontra.Library.Least

/-!
Resolution of a step: the lowest-authority environment inside the policy that satisfies every
requirement.
-/

namespace Aeontra.Development

open Library Workqueue List

structure Resolution where
  environment : EnvironmentAttestation
  migrated : Bool
  deriving DecidableEq

structure ResolutionCandidate where
  environment : EnvironmentAttestation
  tier : AuthorityTier
  missing : List CapabilityID
  deriving DecidableEq

/-- Fewer missing capabilities first, then the lower tier, the class and the identity. -/
def ResolutionCandidate.before (left right : ResolutionCandidate) : Bool :=
  if left.missing.length ≠ right.missing.length then left.missing.length < right.missing.length
  else if left.tier ≠ right.tier then left.tier < right.tier
  else if left.environment.executionClass ≠ right.environment.executionClass then
    left.environment.executionClass.text < right.environment.executionClass.text
  else left.environment.environmentID < right.environment.environmentID

/-- The text of a resolution failure; the capabilities are written as `%v` writes a slice. -/
def resolutionError (reason : String) (missing : List CapabilityID) : String :=
  if missing.isEmpty then "no compatible development environment: " ++ reason
  else "no compatible development environment: " ++ reason ++ " missing=[" ++
    " ".intercalate missing ++ "]"

/-- One candidate: the identities seen so far with their digests, and the eligible ones. -/
def admitCandidate (policy : ResolutionPolicy) (required : List Requirement)
    (scan : List (String × String) × List ResolutionCandidate) (candidate : EnvironmentAttestation) :
    Except String (List (String × String) × List ResolutionCandidate) := do
  reject (!candidate.valid) "development environment attestation is invalid"
  match scan.1.lookup candidate.environmentID with
  | some digest =>
    reject (digest ≠ candidate.digest) "development environment generation is ambiguous"
    pure scan
  | none =>
    let seen := (candidate.environmentID, candidate.digest) :: scan.1
    if !policy.allows candidate then pure (seen, scan.2)
    else pure (seen, scan.2 ++ [⟨candidate, candidate.executionClass.tier,
      candidate.capabilities.missing required⟩])

def keepCurrent (policy : ResolutionPolicy) (required : List Requirement) :
    Option EnvironmentAttestation → Except String (Option Resolution)
  | none => .ok none
  | some current => do
    reject (!current.valid) "current development environment attestation is invalid"
    if policy.allows current && (current.capabilities.missing required).isEmpty then
      pure (some ⟨current, false⟩)
    else pure none

def chooseCandidate (required : List Requirement) (current : Option EnvironmentAttestation)
    (eligible : List ResolutionCandidate) : Except String Resolution :=
  match eligible.insertionSort (fun left right => !right.before left) with
  | [] => .error (resolutionError "policy" required)
  | best :: _ => do
    reject (!best.missing.isEmpty) (resolutionError "capabilities" best.missing)
    pure ⟨best.environment, current.any fun c => c.digest ≠ best.environment.digest⟩

def resolve (requirements : List Requirement) (current : Option EnvironmentAttestation)
    (candidates : List EnvironmentAttestation) (policy : ResolutionPolicy) :
    Except String Resolution := do
  reject (!policy.valid) "development resolution policy is invalid"
  let normalized ← normalizeRequirementList requirements
  let kept ← keepCurrent policy normalized current
  match kept with
  | some resolution => pure resolution
  | none =>
    let scan ← candidates.foldlM (admitCandidate policy normalized) ([], [])
    chooseCandidate normalized current scan.2

variable {policy : ResolutionPolicy} {required : List Requirement}
  {candidates : List EnvironmentAttestation} {current : Option EnvironmentAttestation}
  {resolution : Resolution}

theorem mem_admitCandidate {scan scan' : List (String × String) × List ResolutionCandidate}
    {candidate : EnvironmentAttestation} {c : ResolutionCandidate}
    (step : admitCandidate policy required scan candidate = .ok scan') (member : c ∈ scan'.2) :
    c ∈ scan.2 ∨ c.environment = candidate ∧ policy.allows candidate = true := by
  simp only [admitCandidate, ok_iff] at step
  obtain ⟨-, -, step⟩ := step
  split at step
  · simp only [ok_iff] at step
    obtain ⟨-, -, rfl⟩ := step
    exact .inl member
  split at step
  · simp only [ok_iff] at step
    subst step
    exact .inl member
  rename_i passes
  simp only [ok_iff] at step
  subst step
  rcases mem_append.mp member with earlier | added
  · exact .inl earlier
  · rw [mem_singleton.mp added]
    exact .inr ⟨rfl, by simpa using passes⟩

theorem eligible_spec {scan : List (String × String) × List ResolutionCandidate}
    (scanned : candidates.foldlM (admitCandidate policy required) ([], []) = .ok scan) :
    ∀ c ∈ scan.2, c.environment ∈ candidates ∧ policy.allows c.environment = true := by
  apply foldlM_keeps (P := fun scan => ∀ c ∈ scan.2, c.environment ∈ candidates ∧
    policy.allows c.environment = true) _ (by simp) scanned
  intro before candidate after inside held step c member
  rcases mem_admitCandidate step member with earlier | ⟨same, allowed⟩
  · exact held c earlier
  · rw [same]
    exact ⟨inside, allowed⟩

theorem keepCurrent_allowed (run : keepCurrent policy required current = .ok (some resolution)) :
    policy.allows resolution.environment = true := by
  cases current with
  | none => simp [keepCurrent] at run
  | some current =>
    simp only [keepCurrent, ok_iff] at run
    obtain ⟨-, -, run⟩ := run
    split at run
    · rename_i good
      simp only [ok_iff, Option.some.injEq] at run
      subst run
      exact (Bool.and_eq_true_iff.mp good).1
    · simp at run

theorem chooseCandidate_mem {eligible : List ResolutionCandidate}
    (run : chooseCandidate required current eligible = .ok resolution) :
    ∃ best ∈ eligible, resolution.environment = best.environment := by
  unfold chooseCandidate at run
  split at run
  · cases run
  rename_i best rest sorted
  simp only [ok_iff] at run
  obtain ⟨-, -, rfl⟩ := run
  refine ⟨best, ?_, rfl⟩
  have first : best ∈ eligible.insertionSort (fun left right => !right.before left) := by
    rw [sorted]
    exact mem_cons_self
  exact (perm_insertionSort _ _).mem_iff.mp first

theorem resolve_allowed {requirements : List Requirement}
    (run : resolve requirements current candidates policy = .ok resolution) :
    policy.allows resolution.environment = true := by
  simp only [resolve, ok_iff] at run
  obtain ⟨-, -, normalized, -, kept, keeps, run⟩ := run
  cases kept with
  | some held =>
    simp only [ok_iff] at run
    subst run
    exact keepCurrent_allowed keeps
  | none =>
    simp only [ok_iff] at run
    obtain ⟨scan, scanned, chosen⟩ := run
    obtain ⟨best, member, same⟩ := chooseCandidate_mem chosen
    rw [same]
    exact (eligible_spec scanned best member).2

theorem resolve_mem {requirements : List Requirement}
    (run : resolve requirements none candidates policy = .ok resolution) :
    resolution.environment ∈ candidates := by
  simp only [resolve, keepCurrent, ok_iff, Except.ok.injEq] at run
  obtain ⟨-, -, normalized, -, kept, same, run⟩ := run
  subst same
  simp only [ok_iff] at run
  obtain ⟨scan, scanned, chosen⟩ := run
  obtain ⟨best, member, same⟩ := chooseCandidate_mem chosen
  rw [same]
  exact (eligible_spec scanned best member).1

def Suits (policy : ResolutionPolicy) (required : List Requirement) (e : EnvironmentAttestation) : Prop :=
  (e.executionClass.tier ≤ policy.maxTier ∧ e.executionClass ∈ policy.allowed) ∧
    ∀ id ∈ required, id ∈ e.capabilities.ids

def EnvironmentAttestation.authority (e : EnvironmentAttestation) : ℕ ×ₗ String ×ₗ String :=
  toLex (e.executionClass.tier, toLex (e.executionClass.text, e.environmentID))

/-- Attested candidates, their capability sets canonical, that agree on each environment. -/
structure Catalog (candidates : List EnvironmentAttestation) : Prop where
  valid : ∀ e ∈ candidates, e.valid = true
  canonical : ∀ e ∈ candidates, e.capabilities.ids.Pairwise (· < ·)
  consistent : ∀ a ∈ candidates, ∀ b ∈ candidates, a.environmentID = b.environmentID → a = b

def candidateOf (required : List Requirement) (e : EnvironmentAttestation) : ResolutionCandidate :=
  ⟨e, e.executionClass.tier, e.capabilities.missing required⟩

def ResolutionCandidate.key (c : ResolutionCandidate) : ℕ ×ₗ ℕ ×ₗ String ×ₗ String :=
  toLex (c.missing.length, toLex (c.tier, toLex (c.environment.executionClass.text, c.environment.environmentID)))

theorem candidate_byKey (left right : ResolutionCandidate) :
    (!right.before left) = true ↔ left.key ≤ right.key := by
  have less : right.before left = true ↔ right.key < left.key := by
    simp only [ResolutionCandidate.before, ResolutionCandidate.key, Prod.Lex.toLex_lt_toLex]
    split
    · rename_i different
      simp [different]
    rename_i count
    split
    · rename_i different
      simp [not_not.mp count, different]
    rename_i tier
    split
    · rename_i different
      simp [not_not.mp count, not_not.mp tier, ExecutionClass.text_injective.ne different]
    · rename_i same
      simp [not_not.mp count, not_not.mp tier, not_not.mp same]
  rw [Bool.not_eq_true', ← Bool.not_eq_true, less, not_lt]

section

variable {e : EnvironmentAttestation} {requirements : List Requirement}

theorem allows_iff (sound : policy.valid = true) (valid : e.valid = true) :
    policy.allows e = true ↔ e.executionClass.tier ≤ policy.maxTier ∧ e.executionClass ∈ policy.allowed := by
  simp only [ResolutionPolicy.valid, bool_iff] at sound
  have sorted := ascending_iff.mp sound.2
  simp only [ResolutionPolicy.allows, ResolutionPolicy.allowsClass, valid, bool_iff, searchFinds_iff sorted,
    true_and, List.mem_map_of_injective ExecutionClass.text_injective]

theorem validCapabilityID_of_mem (valid : e.valid = true) {id : CapabilityID}
    (inside : id ∈ e.capabilities.ids) : validCapabilityID id = true := by
  simp only [EnvironmentAttestation.valid, bool_iff] at valid
  have canonical := valid.1.2
  split at canonical
  · rename_i made
    simp only [capabilitySetFromIDs, ok_iff, any_eq_false, bool_iff] at made
    obtain ⟨-, valids, -⟩ := made
    simpa using valids id inside
  · cases canonical

theorem missing_eq_nil (valid : e.valid = true) (sorted : e.capabilities.ids.Pairwise (· < ·)) :
    e.capabilities.missing required = [] ↔ ∀ id ∈ required, id ∈ e.capabilities.ids := by
  have same : e.capabilities.missing required = [] ↔ required.filter (fun id => !e.capabilities.has id) = [] := by
    rw [← length_eq_zero_iff, CapabilitySet.missing, (perm_insertionSort _ _).length_eq, length_eq_zero_iff]
  rw [same, filter_eq_nil_iff]
  refine forall₂_congr fun id _ => ?_
  simp only [CapabilitySet.has, bool_iff, Bool.not_eq_false, searchFinds_iff sorted]
  exact ⟨fun both => both.2, fun inside => ⟨validCapabilityID_of_mem valid inside, inside⟩⟩

structure Scanned (policy : ResolutionPolicy) (required : List Requirement) (done : List EnvironmentAttestation)
    (scan : List (String × String) × List ResolutionCandidate) : Prop where
  seen : ∀ e, e ∈ done → scan.1.lookup e.environmentID = some e.digest
  unseen : ∀ id, (∀ e ∈ done, e.environmentID ≠ id) → scan.1.lookup id = none
  eligible : ∀ c, c ∈ scan.2 ↔ ∃ e ∈ done, policy.allows e = true ∧ c = candidateOf required e
  distinct : scan.2.Nodup

theorem admitCandidate_scanned {done : List EnvironmentAttestation}
    {scan : List (String × String) × List ResolutionCandidate} (catalog : Catalog (done ++ [e]))
    (scanned : Scanned policy required done scan) :
    ∃ scan', admitCandidate policy required scan e = .ok scan' ∧ Scanned policy required (done ++ [e]) scan' := by
  have valid := catalog.valid e (by simp)
  by_cases old : ∃ d ∈ done, d.environmentID = e.environmentID
  · obtain ⟨d, inside, same⟩ := old
    obtain rfl := catalog.consistent d (by simp [inside]) e (by simp) same
    refine ⟨scan, by simp [admitCandidate, valid, scanned.seen d inside], ?_⟩
    have members : ∀ x, x ∈ done ++ [d] ↔ x ∈ done := by
      intro x
      simp only [mem_append, mem_singleton, or_iff_left_iff_imp]
      rintro rfl
      exact inside
    refine ⟨fun x among => scanned.seen x ((members x).mp among), fun id none => scanned.unseen id ?_, ?_,
      scanned.distinct⟩
    · exact fun x among => none x ((members x).mpr among)
    · simpa only [members] using scanned.eligible
  · have fresh : ∀ d ∈ done, d.environmentID ≠ e.environmentID := by simpa using old
    have lookup := scanned.unseen e.environmentID fresh
    have unlisted : candidateOf required e ∉ scan.2 := by
      intro listed
      obtain ⟨d, inside, -, same⟩ := (scanned.eligible _).mp listed
      exact fresh d inside (congrArg (·.environment.environmentID) same).symm
    refine ⟨((e.environmentID, e.digest) :: scan.1, if policy.allows e then scan.2 ++ [candidateOf required e]
      else scan.2), ?_, ?_, ?_, ?_, ?_⟩
    · cases allowed : policy.allows e <;> simp [admitCandidate, valid, lookup, allowed, candidateOf]
    · intro x among
      rcases mem_append.mp among with inside | last
      · rw [lookup_cons, beq_false_of_ne (fresh x inside)]
        exact scanned.seen x inside
      · rw [mem_singleton.mp last, lookup_cons_self]
    · intro id none
      rw [lookup_cons, beq_false_of_ne (none e (by simp)).symm]
      exact scanned.unseen id fun x inside => none x (by simp [inside])
    · intro c
      cases allowed : policy.allows e <;>
        simp [scanned.eligible, allowed, or_and_right, exists_or]
    · split
      · simpa using scanned.distinct.concat unlisted
      · exact scanned.distinct

theorem foldlM_scanned {done rest : List EnvironmentAttestation}
    {scan : List (String × String) × List ResolutionCandidate} (catalog : Catalog (done ++ rest))
    (scanned : Scanned policy required done scan) :
    ∃ scan', rest.foldlM (admitCandidate policy required) scan = .ok scan' ∧
      Scanned policy required (done ++ rest) scan' := by
  induction rest generalizing done scan with
  | nil => exact ⟨scan, rfl, by simpa using scanned⟩
  | cons e rest ih =>
    rw [append_cons] at catalog ⊢
    have part : Catalog (done ++ [e]) :=
      ⟨fun a among => catalog.valid a (mem_append_left _ among),
        fun a among => catalog.canonical a (mem_append_left _ among),
        fun a left b right => catalog.consistent a (mem_append_left _ left) b (mem_append_left _ right)⟩
    obtain ⟨middle, first, scanned⟩ := admitCandidate_scanned part scanned
    obtain ⟨scan', run, scanned⟩ := ih catalog scanned
    refine ⟨scan', ?_, scanned⟩
    rw [foldlM_cons, first]
    exact run

theorem resolve_eq (sound : policy.valid = true) (catalog : Catalog candidates)
    (valid : ∀ id ∈ requirements, validCapabilityID id = true) :
    ∃ eligible : List ResolutionCandidate, eligible.Nodup ∧
      (∀ c, c ∈ eligible ↔ ∃ e ∈ candidates, policy.allows e = true ∧ c = candidateOf (canonical requirements) e) ∧
      resolve requirements none candidates policy = chooseCandidate (canonical requirements) none eligible := by
  have start : Scanned policy (canonical requirements) [] ([], []) := ⟨by simp, by simp, by simp, by simp⟩
  have whole : Catalog ([] ++ candidates) := catalog
  obtain ⟨scan, run, scanned⟩ := foldlM_scanned whole start
  refine ⟨scan.2, scanned.distinct, scanned.eligible, ?_⟩
  simp [resolve, sound, normalizeRequirementList_eq_ok.mpr ⟨valid, rfl⟩, keepCurrent, run]

end

theorem chooseCandidate_of_head {eligible : List ResolutionCandidate} {best : ResolutionCandidate}
    (head : (eligible.insertionSort fun left right => !right.before left).head? = some best) :
    chooseCandidate required none eligible = if best.missing = [] then .ok ⟨best.environment, false⟩
      else .error (resolutionError "capabilities" best.missing) := by
  obtain ⟨rest, sorted⟩ := head?_eq_some_iff.mp head
  rw [chooseCandidate, sorted]
  cases none : best.missing <;> simp [none]

theorem resolve_least (policy : ResolutionPolicy) (requirements : List Requirement)
    (candidates : List EnvironmentAttestation) (sound : policy.valid = true) (catalog : Catalog candidates) :
    ((∃ e ∈ candidates, Suits policy requirements e) →
      ∃ e ∈ candidates, Suits policy requirements e ∧
        resolve requirements none candidates policy = .ok ⟨e, false⟩ ∧
        ∀ d ∈ candidates, Suits policy requirements d → e.authority ≤ d.authority) ∧
    ((¬ ∃ e ∈ candidates, Suits policy requirements e) →
      ∃ message, resolve requirements none candidates policy = .error message) ∧
    ∀ other : List EnvironmentAttestation, (∀ e, e ∈ other ↔ e ∈ candidates) →
      resolve requirements none other policy = resolve requirements none candidates policy := by
  by_cases valid : ∀ id ∈ requirements, validCapabilityID id = true
  · obtain ⟨eligible, distinct, members, run⟩ := resolve_eq sound catalog valid
    have least := leastBy_head candidate_byKey eligible
    have suits : ∀ e ∈ candidates, Suits policy requirements e ↔
        policy.allows e = true ∧ (candidateOf (canonical requirements) e).missing = [] := by
      intro e inside
      rw [allows_iff sound (catalog.valid e inside), candidateOf,
        missing_eq_nil (catalog.valid e inside) (catalog.canonical e inside)]
      simp [Suits]
    have offered : ∀ d ∈ candidates, Suits policy requirements d →
        candidateOf (canonical requirements) d ∈ eligible :=
      fun d inside suitable => (members _).mpr ⟨d, inside, ((suits d inside).mp suitable).1, rfl⟩
    rw [run]
    refine ⟨?_, ?_, ?_⟩
    · rintro ⟨d, inside, suitable⟩
      cases head : (eligible.insertionSort fun left right => !right.before left).head? with
      | none =>
        rw [head] at least
        exact absurd (offered d inside suitable) (by simp [show eligible = [] from least])
      | some best =>
        rw [head] at least
        obtain ⟨e, among, allowed, rfl⟩ := (members best).mp least.1
        have complete : (candidateOf (canonical requirements) e).missing = [] := by
          have count := Prod.Lex.monotone_fst _ _ (least.2 _ (offered d inside suitable))
          change _ ≤ (candidateOf (canonical requirements) d).missing.length at count
          rw [((suits d inside).mp suitable).2] at count
          exact eq_nil_of_length_eq_zero (Nat.le_zero.mp count)
        refine ⟨e, among, (suits e among).mpr ⟨allowed, complete⟩, by
          rw [chooseCandidate_of_head head, if_pos complete, candidateOf], ?_⟩
        intro d inside suitable
        have up := least.2 _ (offered d inside suitable)
        have none := ((suits d inside).mp suitable).2
        rw [ResolutionCandidate.key, ResolutionCandidate.key, complete, none, Prod.Lex.toLex_le_toLex] at up
        exact (up.resolve_left (lt_irrefl _)).2
    · intro nobody
      cases head : (eligible.insertionSort fun left right => !right.before left).head? with
      | none =>
        rw [chooseCandidate, head?_eq_none_iff.mp head]
        exact ⟨_, rfl⟩
      | some best =>
        rw [head] at least
        obtain ⟨e, among, allowed, rfl⟩ := (members best).mp least.1
        rw [chooseCandidate_of_head head, if_neg]
        · exact ⟨_, rfl⟩
        · exact fun complete => nobody ⟨e, among, (suits e among).mpr ⟨allowed, complete⟩⟩
    · intro other same
      have catalog' : Catalog other :=
        ⟨fun a inside => catalog.valid a ((same a).mp inside), fun a inside => catalog.canonical a ((same a).mp inside),
          fun a left b right => catalog.consistent a ((same a).mp left) b ((same b).mp right)⟩
      obtain ⟨eligible', distinct', members', run'⟩ := resolve_eq sound catalog' valid
      have perm : eligible'.Perm eligible := by
        refine (perm_ext_iff_of_nodup distinct' distinct).mpr fun c => ?_
        rw [members, members']
        simp only [same]
      rw [run', chooseCandidate, chooseCandidate, insertionSort_congr candidate_byKey ?_ perm]
      intro a left b right keys
      obtain ⟨d, inside, -, rfl⟩ := (members a).mp left
      obtain ⟨e, among, -, rfl⟩ := (members b).mp right
      have ids : d.environmentID = e.environmentID := congrArg (fun k => (ofLex (ofLex (ofLex k).2).2).2) keys
      rw [catalog.consistent d inside e among ids]
  · have failed : ∃ message, normalizeRequirementList requirements = .error message := by
      cases normal : normalizeRequirementList requirements with
      | error message => exact ⟨message, rfl⟩
      | ok normalized => exact absurd (normalizeRequirementList_eq_ok.mp normal).1 valid
    obtain ⟨message, failed⟩ := failed
    have stops : ∀ candidates, resolve requirements none candidates policy = .error message := by
      intro candidates
      simp [resolve, sound, failed]
    refine ⟨?_, fun _ => ⟨message, stops candidates⟩, fun other _ => by rw [stops, stops]⟩
    rintro ⟨e, inside, -, has⟩
    exact absurd (fun id wanted => validCapabilityID_of_mem (catalog.valid e inside) (has id wanted)) valid

def sampleEnvironment : EnvironmentAttestation :=
  ⟨"env", .l3Sandbox, 1, ⟨[]⟩, "sha256:d66bd440f0bdd5a139bdc9d70b93158cd37f0afa38d6da36b022def543319f4e"⟩

def sampleToolbox : EnvironmentAttestation :=
  ⟨"tools", .toolbox, 1, ⟨["git", "go"]⟩, "sha256:f7a3cbead79bcfc4019795910ca11bff567b4cbeb49ed708a2180af65bf543d3"⟩

def sampleCell : EnvironmentAttestation :=
  ⟨"cell", .workcell, 1, ⟨["git"]⟩, "sha256:de4dafdb10372bd8d69d3b78e469a519ef3deb1eb295ff177bd003d53a538a6f"⟩

/-- A sandbox with nothing in it, and two environments with git. -/
def sampleCatalog : List EnvironmentAttestation := [sampleEnvironment, sampleToolbox, sampleCell]

theorem sampleCatalog_catalog : Catalog sampleCatalog where
  valid := by decide +kernel
  canonical := by decide +kernel
  consistent := by decide +kernel

theorem resolve_least_sample :
    ∃ e ∈ sampleCatalog, Suits ⟨4, [.l3Sandbox, .toolbox, .workcell]⟩ ["git"] e ∧
      resolve ["git"] none sampleCatalog ⟨4, [.l3Sandbox, .toolbox, .workcell]⟩ = .ok ⟨e, false⟩ ∧
      e.authority ≤ sampleToolbox.authority := by
  have suits : Suits ⟨4, [.l3Sandbox, .toolbox, .workcell]⟩ ["git"] sampleToolbox :=
    ⟨by decide, by simp [sampleToolbox]⟩
  have member : sampleToolbox ∈ sampleCatalog := by simp [sampleCatalog]
  obtain ⟨e, inside, fits, run, least⟩ := (resolve_least ⟨4, [.l3Sandbox, .toolbox, .workcell]⟩ ["git"] sampleCatalog
    (by decide) sampleCatalog_catalog).1 ⟨_, member, suits⟩
  exact ⟨e, inside, fits, run, least _ member suits⟩

theorem eligible_missing {scan : List (String × String) × List ResolutionCandidate}
    (scanned : candidates.foldlM (admitCandidate policy required) ([], []) = .ok scan) :
    ∀ c ∈ scan.2, c.missing = c.environment.capabilities.missing required := by
  apply foldlM_keeps (P := fun scan => ∀ c ∈ scan.2, c.missing = c.environment.capabilities.missing required) _
    (by simp) scanned
  intro before candidate after inside held step c member
  simp only [admitCandidate, ok_iff] at step
  obtain ⟨-, -, step⟩ := step
  split at step
  · simp only [ok_iff] at step
    exact held c (step.choose_spec.2 ▸ member)
  split at step <;> (simp only [ok_iff] at step; subst step)
  · exact held c member
  · rcases mem_append.mp member with earlier | added
    · exact held c earlier
    · rw [mem_singleton.mp added]

theorem keepCurrent_whole (run : keepCurrent policy required current = .ok (some resolution)) :
    resolution.environment.capabilities.missing required = [] := by
  cases current with
  | none => simp [keepCurrent] at run
  | some current =>
    simp only [keepCurrent, ok_iff] at run
    obtain ⟨-, -, run⟩ := run
    split at run
    · rename_i good
      simp only [ok_iff, Option.some.injEq] at run
      subst run
      exact isEmpty_iff.mp (Bool.and_eq_true_iff.mp good).2
    · simp at run

/-- What was resolved stays resolved: as long as the requirements and the policy are the same, the
environment is kept, whatever the candidates are by then. -/
theorem resolve_stable {requirements : List Requirement}
    (run : resolve requirements current candidates policy = .ok resolution) (later : List EnvironmentAttestation) :
    resolve requirements (some resolution.environment) later policy = .ok ⟨resolution.environment, false⟩ := by
  have allowed := resolve_allowed run
  have valid : resolution.environment.valid = true := (Bool.and_eq_true_iff.mp allowed).1
  simp only [resolve, ok_iff] at run
  obtain ⟨-, sound, normalized, normal, kept, keeps, run⟩ := run
  have whole : resolution.environment.capabilities.missing normalized = [] := by
    cases kept with
    | some held =>
      simp only [ok_iff] at run
      subst run
      exact keepCurrent_whole keeps
    | none =>
      simp only [ok_iff] at run
      obtain ⟨scan, scanned, chosen⟩ := run
      unfold chooseCandidate at chosen
      split at chosen
      · cases chosen
      rename_i best rest sorted
      simp only [ok_iff] at chosen
      obtain ⟨-, full, rfl⟩ := chosen
      have first : best ∈ scan.2 := (perm_insertionSort _ _).mem_iff.mp (sorted ▸ mem_cons_self)
      exact eligible_missing scanned best first ▸ isEmpty_iff.mp full
  simp [resolve, sound, normal, keepCurrent, valid, allowed, whole]

/-- The cell stays resolved when only the toolbox is on offer. -/
theorem resolve_stable_sample :
    resolve ["git"] (some sampleCell) [sampleToolbox]
      ⟨4, [.l3Sandbox, .toolbox, .workcell]⟩ = .ok ⟨sampleCell, false⟩ := by
  have run : resolve ["git"] none [sampleCell] ⟨4, [.l3Sandbox, .toolbox, .workcell]⟩ =
      .ok ⟨sampleCell, false⟩ := by
    decide +kernel
  exact resolve_stable run [sampleToolbox]

end Aeontra.Development
