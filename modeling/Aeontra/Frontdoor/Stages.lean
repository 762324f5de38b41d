import Aeontra.Library.FileTree
import Aeontra.Frontdoor.Coordinator

/-!
The five managed topologies as stages on one line.

A cutover walks the line from `initial` to `assigned`, a rollback walks it back.  A topology is a
text of the platform that *reads as* a stage.
-/

namespace Aeontra.Frontdoor

open Library List

inductive Stage
  | initial
  | added
  | switched
  | released
  | assigned
  deriving DecidableEq

namespace Stage

def front : Stage → String
  | .assigned => frontPublicOrigin
  | _ => frontTemporaryOrigin

def backendURL : Stage → String
  | .initial | .added => frontPublicOrigin
  | .switched | .released | .assigned => backendOrigin

def origins : Stage → List (List Char)
  | .initial => [chars frontPublicOrigin]
  | .added | .switched => [chars backendOrigin, chars frontPublicOrigin]
  | .released | .assigned => [chars backendOrigin]

def final : Target → Stage
  | .cutover => .assigned
  | _ => .initial

def phase : Target → Stage → Phase
  | .cutover, .initial => .addBackendOrigin
  | .cutover, .added => .switchFrontBackend
  | .cutover, .switched => .releasePublicBackend
  | .cutover, .released => .assignPublicFront
  | .rollback, .assigned => .moveFrontTemporary
  | .rollback, .released => .restorePublicBackend
  | .rollback, .switched => .switchFrontPublicBackend
  | .rollback, .added => .removeAlternateBackend
  | _, _ => .complete

def advance : Target → Stage → Stage
  | .cutover, .initial => .added
  | .cutover, .added => .switched
  | .cutover, .switched => .released
  | .cutover, .released => .assigned
  | .rollback, .assigned => .released
  | .rollback, .released => .switched
  | .rollback, .switched => .added
  | .rollback, .added => .initial
  | _, stage => stage

end Stage

structure Topology.Reads (t : Topology) (stage : Stage) : Prop where
  front : trimmed t.frontDomain = chars stage.front
  backendURL : trimmed t.frontBackendURL = chars stage.backendURL
  backend : normalizeDomains t.backendDomains = [','].intercalate stage.origins

def Topology.Managed (t : Topology) : Prop := ∃ stage, t.Reads stage

/-- A topology's front and backend share no public origin, and its front reaches its backend. -/
structure Topology.Consistent (t : Topology) : Prop where
  separated : trimmed t.frontDomain = chars frontPublicOrigin → chars frontPublicOrigin ∉ domains t.backendDomains
  routed : trimmed t.frontBackendURL ∈ domains t.backendDomains

theorem front_ne_temporary : chars frontPublicOrigin ≠ chars frontTemporaryOrigin := by decide

set_option maxRecDepth 2000 in
theorem normalize_both :
    normalizeDomains (frontPublicOrigin ++ "," ++ backendOrigin) =
      [','].intercalate [chars backendOrigin, chars frontPublicOrigin] := by decide

set_option maxRecDepth 2000 in
theorem normalize_swapped :
    normalizeDomains (backendOrigin ++ "," ++ frontPublicOrigin) =
      [','].intercalate [chars backendOrigin, chars frontPublicOrigin] := by decide

theorem normalize_backend : normalizeDomains backendOrigin = [','].intercalate [chars backendOrigin] := by decide

theorem normalize_public : normalizeDomains frontPublicOrigin = [','].intercalate [chars frontPublicOrigin] := by
  decide

theorem trimmed_public : trimmed frontPublicOrigin = chars frontPublicOrigin := by decide

theorem trimmed_temporary : trimmed frontTemporaryOrigin = chars frontTemporaryOrigin := by decide

theorem trimmed_backend : trimmed backendOrigin = chars backendOrigin := by decide

theorem mem_of_mem_trim {drops : Char → Bool} {c : Char} {text : List Char} (inside : c ∈ Text.trim drops text) :
    c ∈ text := by
  have kept := (dropWhile_sublist drops).mem (List.mem_reverse.mp inside)
  exact (dropWhile_sublist drops).mem (List.mem_reverse.mp kept)

theorem comma_not_mem_domains {raw : String} {part : List Char} (member : part ∈ domains raw) : ',' ∉ part := by
  obtain ⟨untrimmed, split, rfl⟩ := List.mem_map.mp member
  exact fun inside => absurd (sep_of_mem_splitOnP split ',' (mem_of_mem_trim inside)) (by decide)

theorem ordered_perm (parts : List (List Char)) : (ordered parts).Perm parts := by
  unfold ordered
  split
  · split
    · exact List.Perm.swap _ _ _
    · exact List.Perm.refl _
  · exact List.Perm.refl _

theorem domains_ne_nil (raw : String) : domains raw ≠ [] := by
  intro none
  exact splitOn_ne_nil _ _ (List.map_eq_nil_iff.mp none)

theorem domains_perm {raw : String} {origins : List (List Char)} (nonempty : origins ≠ [])
    (clean : ∀ origin ∈ origins, ',' ∉ origin) (written : [','].intercalate origins ≠ [])
    (same : normalizeDomains raw = [','].intercalate origins) : (domains raw).Perm origins := by
  unfold normalizeDomains at same
  split at same
  · exact absurd same.symm written
  have split := congrArg (List.splitOn ',') same
  rw [splitOn_intercalate ',' _ _, splitOn_intercalate ',' clean nonempty] at split
  · exact split ▸ (ordered_perm _).symm
  · intro part member
    exact comma_not_mem_domains ((ordered_perm _).mem_iff.mp member)
  intro empty
  have none := ordered_perm (domains raw)
  rw [empty] at none
  exact domains_ne_nil raw (List.nil_perm.mp none)

namespace Stage

theorem origins_ne_nil (stage : Stage) : stage.origins ≠ [] := by
  cases stage <;> exact cons_ne_nil _ _

theorem origins_clean (stage : Stage) : ∀ origin ∈ stage.origins, ',' ∉ origin := by
  cases stage <;> decide

theorem origins_written (stage : Stage) : [','].intercalate stage.origins ≠ [] := by
  cases stage <;> decide

theorem backendURL_mem_origins (stage : Stage) : chars stage.backendURL ∈ stage.origins := by
  cases stage <;> decide

theorem public_not_mem_origins {stage : Stage} (held : chars stage.front = chars frontPublicOrigin) :
    chars frontPublicOrigin ∉ stage.origins := by
  cases stage with
  | assigned => decide
  | _ => exact absurd held.symm front_ne_temporary

end Stage

theorem Topology.Reads.domains_perm {t : Topology} {stage : Stage} (reads : t.Reads stage) :
    (domains t.backendDomains).Perm stage.origins :=
  Frontdoor.domains_perm stage.origins_ne_nil stage.origins_clean stage.origins_written reads.backend

theorem Topology.Managed.consistent {t : Topology} (managed : t.Managed) : t.Consistent := by
  obtain ⟨stage, reads⟩ := managed
  constructor
  · intro held inside
    exact Stage.public_not_mem_origins (reads.front.symm.trans held) (reads.domains_perm.mem_iff.mp inside)
  · rw [reads.backendURL]
    exact reads.domains_perm.mem_iff.mpr stage.backendURL_mem_origins

def Target.Moving (target : Target) : Prop := target = .cutover ∨ target = .rollback

theorem Topology.Reads.nextPhase {t : Topology} {stage : Stage} (reads : t.Reads stage) {target : Target}
    (moving : target.Moving) :
    nextPhase target t = .ok (stage.phase target, decide (stage = Stage.final target)) := by
  unfold Frontdoor.nextPhase
  rw [reads.front, reads.backendURL, reads.backend, normalize_both]
  rcases moving with rfl | rfl
  · cases stage <;> rfl
  · cases stage <;> rfl

end Aeontra.Frontdoor
