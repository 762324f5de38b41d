import Mathlib.Data.List.Dedup
import Aeontra.Library.Least
import Aeontra.Workqueue.Fairness

/-!
What one call of `Select` decides: the workspaces in order, the first candidate of each,
and which of them is served.
-/

namespace Aeontra.Workqueue

open Library List FairCandidate FairScheduler

theorem mem_sortStrings {texts : List String} {x : String} : x ∈ sortStrings texts ↔ x ∈ texts :=
  (perm_insertionSort _ texts).mem_iff

variable {c : FairCandidate} {candidates other : List FairCandidate} {workspace : String} {now : Time}
  {s s' : FairScheduler} {config : FairConfig} {quantum deficit : Int} {deficits : String → Int}

def FairCandidate.key (c : FairCandidate) : Time ×ₗ String := toLex (c.createdAt, c.jobID)

theorem before_iff {left right : FairCandidate} : left.before right = true ↔ left.key < right.key := by
  unfold before key
  rw [Prod.Lex.toLex_lt_toLex]
  split
  · rename_i same
    simp [same]
  · rename_i different
    simp [different]

theorem queue_byKey (left right : FairCandidate) : right.before left = false ↔ left.key ≤ right.key := by
  rw [← Bool.not_eq_true, before_iff, not_lt]

theorem leastBy_queueOf (candidates : List FairCandidate) (workspace : String) :
    LeastBy key (candidates.filter fun c => c.workspace = workspace)
      (queueOf candidates workspace).head? :=
  leastBy_head queue_byKey _

theorem head_queueOf (first : (queueOf candidates workspace).head? = some c) :
    c ∈ candidates ∧ c.workspace = workspace ∧
      ∀ d ∈ candidates, d.workspace = workspace → c.key ≤ d.key := by
  have least := leastBy_queueOf candidates workspace
  rw [first] at least
  obtain ⟨member, same⟩ := mem_filter.mp least.1
  exact ⟨member, of_decide_eq_true same, fun d inside own => least.2 d (by simp [inside, own])⟩

theorem queueOf_head (member : c ∈ candidates) :
    ∃ first, (queueOf candidates c.workspace).head? = some first := by
  have least := leastBy_queueOf candidates c.workspace
  cases head : (queueOf candidates c.workspace).head? with
  | none =>
    rw [head] at least
    exact absurd rfl (of_decide_eq_false (filter_eq_nil_iff.mp least c member |> Bool.eq_false_iff.mpr))
  | some first => exact ⟨first, rfl⟩

def agedHead (config : FairConfig) (now : Time) (candidates : List FairCandidate) (workspace : String) :
    Option FairCandidate :=
  (queueOf candidates workspace).head?.filter fun c => config.agingLimit ≤ now - c.createdAt

theorem leastBy_oldestAged (config : FairConfig) (now : Time) (candidates : List FairCandidate)
    (workspaces : List String) (aged : Option FairCandidate) :
    LeastBy key (aged.toList ++ workspaces.filterMap (agedHead config now candidates))
      (oldestAged config now candidates workspaces aged) := by
  induction workspaces generalizing aged with
  | nil => cases aged <;> simp [oldestAged, LeastBy]
  | cons workspace rest ih =>
    rw [filterMap_cons, agedHead, oldestAged]
    cases (queueOf candidates workspace).head? with
    | none => exact ih aged
    | some first =>
      have order : ∀ a : FairCandidate, (decide (first.createdAt < a.createdAt) ||
          decide (first.createdAt = a.createdAt) && decide (first.jobID < a.jobID)) = true ↔
            first.key < a.key := by
        intro a
        simp only [key, Prod.Lex.toLex_lt_toLex, bool_iff]
      rw [Option.filter_some]
      by_cases fresh : now - first.createdAt < config.agingLimit
      · simpa [fresh, not_le.mpr fresh] using ih aged
      simp only [fresh, if_false, not_lt.mp fresh, decide_true, if_true]
      cases aged with
      | none => exact ih (some first)
      | some a =>
        rw [Option.all_some]
        split
        · rename_i older
          exact (ih (some first)).add mem_cons_self ((order a).mp older).le (by simp)
        · rename_i younger
          rw [order, not_lt] at younger
          refine (ih (some a)).add mem_cons_self younger fun x => ?_
          simp only [Option.toList_some, singleton_append, mem_cons]
          tauto

theorem serve_head {visits : List String} {after : String → Int}
    (served : serve quantum candidates visits deficits = (some c, after)) :
    ∃ workspace, (queueOf candidates workspace).head? = some c := by
  induction visits generalizing deficits with
  | nil => simp [serve] at served
  | cons workspace rest ih =>
    simp only [serve] at served
    split at served
    · exact ih served
    rename_i first head
    split at served
    · simp only [ok_iff, Option.some.injEq] at served
      exact ⟨workspace, served.1 ▸ head⟩
    · exact ih served

theorem select_head (selected : s.select now candidates = (.ok c, s')) :
    ∃ workspace, (queueOf candidates workspace).head? = some c := by
  unfold select at selected
  split at selected
  · simp at selected
  split at selected
  · simp at selected
  dsimp only at selected
  split at selected
  · rename_i aged found
    simp only [ok_iff, Except.ok.injEq] at selected
    have least := leastBy_oldestAged s.config now candidates (workspacesOf candidates) none
    rw [found] at least
    obtain ⟨workspace, -, head⟩ := mem_filterMap.mp least.1
    exact ⟨workspace, selected.1 ▸ Option.eq_some_of_filter_eq_some head⟩
  split at selected
  · rename_i served
    simp only [ok_iff, Except.ok.injEq] at selected
    exact selected.1 ▸ serve_head served
  · simp at selected

theorem select_mem (selected : s.select now candidates = (.ok c, s')) : c ∈ candidates := by
  obtain ⟨workspace, head⟩ := select_head selected
  exact (head_queueOf head).1

theorem checkCandidates_iff {seen : List String} :
    checkCandidates now seen candidates = .ok () ↔ (∀ c ∈ candidates, c.valid now = true) ∧
      (candidates.map jobID).Nodup ∧ ∀ c ∈ candidates, c.jobID ∉ seen := by
  induction candidates generalizing seen with
  | nil => simp [checkCandidates]
  | cons c rest ih =>
    simp only [checkCandidates, ok_iff, ih, contains_eq_mem, bool_iff, map_cons, nodup_cons, mem_map,
      forall_mem_cons, exists_const]
    simp only [mem_cons, not_or]
    constructor
    · rintro ⟨valid, fresh, valids, distinct, others⟩
      refine ⟨⟨valid, valids⟩, ⟨?_, distinct⟩, fresh, fun d inside => (others d inside).2⟩
      rintro ⟨d, inside, same⟩
      exact (others d inside).1 same
    · rintro ⟨⟨valid, valids⟩, ⟨single, distinct⟩, fresh, others⟩
      exact ⟨valid, fresh, valids, distinct, fun d inside =>
        ⟨fun same => single ⟨d, inside, same⟩, others d inside⟩⟩

section

variable (checked : checkCandidates now [] candidates = .ok ())
include checked

theorem distinct_keys : ∀ a ∈ candidates, ∀ b ∈ candidates, a.key = b.key → a = b := by
  intro a left b right same
  have jobs : a.jobID = b.jobID := congrArg (fun k => (ofLex k).2) same
  exact inj_on_of_nodup_map (checkCandidates_iff.mp checked).2.1 left right jobs

theorem queueOf_perm (perm : other.Perm candidates) : queueOf other = queueOf candidates := by
  funext workspace
  refine insertionSort_congr queue_byKey ?_ (perm.filter _)
  intro a left b right
  exact distinct_keys checked a (mem_filter.mp left).1 b (mem_filter.mp right).1

end

theorem oldestAged_congr (same : queueOf other = queueOf candidates) (workspaces : List String)
    (aged : Option FairCandidate) :
    oldestAged config now other workspaces aged = oldestAged config now candidates workspaces aged := by
  induction workspaces generalizing aged with
  | nil => rfl
  | cons workspace rest ih => simp only [oldestAged, same, ih]

theorem serve_congr (same : queueOf other = queueOf candidates) (visits : List String)
    (deficits : String → Int) : serve quantum other visits deficits = serve quantum candidates visits deficits := by
  induction visits generalizing deficits with
  | nil => rfl
  | cons workspace rest ih => simp only [serve, same, ih]

theorem select_perm (checked : checkCandidates now [] candidates = .ok ()) (perm : other.Perm candidates) :
    s.select now other = s.select now candidates := by
  have same := queueOf_perm checked perm
  have byKey : ∀ a b : String, a ≤ b ↔ id a ≤ id b := fun _ _ => Iff.rfl
  have workspaces : workspacesOf other = workspacesOf candidates :=
    insertionSort_congr byKey (fun _ _ _ _ same => same) (perm.map _).dedup
  have checked' : checkCandidates now [] other = .ok () := by
    rw [checkCandidates_iff] at checked ⊢
    refine ⟨fun c inside => checked.1 c (perm.mem_iff.mp inside), ?_, by simp⟩
    exact (perm.map _).nodup_iff.mpr checked.2.1
  simp only [select, perm.length_eq, checked, checked', workspaces, oldestAged_congr same, serve_congr same]

def InRange (deficit : Int) : Prop := 0 ≤ deficit ∧ deficit ≤ maxResourceValue

def FairScheduler.Within (s : FairScheduler) : Prop :=
  1 ≤ s.config.quantum ∧ InRange s.config.quantum ∧ ∀ workspace, InRange (s.deficits workspace)

theorem credit_inRange (within : InRange quantum) (fits : InRange deficit) : InRange (credit quantum deficit) := by
  unfold credit InRange at *
  split <;> omega

theorem update_inRange (fits : ∀ w, InRange (deficits w)) (fit : InRange deficit) (w : String) :
    InRange (Function.update deficits workspace deficit w) := by
  rw [Function.update_apply]
  split
  · exact fit
  · exact fits w

theorem serve_inRange {visits : List String} {result : Option FairCandidate} {after : String → Int}
    (within : InRange quantum) (costs : ∀ c ∈ candidates, 1 ≤ c.cost) (fits : ∀ w, InRange (deficits w))
    (served : serve quantum candidates visits deficits = (result, after)) : ∀ w, InRange (after w) := by
  induction visits generalizing deficits with
  | nil =>
    simp only [serve, ok_iff] at served
    exact served.2 ▸ fits
  | cons workspace rest ih =>
    have credited := credit_inRange within (fits workspace)
    simp only [serve] at served
    split at served
    · exact ih fits served
    rename_i first head
    split at served
    · rename_i pays
      have cost := costs first (head_queueOf head).1
      have high := credited.2
      simp only [ok_iff] at served
      exact served.2 ▸ update_inRange fits ⟨by omega, by omega⟩
    · exact ih (update_inRange fits credited) served

theorem FairScheduler.Within.select (within : s.Within) (now : Time) (candidates : List FairCandidate) :
    (s.select now candidates).2.Within := by
  obtain ⟨positive, small, fits⟩ := within
  unfold FairScheduler.select
  split
  · exact ⟨positive, small, fits⟩
  split
  · exact ⟨positive, small, fits⟩
  rename_i checked
  have costs : ∀ c ∈ candidates, 1 ≤ c.cost := by
    intro c inside
    have valid := (checkCandidates_iff.mp checked).1 c inside
    simp only [FairCandidate.valid, bool_iff] at valid
    exact valid.1.1.1.2
  have kept : ∀ w, InRange (if w ∈ workspacesOf candidates then s.deficits w else 0) := by
    intro w
    split
    · exact fits w
    · exact ⟨by decide, by decide⟩
  dsimp only
  split
  · exact ⟨positive, small, kept⟩
  split
  · rename_i served
    exact ⟨positive, small, serve_inRange small costs kept served⟩
  · rename_i served
    exact ⟨positive, small, serve_inRange small costs kept served⟩

theorem newFairScheduler_within (made : newFairScheduler config = .ok s) : s.Within := by
  simp only [newFairScheduler, ok_iff, bool_iff, not_lt] at made
  obtain ⟨-, ⟨⟨⟨least, most⟩, -⟩, -⟩, rfl⟩ := made
  exact ⟨least, ⟨Int.le_trans (by decide) least, most⟩, fun _ => ⟨le_rfl, (by decide : (0 : Int) ≤ maxResourceValue)⟩⟩

def FairScheduler.after (s : FairScheduler) (calls : List (Time × List FairCandidate)) : FairScheduler :=
  calls.foldl (fun s call => (s.select call.1 call.2).2) s

theorem FairScheduler.Within.after (within : s.Within) (calls : List (Time × List FairCandidate)) :
    (s.after calls).Within := by
  induction calls generalizing s with
  | nil => exact within
  | cons call calls ih => exact ih (within.select call.1 call.2)

def FairCandidate.LeastOf (c : FairCandidate) (candidates : List FairCandidate) : Prop :=
  c ∈ candidates ∧ ∀ d ∈ candidates, d = c ∨ c.before d = true

section

variable (checked : checkCandidates now [] candidates = .ok ())
include checked

theorem leastOf_of_le {part : List FairCandidate} (inside : ∀ d ∈ part, d ∈ candidates) (member : c ∈ part)
    (least : ∀ d ∈ part, c.key ≤ d.key) : c.LeastOf part := by
  refine ⟨member, ?_⟩
  intro d among
  rcases (least d among).eq_or_lt with same | less
  · exact .inl (distinct_keys checked d (inside d among) c (inside c member) same.symm)
  · exact .inr (before_iff.mpr less)

theorem select_workspace (selected : (s.select now candidates).1 = .ok c) :
    c.LeastOf (candidates.filter fun d => d.workspace = c.workspace) := by
  obtain ⟨workspace, head⟩ := select_head (Prod.ext selected rfl)
  obtain ⟨member, rfl, least⟩ := head_queueOf head
  refine leastOf_of_le checked (fun d among => (mem_filter.mp among).1) (by simp [member]) ?_
  intro d among
  obtain ⟨inside, own⟩ := mem_filter.mp among
  exact least d inside (of_decide_eq_true own)

theorem select_aged (set : now ≠ zeroTime) (nonempty : candidates.length ≠ 0) (few : candidates.length ≤ 4096)
    (waited : ∃ d ∈ candidates, s.config.agingLimit ≤ now - d.createdAt) :
    ∃ c, (s.select now candidates).1 = .ok c ∧ c.LeastOf candidates := by
  obtain ⟨d, inside, old⟩ := waited
  have least := leastBy_oldestAged s.config now candidates (workspacesOf candidates) none
  -- The head of a candidate's workspace is older still, so the scan meets it.
  have met : ∀ e ∈ candidates, s.config.agingLimit ≤ now - e.createdAt →
      ∃ first ∈ (workspacesOf candidates).filterMap (agedHead s.config now candidates), first.key ≤ e.key := by
    intro e member old
    obtain ⟨first, head⟩ := queueOf_head member
    have up := (head_queueOf head).2.2 e member rfl
    have earlier : first.createdAt ≤ e.createdAt := Prod.Lex.monotone_fst _ _ up
    have waits : s.config.agingLimit ≤ now - first.createdAt := old.trans (Int.sub_le_sub_left earlier now)
    refine ⟨first, mem_filterMap.mpr ⟨e.workspace, ?_, by simp [agedHead, head, waits]⟩, up⟩
    exact mem_sortStrings.mpr (mem_dedup.mpr (mem_map_of_mem member))
  cases found : oldestAged s.config now candidates (workspacesOf candidates) none with
  | none =>
    rw [found] at least
    obtain ⟨first, among, -⟩ := met d inside old
    have empty : (workspacesOf candidates).filterMap (agedHead s.config now candidates) = [] := least
    rw [empty] at among
    cases among
  | some c =>
    rw [found] at least
    have result : (s.select now candidates).1 = .ok c := by
      simp [select, set, nonempty, not_lt.mpr few, checked, found]
    refine ⟨c, result, leastOf_of_le checked (fun _ member => member) (select_mem (Prod.ext result rfl)) ?_⟩
    intro e member
    have below : ∀ e ∈ candidates, s.config.agingLimit ≤ now - e.createdAt → c.key ≤ e.key := by
      intro e member old
      obtain ⟨first, among, up⟩ := met e member old
      exact (least.2 first among).trans up
    rcases le_total d.key e.key with later | earlier
    · exact (below d inside old).trans later
    · have before : e.createdAt ≤ d.createdAt := Prod.Lex.monotone_fst _ _ earlier
      exact below e member (old.trans (Int.sub_le_sub_left before now))

end

theorem select_fair (s : FairScheduler) (now : Time) (candidates : List FairCandidate) (set : now ≠ zeroTime)
    (nonempty : candidates.length ≠ 0) (few : candidates.length ≤ 4096)
    (checked : checkCandidates now [] candidates = .ok ()) :
    (∀ c, (s.select now candidates).1 = .ok c →
      c.LeastOf (candidates.filter fun d => d.workspace = c.workspace)) ∧
    ((∃ d ∈ candidates, s.config.agingLimit ≤ now - d.createdAt) →
      ∃ c, (s.select now candidates).1 = .ok c ∧ c.LeastOf candidates) ∧
    (∀ other : List FairCandidate, other.Perm candidates → s.select now other = s.select now candidates) ∧
    ∀ config fresh, newFairScheduler config = .ok fresh → ∀ calls workspace,
      InRange ((fresh.after calls).deficits workspace) :=
  ⟨fun _ => select_workspace checked, select_aged checked set nonempty few, fun _ => select_perm checked,
    fun _ _ made calls => ((newFairScheduler_within made).after calls).2.2⟩

def turnScheduler : FairScheduler := ⟨⟨1, second⟩, fun _ => 0, ""⟩

def waitingJobs : List FairCandidate :=
  [⟨"wj_" ++ String.ofList (replicate 32 '0'), "workspace", 1, 2⟩,
    ⟨"wj_" ++ String.ofList (replicate 32 '1'), "workspace", 1, 1⟩]

def spreadJobs : List FairCandidate := ⟨"wj_" ++ String.ofList (replicate 32 '2'), "another", 3, 1⟩ :: waitingJobs

/-- The first turn serves a job that waited for too long; in the second nobody has, and the deficit
round serves the workspace of the cheaper jobs. -/
theorem select_fair_two :
    (checkCandidates (second + 1) [] waitingJobs = .ok () ∧
      ∃ c, (turnScheduler.select (second + 1) waitingJobs).1 = .ok c ∧ c.LeastOf waitingJobs) ∧
    ∃ c, (turnScheduler.select second spreadJobs).1 = .ok c ∧ c.workspace = "workspace" ∧
      c.LeastOf (spreadJobs.filter fun d => d.workspace = c.workspace) := by
  have checked : checkCandidates (second + 1) [] waitingJobs = .ok () := by decide +kernel
  have fair := select_fair turnScheduler (second + 1) waitingJobs (by decide) (by decide) (by decide) checked
  have round := select_fair turnScheduler second spreadJobs (by decide) (by decide) (by decide) (by decide +kernel)
  have served : (turnScheduler.select second spreadJobs).1 =
      .ok ⟨"wj_" ++ String.ofList (replicate 32 '1'), "workspace", 1, 1⟩ := by
    decide +kernel
  exact ⟨⟨checked, fair.2.1 (by decide)⟩, _, served, rfl, round.1 _ served⟩

end Aeontra.Workqueue
