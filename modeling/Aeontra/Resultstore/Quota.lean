import Mathlib.Data.Prod.Lex
import Aeontra.Resultstore.Fragments

/-!
The quota of the result store: what `Put` evicts, and that it evicts no more than it has to.
-/

namespace Aeontra.Resultstore

open Library List ResultRow

/-- The order of eviction: the second of creation, then the reference. -/
def ResultRow.age (row : ResultRow) : Int ×ₗ String := toLex (row.createdAt, row.resultRef)

/-- What an eviction that makes room for `incoming` bytes leaves of a store. -/
structure Evicts (s room : Store) (incoming : Nat) : Prop where
  quota : room.quotaBytes = s.quotaBytes
  kept : room.results.rows <+ s.results.rows
  fits : room.usedBytes + incoming ≤ s.quotaBytes
  oldest : ∀ gone ∈ s.results, gone ∉ room.results → ∀ row ∈ room.results, gone.age < row.age
  needed : ∀ gone ∈ s.results, gone ∉ room.results →
    (∀ other ∈ s.results, other ∉ room.results → other ≠ gone → other.age < gone.age) →
      s.quotaBytes < room.usedBytes + gone.contentBytes + incoming

section

variable {s room : Store} {incoming : Nat} {oldest : ResultRow} {rest : List ResultRow}

structure Queue (s : Store) (oldest : ResultRow) (rest : List ResultRow) : Prop where
  rows : s.results.rows.Perm (oldest :: rest)
  first : ∀ row ∈ rest, oldest.age < row.age

theorem queue_of_sorted (sorted : (s.results.rows.mergeSort fun a b =>
      a.createdAt < b.createdAt || (a.createdAt = b.createdAt && a.resultRef ≤ b.resultRef)) = oldest :: rest) :
    Queue s oldest rest := by
  have order : ∀ a b : ResultRow, (a.createdAt < b.createdAt ||
      (a.createdAt = b.createdAt && a.resultRef ≤ b.resultRef)) = decide (a.age ≤ b.age) := by
    intro a b
    rw [Bool.eq_iff_iff, decide_eq_true_iff, age, age, Prod.Lex.toLex_le_toLex]
    simp only [bool_iff]
  simp only [order] at sorted
  have perm := mergeSort_perm s.results.rows fun a b => decide (a.age ≤ b.age)
  have pairs : (s.results.rows.mergeSort fun a b => decide (a.age ≤ b.age)).Pairwise fun a b =>
      decide (a.age ≤ b.age) = true := pairwise_mergeSort
    (fun a b c first second => by simp only [decide_eq_true_iff] at first second ⊢; exact first.trans second)
    (fun a b => by simp only [bool_iff]; exact le_total _ _) s.results.rows
  rw [sorted] at perm pairs
  have distinct := (perm.map resultRef).nodup_iff.mpr s.results.keyed
  rw [map_cons, nodup_cons] at distinct
  refine ⟨perm.symm, fun row member => ?_⟩
  refine lt_of_le_of_ne (of_decide_eq_true (rel_of_pairwise_cons pairs member)) fun same => distinct.1 ?_
  have ref : oldest.resultRef = row.resultRef := congrArg (fun age => (ofLex age).2) same
  exact ref ▸ mem_map_of_mem member

abbrev Store.evict (s : Store) (oldest : ResultRow) : Store :=
  { s with results := s.results.delete fun row => row.resultRef = oldest.resultRef }

variable (queue : Queue s oldest rest)

include queue

theorem Queue.evicted : (s.evict oldest).results.rows.Perm rest := by
  have distinct := (queue.rows.map resultRef).nodup_iff.mp s.results.keyed
  rw [map_cons, nodup_cons] at distinct
  have others : ∀ row ∈ rest, (!decide (row.resultRef = oldest.resultRef)) = true := by
    intro row member
    have apart : row.resultRef ≠ oldest.resultRef := fun same => distinct.1 (same ▸ mem_map_of_mem member)
    simpa using apart
  have filtered := queue.rows.filter fun row => !decide (row.resultRef = oldest.resultRef)
  rw [filter_cons_of_neg (by simp), filter_eq_self.mpr others] at filtered
  exact filtered

theorem Queue.usedBytes : s.usedBytes = (s.evict oldest).usedBytes + oldest.contentBytes := by
  have all := (queue.rows.map contentBytes).sum_eq
  have others := (queue.evicted.map contentBytes).sum_eq
  rw [map_cons, sum_cons] at all
  unfold Store.usedBytes
  omega

theorem Queue.mem_cases {row : ResultRow} (member : row ∈ s.results) :
    row = oldest ∨ row ∈ (s.evict oldest).results := by
  rcases mem_cons.mp (queue.rows.mem_iff.mp member) with same | later
  · exact .inl same
  · exact .inr (queue.evicted.mem_iff.mpr later)

theorem Queue.evicts (full : s.quotaBytes < s.usedBytes + incoming)
    (later : Evicts (s.evict oldest) room incoming) : Evicts s room incoming := by
  have first : ∀ row ∈ (s.evict oldest).results, oldest.age < row.age := fun row member =>
    queue.first row (queue.evicted.mem_iff.mp member)
  refine ⟨later.quota, later.kept.trans filter_sublist, later.fits, fun gone member lost row stays => ?_,
    fun gone member lost newest => ?_⟩
  · rcases queue.mem_cases member with rfl | inside
    · exact first row (later.kept.mem stays)
    · exact later.oldest gone inside lost row stays
  rcases queue.mem_cases member with rfl | inside
  · -- nothing is older than the first victim, so it is the only one
    have all : (s.evict gone).results.rows ⊆ room.results.rows := by
      intro row there
      by_contra lost'
      have before := first row there
      exact lt_asymm before (newest row (filter_sublist.mem there) lost' fun same => lt_irrefl _ (same ▸ before))
    have same := later.kept.eq_of_length_le ((Nodup.of_map _ (s.evict gone).results.keyed).subperm all).length_le
    have used : room.usedBytes = (s.evict gone).usedBytes := by rw [Store.usedBytes, same, Store.usedBytes]
    rw [queue.usedBytes] at full
    rw [used]
    exact full
  · refine later.needed gone inside lost fun other there lost' apart => ?_
    exact newest other (filter_sublist.mem there) lost' apart

omit queue

theorem makeRoom_evicts {fuel : Nat} (enough : s.results.rows.length < fuel) (small : incoming ≤ s.quotaBytes) :
    ∃ room, Store.makeRoom incoming fuel s = .ok room ∧ Evicts s room incoming := by
  induction fuel generalizing s with
  | zero => exact absurd enough (Nat.not_lt_zero _)
  | succ fuel ih =>
    unfold Store.makeRoom
    split
    · next fits =>
      refine ⟨s, rfl, rfl, .refl _, fits, fun gone member lost => absurd member lost, ?_⟩
      exact fun gone member lost => absurd member lost
    · next full =>
      split
      · next none =>
        have empty : s.results.rows = [] := perm_nil.mp (none ▸ (mergeSort_perm s.results.rows _).symm)
        refine absurd ?_ full
        rw [Store.usedBytes, empty]
        simpa using small
      · next oldest rest sorted =>
        have queue := queue_of_sorted sorted
        have fewer : (s.evict oldest).results.rows.length < fuel := by
          rw [queue.evicted.length_eq]
          have length := queue.rows.length_eq
          rw [length_cons] at length
          omega
        obtain ⟨room, made, evicts⟩ := ih fewer (by exact small)
        exact ⟨room, made, queue.evicts (not_le.mp full) evicts⟩

end

def Store.besides (s : Store) (new : ResultRow) : List ResultRow := s.results.rows.filter fun row => row ≠ new

/-- What a `Put` of a new row does to the results that were there and had not expired. -/
structure KeepsQuota (s s' : Store) (now : Time) (new : ResultRow) : Prop where
  within : s'.usedBytes ≤ s.quotaBytes
  stored : new ∈ s'.results
  kept : ∀ row ∈ s'.besides new, row ∈ s.results ∧ unixSeconds now < row.expiresAt
  oldest : ∀ gone ∈ s.results, unixSeconds now < gone.expiresAt → gone ∉ s'.results →
    ∀ row ∈ s'.besides new, gone.age < row.age
  needed : ∀ gone ∈ s.results, unixSeconds now < gone.expiresAt → gone ∉ s'.results →
    (∀ other ∈ s.results, unixSeconds now < other.expiresAt → other ∉ s'.results → other ≠ gone →
      other.age < gone.age) →
    s.quotaBytes < ((s'.besides new).map contentBytes).sum + new.contentBytes + gone.contentBytes

theorem Evicts.keepsQuota {s room : Store} {now : Time} {new : ResultRow}
    {results : Table ResultRow resultRef resultRef}
    (evicts : Evicts (s.cleanup now) room new.contentBytes) (inserted : room.results.insert new = some results)
    (fresh : ∀ row ∈ s.results, row.resultRef ≠ new.resultRef) :
    KeepsQuota s { room with results := results } now new := by
  have live : ∀ row, row ∈ (s.cleanup now).results ↔ row ∈ s.results ∧ unixSeconds now < row.expiresAt := by
    intro row
    rw [Store.cleanup, Table.mem_delete]
    simp
  obtain ⟨free, -, rows⟩ := Table.insert_eq_some.mp inserted
  have besides : Store.besides { room with results := results } new = room.results.rows := by
    rw [Store.besides, rows, filter_append, filter_eq_self.mpr, filter_cons_of_neg (by simp), filter_nil, append_nil]
    intro row member
    have apart : row ≠ new := fun same => free row member (same ▸ rfl)
    simpa using apart
  have lost : ∀ row, row ∉ results → row ∉ room.results := fun row out inside =>
    out ((Table.mem_insert inserted).mpr (.inl inside))
  constructor
  · have fits : room.usedBytes + new.contentBytes ≤ s.quotaBytes := evicts.fits
    simpa [Store.usedBytes, rows] using fits
  · exact (Table.mem_insert inserted).mpr (.inr rfl)
  · rw [besides]
    exact fun row member => (live row).mp (evicts.kept.mem member)
  · rw [besides]
    exact fun gone member later out => evicts.oldest gone ((live gone).mpr ⟨member, later⟩) (lost gone out)
  · intro gone member later out newest
    rw [besides, Nat.add_right_comm]
    refine evicts.needed gone ((live gone).mpr ⟨member, later⟩) (lost gone out) fun other there away apart => ?_
    obtain ⟨old, later'⟩ := (live other).mp there
    refine newest other old later' (fun inside => ?_) apart
    rcases (Table.mem_insert inserted).mp inside with back | rfl
    · exact away back
    · exact fresh other old rfl

def mask (content : Bytes) : Bytes := content.map fun _ => 42

def masked : Store :=
  { vacant with results := ⟨[⟨newRef 0, .success, [], [⟨"result", .success, 0, 2⟩], 0, 2, [42, 42], 2, 0, 86400⟩],
    nodup_singleton _, nodup_singleton _⟩ }

def longInput : Input := { accented with content := replicate 1023 97 }

/-- The first result has to go for the second one. -/
theorem masked_evicts : ∃ info s', masked.put mask id longInput 1 0 = .ok (info, s') ∧
    s'.results.rows.map resultRef = [newRef 1] := by
  have refs : (masked.put mask id longInput 1 0).toOption.map (fun result => result.2.results.rows.map resultRef) =
      some [newRef 1] := by decide +kernel
  cases run : masked.put mask id longInput 1 0 with
  | error message =>
    rw [run] at refs
    cases refs
  | ok result =>
    rw [run] at refs
    exact ⟨result.1, result.2, rfl, Option.some.inj refs⟩

/-- A `Put` that succeeds stores its row; one that fails, a look-up or a cleanup deletes rows at most. -/
inductive Reached (redact safeSummary : Bytes → Bytes) (start : Store) : List Input → Store → Prop
  | start : Reached redact safeSummary start [] start
  | put {inputs : List Input} {s s' : Store} {input : Input} {draw : Draw} {now : Time} {info : Metadata}
      (before : Reached redact safeSummary start inputs s)
      (stored : s.put redact safeSummary input draw now = .ok (info, s')) :
      Reached redact safeSummary start (input :: inputs) s'
  | delete {inputs : List Input} {s s' : Store} (before : Reached redact safeSummary start inputs s)
      (quota : s'.quotaBytes = s.quotaBytes) (fewer : s'.results.rows <+ s.results.rows) :
      Reached redact safeSummary start inputs s'

/-- Over its whole life a store keeps its quota, measured in the bytes it really holds, and
nothing in it has bypassed the redaction. -/
theorem reached_redacted {redact safeSummary : Bytes → Bytes} {start s : Store} {inputs : List Input}
    (empty : start.results.rows = []) (reached : Reached redact safeSummary start inputs s) :
    (s.usedBytes ≤ start.quotaBytes ∧ s.quotaBytes = start.quotaBytes) ∧
    ∀ row ∈ s.results, row.contentBytes = row.content.length ∧
      ∃ input ∈ inputs, row.content = redact input.content ∧ row.summary = safeSummary input.summary := by
  induction reached with
  | start =>
    refine ⟨⟨?_, rfl⟩, fun row member => ?_⟩
    · rw [Store.usedBytes, empty]
      exact Nat.zero_le _
    · change row ∈ start.results.rows at member
      rw [empty] at member
      cases member
  | @put inputs s s' input draw now info before stored ih =>
    simp only [Store.put, ok_iff] at stored
    obtain ⟨-, -, -, small, stages, -, room, made, results, inserted, -, rfl⟩ := stored
    obtain ⟨room', made', evicts⟩ := makeRoom_evicts (s := s.cleanup now) (Nat.lt_succ_self _)
      (not_lt.mp (of_decide_eq_false small))
    obtain rfl : room' = room := Except.ok.inj (made'.symm.trans made)
    have quota : room'.quotaBytes = start.quotaBytes := evicts.quota.trans ih.1.2
    refine ⟨⟨?_, quota⟩, fun row member => ?_⟩
    · obtain ⟨-, -, rows⟩ := Table.insert_eq_some.mp inserted
      have fits : room'.usedBytes + (redact input.content).length ≤ start.quotaBytes := ih.1.2 ▸ evicts.fits
      simpa [Store.usedBytes, rows] using fits
    · rcases (Table.mem_insert inserted).mp member with old | rfl
      · obtain ⟨size, other, inside, same⟩ := ih.2 row (Table.mem_delete.mp (evicts.kept.mem old)).1
        exact ⟨size, other, mem_cons_of_mem _ inside, same⟩
      · exact ⟨rfl, input, mem_cons_self, rfl, rfl⟩
  | delete before quota fewer ih =>
    have less := (fewer.map contentBytes).sum_le_sum fun _ _ => Nat.zero_le _
    exact ⟨⟨less.trans ih.1.1, quota.trans ih.1.2⟩, fun row member => ih.2 row (fewer.mem member)⟩

theorem reached_redacted_accented : ∃ s : Store, s.results.rows.map resultRef = [newRef 1] ∧
    s.usedBytes ≤ vacant.quotaBytes ∧ ∀ row ∈ s.results, ∃ input ∈ [longInput, accented],
      row.content = mask input.content := by
  obtain ⟨info, s, evicting, refs⟩ := masked_evicts
  have first : vacant.put mask id accented 0 0 =
    .ok (⟨.success, [], [⟨"result", .success, 0, 2⟩], 0, 2, newRef 0, 86400 * second⟩, masked) := rfl
  have both := reached_redacted rfl (.put (.put .start first) evicting)
  refine ⟨s, refs, both.1.1, fun row member => ?_⟩
  obtain ⟨-, input, inside, same, -⟩ := both.2 row member
  exact ⟨input, inside, same⟩

end Aeontra.Resultstore
