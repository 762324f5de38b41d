import Mathlib.Combinatorics.Enumerative.DoubleCounting

/-!
Relational tables with a primary key and one further unique column.

The constraints are fields of the structure, so a table that breaks them cannot be built.  A table
with a primary key only repeats it as its unique column.
-/

namespace Aeontra.Library

open List

structure Table (ρ : Type) {κ υ : Type} (key : ρ → κ) (unique : ρ → υ) where
  rows : List ρ
  keyed : (rows.map key).Nodup
  uniques : (rows.map unique).Nodup

namespace Table

variable {ρ κ υ γ : Type} {key : ρ → κ} {unique : ρ → υ}

variable {t t' : Table ρ key unique} {r s : ρ} {p : ρ → Bool} {k : κ}

@[ext] theorem ext {u : Table ρ key unique} (same : t.rows = u.rows) : t = u := by
  cases t
  cases u
  cases same
  rfl

instance : Membership ρ (Table ρ key unique) := ⟨fun t r => r ∈ t.rows⟩

theorem mem_rows : r ∈ t.rows ↔ r ∈ t := Iff.rfl

def empty : Table ρ key unique := ⟨[], nodup_nil, nodup_nil⟩

@[simp] theorem not_mem_empty (r : ρ) : r ∉ (empty : Table ρ key unique) := not_mem_nil

theorem eq_of_key (left : r ∈ t) (right : s ∈ t) (same : key r = key s) : r = s :=
  inj_on_of_nodup_map t.keyed left right same

theorem eq_of_unique (left : r ∈ t) (right : s ∈ t) (same : unique r = unique s) : r = s :=
  inj_on_of_nodup_map t.uniques left right same

/-- `SELECT COUNT(*) ... WHERE p`. -/
def count (t : Table ρ key unique) (p : ρ → Bool) : Nat := t.rows.countP p

theorem exists_of_count (some : t.count p ≠ 0) : ∃ r ∈ t, p r = true := by
  obtain ⟨r, member, holds⟩ := countP_pos_iff.mp (Nat.pos_of_ne_zero some)
  exact ⟨r, member, holds⟩

theorem map_assign {rows : List ρ} {f : ρ → ρ} {column : ρ → γ} (kept : ∀ r, column (f r) = column r) :
    (rows.map fun r => if p r then f r else r).map column = rows.map column := by
  rw [map_map]
  refine map_congr_left fun r _ => ?_
  rw [Function.comp_apply]
  split
  · exact kept r
  · rfl

/-- `UPDATE ... SET f WHERE p`; the assignment leaves both constrained columns alone. -/
def update (t : Table ρ key unique) (p : ρ → Bool) (f : ρ → ρ)
    (keepsKey : ∀ r, key (f r) = key r) (keepsUnique : ∀ r, unique (f r) = unique r) :
    Table ρ key unique where
  rows := t.rows.map fun r => if p r then f r else r
  keyed := by
    rw [map_assign keepsKey]
    exact t.keyed
  uniques := by
    rw [map_assign keepsUnique]
    exact t.uniques

theorem length_update (t : Table ρ key unique) (p : ρ → Bool) (f : ρ → ρ)
    (keepsKey : ∀ r, key (f r) = key r) (keepsUnique : ∀ r, unique (f r) = unique r) :
    (t.update p f keepsKey keepsUnique).rows.length = t.rows.length :=
  length_map _

theorem mem_update {f : ρ → ρ}
    {keepsKey : ∀ r, key (f r) = key r} {keepsUnique : ∀ r, unique (f r) = unique r} :
    s ∈ t.update p f keepsKey keepsUnique ↔ ∃ r ∈ t, (if p r then f r else r) = s :=
  mem_map

/-- `DELETE ... WHERE p`. -/
def delete (t : Table ρ key unique) (p : ρ → Bool) : Table ρ key unique where
  rows := t.rows.filter fun r => !p r
  keyed := t.keyed.sublist (filter_sublist.map key)
  uniques := t.uniques.sublist (filter_sublist.map unique)

@[simp] theorem mem_delete : s ∈ t.delete p ↔ s ∈ t ∧ p s = false := by
  change s ∈ t.rows.filter _ ↔ s ∈ t.rows ∧ _
  simp

theorem length_delete_le (t : Table ρ key unique) (p : ρ → Bool) : (t.delete p).rows.length ≤ t.rows.length :=
  length_filter_le _ _

theorem count_delete_le (t : Table ρ key unique) (p q : ρ → Bool) : (t.delete p).count q ≤ t.count q :=
  filter_sublist.countP_le

theorem count_le_count {σ μ ν : Type} {key' : σ → μ} {unique' : σ → ν}
    {u : Table σ key' unique'} {q : σ → Bool} (stands : ρ → σ → Prop)
    (some : ∀ r ∈ t, p r = true → ∃ s ∈ u, q s = true ∧ stands r s)
    (one : ∀ r₁ ∈ t, ∀ r₂ ∈ t, ∀ s ∈ u, stands r₁ s → stands r₂ s → r₁ = r₂) : t.count p ≤ u.count q := by
  classical
  have distinct : (t.rows.filter p).Nodup := (t.keyed.of_map key).filter p
  have distinct' : (u.rows.filter q).Nodup := (u.keyed.of_map key').filter q
  have cards := Finset.card_le_card_of_forall_subsingleton (s := (t.rows.filter p).toFinset)
    (t := (u.rows.filter q).toFinset) stands ?_ ?_
  · rwa [toFinset_card_of_nodup distinct, toFinset_card_of_nodup distinct',
      ← countP_eq_length_filter, ← countP_eq_length_filter] at cards
  · intro r inside
    obtain ⟨member, holds⟩ := mem_filter.mp (mem_toFinset.mp inside)
    obtain ⟨s, present, holds', stood⟩ := some r member holds
    exact ⟨s, mem_toFinset.mpr (mem_filter.mpr ⟨present, holds'⟩), stood⟩
  intro s inside r₁ first r₂ second
  have present := (mem_filter.mp (mem_toFinset.mp inside)).1
  have member₁ := (mem_filter.mp (mem_toFinset.mp first.1)).1
  have member₂ := (mem_filter.mp (mem_toFinset.mp second.1)).1
  exact one r₁ member₁ r₂ member₂ s present first.2 second.2

/-- `SELECT ... WHERE key = k`. -/
def find [DecidableEq κ] (t : Table ρ key unique) (k : κ) : Option ρ := t.rows.find? fun r => key r = k

/-- `SELECT ... WHERE unique = u`. -/
def findUnique [DecidableEq υ] (t : Table ρ key unique) (u : υ) : Option ρ := t.rows.find? fun r => unique r = u

theorem find?_column_eq_some {γ : Type*} [DecidableEq γ] {column : ρ → γ} {g : γ}
    (apart : ∀ s, s ∈ t → r ∈ t → column s = column r → s = r) :
    (t.rows.find? fun r => column r = g) = some r ↔ r ∈ t ∧ column r = g := by
  constructor
  · intro found
    exact ⟨mem_of_find?_eq_some found, by simpa using find?_some found⟩
  rintro ⟨member, rfl⟩
  cases found : t.rows.find? fun s => column s = column r with
  | none =>
    have absent := find?_eq_none.mp found r member
    simp at absent
  | some s =>
    have same : column s = column r := by simpa using find?_some found
    exact congrArg some (apart s (mem_of_find?_eq_some found) member same)

theorem find_eq_some [DecidableEq κ] : t.find k = some r ↔ r ∈ t ∧ key r = k :=
  find?_column_eq_some fun _ => eq_of_key

theorem findUnique_eq_some [DecidableEq υ] {u : υ} : t.findUnique u = some r ↔ r ∈ t ∧ unique r = u :=
  find?_column_eq_some fun _ => eq_of_unique

theorem find_eq_none [DecidableEq κ] : t.find k = none ↔ ∀ r ∈ t, key r ≠ k := by
  simp only [find, find?_eq_none, decide_eq_true_eq]
  rfl

theorem findUnique_eq_none [DecidableEq υ] {u : υ} : t.findUnique u = none ↔ ∀ r ∈ t, unique r ≠ u := by
  simp only [findUnique, find?_eq_none, decide_eq_true_eq]
  rfl

/-- `INSERT`; `none` is a violated primary key or unique constraint. -/
def insert [DecidableEq κ] [DecidableEq υ] (t : Table ρ key unique) (r : ρ) : Option (Table ρ key unique) :=
  if fresh : key r ∉ t.rows.map key ∧ unique r ∉ t.rows.map unique then
    some {
      rows := t.rows ++ [r]
      keyed := by
        rw [map_append, nodup_append]
        refine ⟨t.keyed, by simp, ?_⟩
        intro a present b last same
        simp only [map_cons, map_nil, mem_singleton] at last
        exact fresh.1 (last ▸ same ▸ present)
      uniques := by
        rw [map_append, nodup_append]
        refine ⟨t.uniques, by simp, ?_⟩
        intro a present b last same
        simp only [map_cons, map_nil, mem_singleton] at last
        exact fresh.2 (last ▸ same ▸ present) }
  else none

theorem insert_eq_some [DecidableEq κ] [DecidableEq υ] :
    t.insert r = some t' ↔
      (∀ s ∈ t, key s ≠ key r) ∧ (∀ s ∈ t, unique s ≠ unique r) ∧ t'.rows = t.rows ++ [r] := by
  unfold insert
  split
  · rename_i fresh
    simp only [mem_map, not_exists, not_and] at fresh
    simp only [Option.some.injEq]
    constructor
    · rintro rfl
      exact ⟨fresh.1, fresh.2, rfl⟩
    · rintro ⟨-, -, rows⟩
      exact ext rows.symm
  · rename_i taken
    simp only [reduceCtorEq, false_iff]
    rintro ⟨freshKey, freshUnique, -⟩
    apply taken
    simp only [mem_map, not_exists, not_and]
    exact ⟨freshKey, freshUnique⟩

theorem exists_insert [DecidableEq κ] [DecidableEq υ] (freshKey : ∀ s ∈ t, key s ≠ key r)
    (freshUnique : ∀ s ∈ t, unique s ≠ unique r) : ∃ t', t.insert r = some t' := by
  unfold insert
  rw [dif_pos (by simp only [mem_map, not_exists, not_and]; exact ⟨freshKey, freshUnique⟩)]
  exact ⟨_, rfl⟩

section

variable [DecidableEq κ] [DecidableEq υ] (inserted : t.insert r = some t')
include inserted

theorem mem_insert : s ∈ t' ↔ s ∈ t ∨ s = r := by
  obtain ⟨-, -, rows⟩ := insert_eq_some.mp inserted
  change s ∈ t'.rows ↔ s ∈ t.rows ∨ s = r
  rw [rows, mem_append, mem_singleton]

theorem find_insert_self : t'.find (key r) = some r :=
  find_eq_some.mpr ⟨(mem_insert inserted).mpr (.inr rfl), rfl⟩

theorem find_insert_of_ne (other : k ≠ key r) : t'.find k = t.find k := by
  cases found : t.find k with
  | none =>
    refine find_eq_none.mpr fun s member => ?_
    rcases (mem_insert inserted).mp member with old | rfl
    · exact find_eq_none.mp found s old
    · exact other.symm
  | some s =>
    obtain ⟨member, named⟩ := find_eq_some.mp found
    exact find_eq_some.mpr ⟨(mem_insert inserted).mpr (.inl member), named⟩

theorem length_insert : t'.rows.length = t.rows.length + 1 := by
  obtain ⟨-, -, rows⟩ := insert_eq_some.mp inserted
  simp [rows]

theorem count_insert (p : ρ → Bool) : t'.count p = t.count p + if p r then 1 else 0 := by
  obtain ⟨-, -, rows⟩ := insert_eq_some.mp inserted
  simp [count, rows, countP_append, countP_cons]

end

/-- The second table is the first with the row `r` replaced by `r'` in its place. -/
structure Replaces (t t' : Table ρ key unique) (r r' : ρ) : Prop where
  split : ∃ front back, t.rows = front ++ r :: back ∧ t'.rows = front ++ r' :: back
  sameKey : key r' = key r
  sameUnique : unique r' = unique r

namespace Replaces

variable {t t' : Table ρ key unique} {r r' : ρ} (replaced : Replaces t t' r r')
include replaced

theorem old_mem : r ∈ t := by
  obtain ⟨front, back, before, -⟩ := replaced.split
  change r ∈ t.rows
  simp [before]

theorem new_mem : r' ∈ t' := by
  obtain ⟨front, back, -, after⟩ := replaced.split
  change r' ∈ t'.rows
  simp [after]

variable {s : ρ}

theorem mem_iff : s ∈ t' ↔ s = r' ∨ s ∈ t ∧ key s ≠ key r := by
  obtain ⟨front, back, before, after⟩ := replaced.split
  have keyed := t.keyed
  rw [before, map_append, map_cons, nodup_append, nodup_cons] at keyed
  obtain ⟨-, ⟨notBack, -⟩, apart⟩ := keyed
  have notFront : ∀ x ∈ front, key x ≠ key r := fun x member =>
    apart _ (mem_map_of_mem member) _ mem_cons_self
  have notLater : ∀ x ∈ back, key x ≠ key r := fun x member same =>
    notBack (same ▸ mem_map_of_mem member)
  change s ∈ t'.rows ↔ s = r' ∨ s ∈ t.rows ∧ key s ≠ key r
  rw [before, after]
  simp only [mem_append, mem_cons]
  constructor
  · rintro (member | rfl | member)
    · exact .inr ⟨.inl member, notFront s member⟩
    · exact .inl rfl
    · exact .inr ⟨.inr (.inr member), notLater s member⟩
  rintro (rfl | ⟨member | rfl | member, other⟩)
  · exact .inr (.inl rfl)
  · exact .inl member
  · exact absurd rfl other
  · exact .inr (.inr member)

theorem mem_or_eq (member : s ∈ t') : s ∈ t ∨ s = r' := (replaced.mem_iff.mp member).symm.imp_left And.left

theorem mem_of_ne (member : s ∈ t) (other : key s ≠ key r) : s ∈ t' :=
  replaced.mem_iff.mpr (.inr ⟨member, other⟩)

theorem find_of_ne [DecidableEq κ] {k : κ} (other : k ≠ key r) : t'.find k = t.find k := by
  cases found : t.find k with
  | none =>
    refine find_eq_none.mpr fun s member => ?_
    rcases replaced.mem_or_eq member with old | rfl
    · exact find_eq_none.mp found s old
    · rw [replaced.sameKey]
      exact other.symm
  | some s =>
    obtain ⟨member, rfl⟩ := find_eq_some.mp found
    exact find_eq_some.mpr ⟨replaced.mem_of_ne member other, rfl⟩

theorem count_add (p : ρ → Bool) :
    t'.count p + (if p r then 1 else 0) = t.count p + (if p r' then 1 else 0) := by
  obtain ⟨front, back, before, after⟩ := replaced.split
  simp only [count, before, after, countP_append, countP_cons]
  omega

theorem exists_key (member : s ∈ t) : ∃ s' ∈ t', key s' = key s := by
  classical
  by_cases same : key s = key r
  · exact ⟨r', replaced.new_mem, replaced.sameKey.trans same.symm⟩
  · exact ⟨s, replaced.mem_of_ne member same, rfl⟩

end Replaces

theorem update_replaces {f : ρ → ρ}
    (keepsKey : ∀ r, key (f r) = key r) (keepsUnique : ∀ r, unique (f r) = unique r)
    (member : r ∈ t) (holds : p r = true) (only : ∀ s ∈ t, p s = true → key s = key r) :
    Replaces t (t.update p f keepsKey keepsUnique) r (f r) := by
  obtain ⟨front, back, split⟩ := append_of_mem member
  have keyed := t.keyed
  rw [split, map_append, map_cons, nodup_append, nodup_cons] at keyed
  obtain ⟨-, ⟨notBack, -⟩, apart⟩ := keyed
  have inFront : ∀ x ∈ front, (if p x then f x else x) = x := fun x inside => by
    refine if_neg fun picked => apart _ (mem_map_of_mem inside) _ mem_cons_self ?_
    exact only x (by change x ∈ t.rows; simp [split, inside]) picked
  have inBack : ∀ x ∈ back, (if p x then f x else x) = x := fun x inside => by
    refine if_neg fun picked => notBack ?_
    rw [← only x (by change x ∈ t.rows; simp [split, inside]) picked]
    exact mem_map_of_mem inside
  refine ⟨⟨front, back, split, ?_⟩, keepsKey r, keepsUnique r⟩
  change t.rows.map _ = _
  rw [split, map_append, map_cons, if_pos holds]
  rw [map_congr_left inFront, map_congr_left inBack, map_id', map_id']

theorem count_eq_one (member : r ∈ t) (holds : p r = true)
    (only : ∀ s ∈ t, p s = true → key s = key r) : t.count p = 1 := by
  obtain ⟨front, back, split⟩ := append_of_mem member
  have keyed := t.keyed
  rw [split, map_append, map_cons, nodup_append, nodup_cons] at keyed
  obtain ⟨-, ⟨notBack, -⟩, apart⟩ := keyed
  have inFront : front.countP p = 0 := countP_eq_zero.mpr fun x inside picked =>
    apart _ (mem_map_of_mem inside) _ mem_cons_self
      (only x (by change x ∈ t.rows; simp [split, inside]) picked)
  have inBack : back.countP p = 0 := countP_eq_zero.mpr fun x inside picked => by
    apply notBack
    rw [← only x (by change x ∈ t.rows; simp [split, inside]) picked]
    exact mem_map_of_mem inside
  simp [count, split, countP_append, inFront, inBack, holds]

theorem nodup_assign [DecidableEq κ] (t : Table ρ key key) (row : ρ) :
    (((t.delete fun other => key other = key row).rows ++ [row]).map key).Nodup := by
  rw [map_append, map_singleton, nodup_append]
  refine ⟨(t.delete _).keyed, by simp, ?_⟩
  intro a present b last same
  obtain ⟨other, member, rfl⟩ := mem_map.mp present
  have differs := (mem_delete.mp (mem_rows.mp member)).2
  rw [mem_singleton.mp last] at same
  exact of_decide_eq_false differs same

/-- `m[key] = row`. -/
def assign [DecidableEq κ] (t : Table ρ key key) (row : ρ) : Table ρ key key where
  rows := (t.delete fun other => key other = key row).rows ++ [row]
  keyed := t.nodup_assign row
  uniques := t.nodup_assign row

theorem mem_assign [DecidableEq κ] {t : Table ρ key key} {row other : ρ} :
    other ∈ t.assign row ↔ other = row ∨ other ∈ t ∧ key other ≠ key row := by
  change other ∈ (t.delete _).rows ++ [row] ↔ _
  rw [mem_append, mem_singleton, mem_rows, mem_delete, decide_eq_false_iff_not, or_comm]

theorem length_assign_le [DecidableEq κ] (t : Table ρ key key) (row : ρ) :
    (t.assign row).rows.length ≤ t.rows.length + 1 := by
  have shrunk := t.length_delete_le fun other => key other = key row
  change ((t.delete _).rows ++ [row]).length ≤ _
  rw [length_append, length_singleton]
  omega

end Table

end Aeontra.Library
