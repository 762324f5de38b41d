import Mathlib.Data.List.AList
import Mathlib.Order.Lattice

/-!
Finite maps as their entries, what they say about each key, and tables whose values are
good for a while only.
-/

namespace Aeontra.Library

open List Function

/-- A finite map; the order of its entries is that of their insertion. -/
abbrev Dictionary (κ ν : Type) := AList fun _ : κ => ν

namespace Dictionary

variable {κ ν : Type}

def size (d : Dictionary κ ν) : Nat := d.entries.length

def keep (test : κ → ν → Bool) (d : Dictionary κ ν) : Dictionary κ ν :=
  ⟨d.entries.filter fun e => test e.1 e.2, d.nodupKeys.sublist filter_sublist⟩

theorem size_keep_le (test : κ → ν → Bool) (d : Dictionary κ ν) : (d.keep test).size ≤ d.size :=
  length_filter_le _ _

variable [DecidableEq κ]

def read (d : Dictionary κ ν) : κ → Option ν := fun k => d.lookup k

def set (d : Dictionary κ ν) (k : κ) (v : ν) : Dictionary κ ν := d.insert k v

def delete (d : Dictionary κ ν) (k : κ) : Dictionary κ ν := d.erase k

variable {d e : Dictionary κ ν}

theorem read_eq_some {k : κ} {v : ν} : d.read k = some v ↔ ⟨k, v⟩ ∈ d.entries := AList.mem_lookup_iff

@[simp] theorem read_set (d : Dictionary κ ν) (k : κ) (v : ν) :
    (d.set k v).read = Function.update d.read k (some v) := by
  funext k'
  by_cases same : k' = k
  · subst same
    rw [update_self]
    exact AList.lookup_insert d
  · rw [update_of_ne same]
    exact AList.lookup_insert_ne same

@[simp] theorem read_delete (d : Dictionary κ ν) (k : κ) :
    (d.delete k).read = Function.update d.read k none := by
  funext k'
  by_cases same : k' = k
  · subst same
    rw [update_self]
    exact AList.lookup_erase k' d
  · rw [update_of_ne same]
    exact AList.lookup_erase_ne same

@[simp] theorem read_keep (test : κ → ν → Bool) (d : Dictionary κ ν) (k : κ) :
    (d.keep test).read k = (d.read k).filter (test k) := by
  apply Option.ext
  intro v
  rw [read_eq_some, Option.filter_eq_some_iff, read_eq_some]
  exact mem_filter

theorem entries_perm (same : d.read = e.read) : d.entries.Perm e.entries := by
  refine lookup_ext d.nodupKeys e.nodupKeys fun k v => ?_
  have here : d.lookup k = e.lookup k := congrFun same k
  exact iff_of_eq (congrArg (v ∈ ·) here)

theorem size_eq (same : d.read = e.read) : d.size = e.size := (entries_perm same).length_eq

theorem size_set_le (d : Dictionary κ ν) (k : κ) (v : ν) : (d.set k v).size ≤ d.size + 1 := by
  unfold size set
  rw [AList.entries_insert, length_cons]
  exact Nat.succ_le_succ (kerase_sublist k d.entries).length_le

theorem size_delete_le (d : Dictionary κ ν) (k : κ) : (d.delete k).size ≤ d.size :=
  (kerase_sublist k d.entries).length_le

theorem entries_foldl_set (l : List (Sigma fun _ : κ => ν)) (d : Dictionary κ ν)
    (distinct : (l ++ d.entries).NodupKeys) :
    (l.foldl (fun d e => d.set e.1 e.2) d).entries.Perm (l ++ d.entries) := by
  induction l generalizing d with
  | nil => exact Perm.refl _
  | cons e l ih =>
    rw [cons_append, nodupKeys_cons] at distinct
    have absent : e.1 ∉ d := fun member => distinct.1 (by
      rw [keys, map_append]
      exact mem_append_right _ member)
    have entries : (d.set e.1 e.2).entries = e :: d.entries := AList.entries_insert_of_notMem absent
    have middle : (l ++ e :: d.entries).Perm (e :: (l ++ d.entries)) := perm_middle
    rw [foldl_cons, cons_append]
    refine (ih _ ?_).trans ?_
    · rw [entries]
      exact (perm_nodupKeys middle).mpr (nodupKeys_cons.mpr distinct)
    · rw [entries]
      exact middle

section

variable {ρ : Type} (key : ρ → κ) (value : ρ → ν)

def ofRows (rows : List ρ) : Dictionary κ ν := rows.foldl (fun d r => d.set (key r) (value r)) ∅

def column (rows : List ρ) : κ → Option ν := fun k => (rows.find? fun r => key r = k).map value

variable {key value}

variable {rows : List ρ} {d : Dictionary κ ν} {row : κ → ν → ρ}

variable (distinct : (rows.map key).Nodup)

include distinct

theorem column_eq_some {k : κ} {v : ν} :
    column key value rows k = some v ↔ ∃ r ∈ rows, key r = k ∧ value r = v := by
  rw [column, Option.map_eq_some_iff]
  constructor
  · rintro ⟨r, found, same⟩
    have here := find?_some found
    exact ⟨r, mem_of_find?_eq_some found, of_decide_eq_true here, same⟩
  rintro ⟨r, member, here, same⟩
  cases found : rows.find? fun r => key r = k with
  | none =>
    have missing := find?_eq_none.mp found r member
    exact absurd (decide_eq_true here) missing
  | some r' =>
    have passes := find?_some found
    have there : key r' = k := of_decide_eq_true passes
    have equal : r' = r :=
      inj_on_of_nodup_map distinct (mem_of_find?_eq_some found) member (there.trans here.symm)
    exact ⟨r', rfl, equal ▸ same⟩

theorem entries_ofRows : (ofRows key value rows).entries.Perm (rows.map fun r => ⟨key r, value r⟩) := by
  have whole : (rows.map fun r => (⟨key r, value r⟩ : Sigma fun _ : κ => ν)).NodupKeys := by
    rw [List.NodupKeys, List.keys, map_map]
    exact distinct
  have perm := entries_foldl_set (rows.map fun r => (⟨key r, value r⟩ : Sigma fun _ : κ => ν)) ∅
    (by rwa [AList.empty_entries, append_nil])
  rw [foldl_map, AList.empty_entries, append_nil] at perm
  exact perm

theorem size_ofRows : (ofRows key value rows).size = rows.length := by
  rw [size, (entries_ofRows distinct).length_eq, length_map]

theorem read_ofRows : (ofRows key value rows).read = column key value rows := by
  funext k
  apply Option.ext
  intro v
  rw [column_eq_some distinct, read_eq_some, (entries_ofRows distinct).mem_iff, mem_map]
  constructor
  · rintro ⟨r, member, same⟩
    cases same
    exact ⟨r, member, rfl, rfl⟩
  · rintro ⟨r, member, rfl, rfl⟩
    exact ⟨r, member, rfl⟩

theorem column_filter (test : κ → ν → Bool) (k : κ) :
    column key value (rows.filter fun r => test (key r) (value r)) k =
      (column key value rows k).filter (test k) := by
  apply Option.ext
  intro v
  have fewer : ((rows.filter fun r => test (key r) (value r)).map key).Nodup :=
    distinct.sublist (filter_sublist.map key)
  rw [column_eq_some fewer, Option.filter_eq_some_iff, column_eq_some distinct]
  constructor
  · rintro ⟨r, member, rfl, rfl⟩
    obtain ⟨inside, passes⟩ := mem_filter.mp member
    exact ⟨⟨r, inside, rfl, rfl⟩, passes⟩
  · rintro ⟨⟨r, inside, rfl, rfl⟩, passes⟩
    exact ⟨r, mem_filter.mpr ⟨inside, passes⟩, rfl, rfl⟩

omit distinct

omit [DecidableEq κ] in
theorem keys_of_entries (keyed : ∀ k v, key (row k v) = k)
    (perm : rows.Perm (d.entries.map fun e => row e.1 e.2)) : (rows.map key).Nodup := by
  have keys : (d.entries.map fun e => row e.1 e.2).map key = d.keys := by
    rw [map_map]
    exact map_congr_left fun e _ => keyed e.1 e.2
  rw [(perm.map key).nodup_iff, keys]
  exact d.keys_nodup

theorem column_entries (keyed : ∀ k v, key (row k v) = k) (valued : ∀ k v, value (row k v) = v)
    (perm : rows.Perm (d.entries.map fun e => row e.1 e.2)) : column key value rows = d.read := by
  funext k
  apply Option.ext
  intro v
  rw [column_eq_some (keys_of_entries keyed perm), read_eq_some]
  constructor
  · rintro ⟨r, member, rfl, rfl⟩
    obtain ⟨e, inside, rfl⟩ := mem_map.mp (perm.mem_iff.mp member)
    rw [keyed, valued]
    exact inside
  · intro member
    exact ⟨row k v, perm.mem_iff.mpr (mem_map.mpr ⟨_, member, rfl⟩), keyed k v, valued k v⟩

end

end Dictionary

section

variable {κ ν : Type} {Instant : Type} [LinearOrder Instant] (expiry : ν → Instant)

def alive (now : Instant) (t : κ → Option ν) : κ → Option ν := fun k => (t k).filter fun v => now ≤ expiry v

variable {expiry}

variable {now later : Instant} {t u : κ → Option ν}

theorem alive_eq_some {k : κ} {v : ν} : alive expiry now t k = some v ↔ t k = some v ∧ now ≤ expiry v := by
  rw [alive, Option.filter_eq_some_iff, decide_eq_true_iff]

theorem alive_alive (le : now ≤ later) (t : κ → Option ν) :
    alive expiry later (alive expiry now t) = alive expiry later t := by
  funext k
  apply Option.ext
  intro v
  rw [alive_eq_some, alive_eq_some, alive_eq_some]
  constructor
  · rintro ⟨⟨said, -⟩, live⟩
    exact ⟨said, live⟩
  · rintro ⟨said, live⟩
    exact ⟨⟨said, le_trans le live⟩, live⟩

theorem alive_mono (le : now ≤ later)
    (same : alive expiry now t = alive expiry now u) : alive expiry later t = alive expiry later u := by
  rw [← alive_alive le t, same, alive_alive le u]

variable [DecidableEq κ]

theorem alive_update (now : Instant) (t : κ → Option ν) (k : κ) (entry : Option ν) :
    alive expiry now (Function.update t k entry) =
      Function.update (alive expiry now t) k (entry.filter fun v => now ≤ expiry v) := by
  funext k'
  by_cases same : k' = k
  · subst same
    simp only [alive, update_self]
  · simp only [alive, update_of_ne same]

variable (same : alive expiry now t = alive expiry now u)

include same

theorem alive_update_congr (k : κ) (entry : Option ν) :
    alive expiry now (Function.update t k entry) = alive expiry now (Function.update u k entry) := by
  rw [alive_update, alive_update, same]

def withdraw (t : κ → Option ν) : Option κ → κ → Option ν
  | none => t
  | some k => Function.update t k none

def deposit (t : κ → Option ν) : Option (κ × ν) → κ → Option ν
  | none => t
  | some entry => Function.update t entry.1 (some entry.2)

theorem alive_withdraw (k : Option κ) : alive expiry now (withdraw t k) = alive expiry now (withdraw u k) := by
  cases k with
  | none => exact same
  | some k => exact alive_update_congr same k none

theorem alive_deposit
    (entry : Option (κ × ν)) : alive expiry now (deposit t entry) = alive expiry now (deposit u entry) := by
  cases entry with
  | none => exact same
  | some entry => exact alive_update_congr same entry.1 _

omit same

section

variable {t : κ → Option ν} {k : κ}

theorem deposit_apart {entry : Option (κ × ν)} (apart : ∀ e, entry = some e → e.1 ≠ k) (t : κ → Option ν) :
    deposit t entry k = t k := by
  cases entry with
  | none => rfl
  | some e => exact update_of_ne (apart e rfl).symm ..

theorem deposit_self (t : κ → Option ν) (v : ν) : deposit t (some (k, v)) k = some v := update_self ..

theorem withdraw_self (t : κ → Option ν) : withdraw t (some k) k = none := update_self ..

variable {withdrawn : Option κ}

theorem withdraw_apart (apart : withdrawn ≠ some k) (t : κ → Option ν) : withdraw t withdrawn k = t k := by
  cases withdrawn with
  | none => rfl
  | some other => exact update_of_ne (fun same => apart (congrArg some same.symm)) ..

theorem withdraw_none (gone : t k = none) : withdraw t withdrawn k = none := by
  by_cases here : withdrawn = some k
  · rw [here]
    exact withdraw_self t
  · rw [withdraw_apart here]
    exact gone

end

theorem Dictionary.read_keep_alive (now : Instant) (d : Dictionary κ ν) :
    (d.keep fun _ v => now ≤ expiry v).read = alive expiry now d.read := by
  funext k
  exact Dictionary.read_keep _ d k

end

end Aeontra.Library
