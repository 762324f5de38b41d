import Mathlib.Data.List.Basic

/-!
Error-returning computations as `Except String`, with the inversion rules used to
read what a successful run has checked.
-/

namespace Aeontra.Library

open Except Bool List

/-- Stop with `message` when `bad` holds. -/
def reject (bad : Bool) (message : String) : Except String Unit :=
  if bad then .error message else .ok ()

variable {α β ε σ : Type} {bad : Bool} {message e : String} {u : Unit} {f : α → Except ε β} {x : Except ε α}
  {a : α} {step : σ → α → Except ε σ}

@[simp] theorem reject_eq_ok : reject bad message = .ok u ↔ bad = false := by
  cases bad <;> simp [reject]

theorem reject_eq_error : reject bad message = .error e ↔ bad = true ∧ message = e := by
  cases bad <;> simp [reject]

@[simp] theorem reject_false (message : String) : reject false message = .ok () := rfl

@[simp] theorem reject_true (message : String) : reject true message = .error message := rfl

@[simp] theorem bind_eq_ok {b : β} : (x >>= f) = .ok b ↔ ∃ a, x = .ok a ∧ f a = .ok b := by
  cases x with
  | error e => simp [bind, Except.bind]
  | ok a => simp [bind, Except.bind]

theorem bind_eq_error {e : ε} : (x >>= f) = .error e ↔ x = .error e ∨ ∃ a, x = .ok a ∧ f a = .error e := by
  cases x with
  | error e => simp [bind, Except.bind]
  | ok a => simp [bind, Except.bind]

@[simp] theorem ok_bind (a : α) (f : α → Except ε β) : ((ok a : Except ε α) >>= f) = f a := rfl

@[simp] theorem error_bind (e : ε) (f : α → Except ε β) : ((error e : Except ε α) >>= f) = .error e := rfl

@[simp] theorem pure_eq_ok {b : α} : (pure a : Except ε α) = .ok b ↔ a = b := by
  simp [pure, Except.pure]

def orFail {α : Type} (message : String) : Except String α → Except String α
  | .ok a => .ok a
  | .error _ => .error message

@[simp] theorem orFail_eq_ok {x : Except String α} : orFail message x = .ok a ↔ x = .ok a := by
  cases x <;> simp [orFail]

theorem orFail_eq_error {x : Except String α} :
    orFail message x = .error e ↔ (∃ e', x = .error e') ∧ message = e := by
  cases x <;> simp [orFail]

def required {α : Type} (message : String) : Option α → Except String α
  | some a => .ok a
  | none => .error message

@[simp] theorem required_eq_ok {x : Option α} : required message x = .ok a ↔ x = some a := by
  cases x <;> simp [required]

theorem required_eq_error {x : Option α} : required message x = .error e ↔ x = none ∧ message = e := by
  cases x <;> simp [required]

/-- What a successful run has checked, for each way to build one. -/
theorem ok_iff :
    (∀ {α β ε : Type} {x : Except ε α} {f : α → Except ε β} {b : β},
      (x >>= f) = .ok b ↔ ∃ a, x = .ok a ∧ f a = .ok b) ∧
    (∀ {α ε : Type} {a b : α}, (pure a : Except ε α) = .ok b ↔ a = b) ∧
    (∀ {bad : Bool} {message : String} {u : Unit}, reject bad message = .ok u ↔ bad = false) ∧
    (∀ {α : Type} {message : String} {x : Except String α} {a : α}, orFail message x = .ok a ↔ x = .ok a) ∧
    (∀ {α : Type} {message : String} {x : Option α} {a : α}, required message x = .ok a ↔ x = some a) ∧
    (∀ {α β : Type} {a c : α} {b d : β}, (a, b) = (c, d) ↔ a = c ∧ b = d) ∧
    ∀ {b : Bool}, (!b) = false ↔ b = true :=
  ⟨bind_eq_ok, pure_eq_ok, reject_eq_ok, orFail_eq_ok, required_eq_ok, iff_of_eq (Prod.mk.injEq ..),
    iff_of_eq (not_eq_false' _)⟩

theorem bool_iff : (∀ {a b : Bool}, (a && b) = true ↔ a = true ∧ b = true) ∧
    (∀ {a b : Bool}, (a || b) = true ↔ a = true ∨ b = true) ∧
    (∀ {a b : Bool}, (a || b) = false ↔ a = false ∧ b = false) ∧ (∀ {b : Bool}, (!b) = true ↔ b = false) ∧
    (∀ {p : Prop} [Decidable p], decide p = true ↔ p) ∧ ∀ {p : Prop} [Decidable p], decide p = false ↔ ¬ p :=
  ⟨and_eq_true_iff, or_eq_true_iff, or_eq_false_iff, by simp, decide_eq_true_iff, decide_eq_false_iff_not⟩

theorem mapM_eq_error {e : ε} : ∀ {items : List α}, items.mapM f = .error e → ∃ item ∈ items, f item = .error e
  | [], failed => by simp [pure, Except.pure] at failed
  | item :: items, failed => by
      rw [mapM_cons, bind_eq_error] at failed
      rcases failed with here | ⟨first, -, failed⟩
      · exact ⟨item, mem_cons_self, here⟩
      rw [bind_eq_error] at failed
      rcases failed with later | ⟨rest, -, failed⟩
      · obtain ⟨other, member, failed⟩ := mapM_eq_error later
        exact ⟨other, mem_cons_of_mem _ member, failed⟩
      · cases failed

/-- A relation that holds of every step of a successful fold and composes holds
between its two ends. -/
theorem foldlM_induction {R : σ → σ → Prop} (refl : ∀ s, R s s) (trans : ∀ {a b c}, R a b → R b c → R a c)
    (each : ∀ {s x s'}, step s x = .ok s' → R s s') :
    ∀ {items : List α} {s s' : σ}, items.foldlM step s = .ok s' → R s s'
  | [], s, s', run => by
      rw [foldlM_nil, pure_eq_ok] at run
      exact run ▸ refl s
  | x :: items, s, s', run => by
      rw [foldlM_cons, bind_eq_ok] at run
      obtain ⟨middle, first, rest⟩ := run
      exact trans (each first) (foldlM_induction refl trans each rest)

theorem foldlM_keeps {P : σ → Prop} :
    ∀ {items : List α} {s s' : σ}, (∀ {s x s'}, x ∈ items → P s → step s x = .ok s' → P s') → P s →
      items.foldlM step s = .ok s' → P s'
  | [], s, s', _, start, run => by
      rw [foldlM_nil, pure_eq_ok] at run
      exact run ▸ start
  | x :: items, s, s', keeps, start, run => by
      rw [foldlM_cons, bind_eq_ok] at run
      obtain ⟨middle, first, rest⟩ := run
      exact foldlM_keeps (fun member => keeps (mem_cons_of_mem _ member))
        (keeps mem_cons_self start first) rest

theorem forM_eq_ok {check : α → Except ε Unit} {items : List α} :
    items.forM check = .ok u ↔ ∀ item ∈ items, check item = .ok () := by
  induction items with
  | nil => simp [pure, Except.pure]
  | cons item items ih =>
    change (check item >>= fun _ => items.forM check) = .ok u ↔ _
    rw [bind_eq_ok, forall_mem_cons, ← ih]
    constructor
    · rintro ⟨u, first, rest⟩
      exact ⟨first, rest⟩
    · rintro ⟨first, rest⟩
      exact ⟨(), first, rest⟩

end Aeontra.Library
