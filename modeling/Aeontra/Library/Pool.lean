import Aeontra.Library.Process

/-!
Programs that run at the same time on one state.

A schedule says, request by request, which thread goes on and how it is answered; what a
thread asks for is done at once.  A thread that the schedule leaves alone never starts.
-/

namespace Aeontra.Library

def Process.request {Op : Type} {Answer : Op → Type} {α : Type} : Process Op Answer α → Option Op
  | .done _ => none
  | .ask op _ => some op

structure Pool (Op : Type) (Answer : Op → Type) (α State : Type) where
  threads : List (Process Op Answer α)
  state : State

namespace Pool

variable {Op : Type} {Answer : Op → Type} {α State Choice : Type}

def request (pool : Pool Op Answer α State) (i : Nat) : Option Op := pool.threads[i]?.bind Process.request

def step (env : Environment Op Answer State Choice) (pool : Pool Op Answer α State) (turn : Nat × Choice) :
    Pool Op Answer α State :=
  match pool.threads[turn.1]? with
  | some (.ask op next) =>
    { threads := pool.threads.set turn.1 (next (env.react op turn.2 pool.state).1)
      state := (env.react op turn.2 pool.state).2 }
  | _ => pool

def run (env : Environment Op Answer State Choice) (pool : Pool Op Answer α State)
    (schedule : List (Nat × Choice)) : Pool Op Answer α State := schedule.foldl (step env) pool

def history (env : Environment Op Answer State Choice) :
    Pool Op Answer α State → List (Nat × Choice) → List (Pool Op Answer α State × Nat × Choice)
  | _, [] => []
  | pool, turn :: schedule => (pool, turn) :: history env (pool.step env turn) schedule

theorem request_set (pool : Pool Op Answer α State) {i : Nat} {thread : Process Op Answer α}
    (here : pool.threads[i]? = some thread) (moved : Process Op Answer α) (s : State) :
    request ⟨pool.threads.set i moved, s⟩ = Function.update pool.request i moved.request := by
  funext j
  unfold request
  by_cases same : j = i
  · subst same
    rw [List.getElem?_set_self (List.getElem?_eq_some_iff.mp here).1, Function.update_self]
    rfl
  · rw [List.getElem?_set_ne (Ne.symm same), Function.update_of_ne same]

theorem step_cases (env : Environment Op Answer State Choice) (pool : Pool Op Answer α State)
    (turn : Nat × Choice) :
    (pool.request turn.1 = none ∧ pool.step env turn = pool) ∨
    (∃ op next, pool.threads[turn.1]? = some (.ask op next) ∧ pool.request turn.1 = some op ∧
      pool.step env turn =
        { threads := pool.threads.set turn.1 (next (env.react op turn.2 pool.state).1)
          state := (env.react op turn.2 pool.state).2 }) := by
  unfold step request
  cases here : pool.threads[turn.1]? with
  | none => exact .inl ⟨rfl, rfl⟩
  | some thread =>
    cases thread with
    | done result => exact .inl ⟨rfl, rfl⟩
    | ask op next => exact .inr ⟨op, next, rfl, rfl, rfl⟩

theorem run_keeps {env : Environment Op Answer State Choice}
    (good : List (Pool Op Answer α State × Nat × Choice) → Pool Op Answer α State → Prop)
    (allowed : Pool Op Answer α State → Nat × Choice → Prop)
    (stays : ∀ past pool turn, good past pool → allowed pool turn →
      good (past ++ [(pool, turn)]) (pool.step env turn))
    {past : List (Pool Op Answer α State × Nat × Choice)} {pool : Pool Op Answer α State}
    {schedule : List (Nat × Choice)} (start : good past pool)
    (all : ∀ e ∈ history env pool schedule, allowed e.1 e.2) :
    good (past ++ history env pool schedule) (pool.run env schedule) := by
  induction schedule generalizing past pool with
  | nil =>
    rw [history, List.append_nil]
    exact start
  | cons turn schedule ih =>
    have first := stays past pool turn start (all (pool, turn) List.mem_cons_self)
    have later := ih first fun e member => all e (List.mem_cons_of_mem _ member)
    rw [List.append_assoc] at later
    exact later

end Pool

end Aeontra.Library
