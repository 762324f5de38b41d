import Mathlib.Data.List.Basic

/-!
Programs that ask an environment they do not control.

The environment chooses how a request is answered and what it does to the shared state, and it may
stop answering: a program whose choices have run out was interrupted there.  A session is any
number of programs, one after the other, on what the interrupted ones left behind.
-/

namespace Aeontra.Library

open List

inductive Process (Op : Type) (Answer : Op → Type) (α : Type) where
  | done (result : α)
  | ask (op : Op) (next : Answer op → Process Op Answer α)

/-- How an environment answers a request, for each choice it has. -/
structure Environment (Op : Type) (Answer : Op → Type) (State Choice : Type) where
  react : (op : Op) → Choice → State → Answer op × State

structure Event (Op State : Type) where
  op : Op
  before : State
  after : State

/-- The choices an environment may make, what holds whenever it is asked, and what holds of
every answered request. -/
structure Rules (Op State Choice : Type) where
  may : Op → Choice → State → Prop
  holds : State → Prop
  allows : Event Op State → Prop

namespace Process

variable {Op : Type} {Answer : Op → Type} {α β : Type} {State Choice : Type}

def bind : Process Op Answer α → (α → Process Op Answer β) → Process Op Answer β
  | .done result, f => f result
  | .ask op next, f => .ask op fun answer => (next answer).bind f

instance : Monad (Process Op Answer) where
  pure := .done
  bind := bind

def perform (op : Op) : Process Op Answer (Answer op) := .ask op .done

/-- The result, unless the choices run out first, and the state that is left. -/
def run (env : Environment Op Answer State Choice) :
    Process Op Answer α → List Choice → State → Option α × State
  | .done result, _, s => (some result, s)
  | .ask _ _, [], s => (none, s)
  | .ask op next, choice :: choices, s =>
    (next (env.react op choice s).1).run env choices (env.react op choice s).2

def events (env : Environment Op Answer State Choice) :
    Process Op Answer α → List Choice → State → List (Event Op State)
  | .done _, _, _ => []
  | .ask _ _, [], _ => []
  | .ask op next, choice :: choices, s =>
    ⟨op, s, (env.react op choice s).2⟩ ::
      (next (env.react op choice s).1).events env choices (env.react op choice s).2

/-- Every choice made in a run is one the environment may make. -/
def Permitted (env : Environment Op Answer State Choice) (rules : Rules Op State Choice) :
    Process Op Answer α → List Choice → State → Prop
  | .done _, _, _ => True
  | .ask _ _, [], _ => True
  | .ask op next, choice :: choices, s =>
    rules.may op choice s ∧
      (next (env.react op choice s).1).Permitted env rules choices (env.react op choice s).2

/-- The rules are kept from `s` on however the environment chooses, and `post` holds of the
result and the state when the program returns. -/
def Ensures (env : Environment Op Answer State Choice) (rules : Rules Op State Choice) :
    Process Op Answer α → (α → State → Prop) → State → Prop
  | .done result, post, s => post result s
  | .ask op next, post, s =>
    rules.holds s ∧ ∀ choice, rules.may op choice s →
      rules.allows ⟨op, s, (env.react op choice s).2⟩ ∧
        (next (env.react op choice s).1).Ensures env rules post (env.react op choice s).2

section

variable {env : Environment Op Answer State Choice} {rules : Rules Op State Choice}

variable {post : α → State → Prop} {s : State} {p : Process Op Answer α}

theorem ensures_pure {result : α} (reached : post result s) :
    (pure result : Process Op Answer α).Ensures env rules post s := reached

theorem Ensures.mono {post' : α → State → Prop}
    (ensured : p.Ensures env rules post s) (weaker : ∀ a s, post a s → post' a s) :
    p.Ensures env rules post' s := by
  induction p generalizing s with
  | done result => exact weaker result s ensured
  | ask op next ih =>
    refine ⟨ensured.1, fun choice permitted => ?_⟩
    obtain ⟨allowed, rest⟩ := ensured.2 choice permitted
    exact ⟨allowed, ih _ rest⟩

variable {ε : Type} {f : α → Process Op Answer β} {op : Op}

theorem Ensures.bind {middle : α → State → Prop} {post : β → State → Prop}
    (first : p.Ensures env rules middle s) (rest : ∀ a s, middle a s → (f a).Ensures env rules post s) :
    (p >>= f).Ensures env rules post s := by
  change (Process.bind p f).Ensures env rules post s
  induction p generalizing s with
  | done result => exact rest result s first
  | ask op next ih =>
    refine ⟨first.1, fun choice permitted => ?_⟩
    obtain ⟨allowed, later⟩ := first.2 choice permitted
    exact ⟨allowed, ih _ later⟩

theorem ensures_via (middle : α → State → Prop) {post : β → State → Prop} (first : p.Ensures env rules middle s)
    (rest : ∀ a s, middle a s → (f a).Ensures env rules post s) : (p >>= f).Ensures env rules post s :=
  first.bind rest

theorem ensures_perform {post : Answer op → State → Prop} (held : rules.holds s)
    (answered : ∀ choice, rules.may op choice s →
      rules.allows ⟨op, s, (env.react op choice s).2⟩ ∧
        post (env.react op choice s).1 (env.react op choice s).2) :
    (perform op : Process Op Answer (Answer op)).Ensures env rules post s :=
  ⟨held, answered⟩

theorem ensures_quiet (unchanged : ∀ choice, (env.react op choice s).2 = s)
    (held : rules.holds s) (allowed : rules.allows ⟨op, s, s⟩) :
    (perform op : Process Op Answer (Answer op)).Ensures env rules
      (fun answer after => after = s ∧ ∃ choice, rules.may op choice s ∧ answer = (env.react op choice s).1) s := by
  refine ensures_perform held fun choice permitted => ?_
  rw [unchanged choice]
  exact ⟨allowed, rfl, choice, permitted, rfl⟩

/-- Every answered request is allowed, and the state that is left keeps the rule, interrupted or not. -/
theorem Ensures.run {choices : List Choice}
    (ensured : p.Ensures env rules post s) (permitted : p.Permitted env rules choices s) :
    (∀ e ∈ p.events env choices s, rules.allows e) ∧
      match (p.run env choices s).1 with
      | none => rules.holds (p.run env choices s).2
      | some a => post a (p.run env choices s).2 := by
  induction p generalizing s choices with
  | done result => exact ⟨fun _ member => absurd member not_mem_nil, ensured⟩
  | ask op next ih =>
    cases choices with
    | nil => exact ⟨fun _ member => absurd member not_mem_nil, ensured.1⟩
    | cons choice choices =>
      obtain ⟨allowed, later⟩ := ensured.2 choice permitted.1
      obtain ⟨every, final⟩ := ih _ later permitted.2
      refine ⟨fun e member => ?_, final⟩
      rcases mem_cons.mp member with rfl | rest
      · exact allowed
      · exact every e rest

theorem ensures_map {f : α → β} {post : β → State → Prop}
    (ensured : p.Ensures env rules (fun a s => post (f a) s) s) : (f <$> p).Ensures env rules post s :=
  ensured.bind fun _ _ reached => ensures_pure reached

/-- A value goes on with `middle`, an error is final. -/
def attempted {ε : Type} (middle : α → State → Prop) (post : Except ε β → State → Prop) : Except ε α → State → Prop
  | .ok a, s => middle a s
  | .error e, s => post (.error e) s

theorem ensures_attempt (middle : α → State → Prop) {p : ExceptT ε (Process Op Answer) α}
    {f : α → ExceptT ε (Process Op Answer) β} {post : Except ε β → State → Prop}
    (first : p.run.Ensures env rules (attempted middle post) s)
    (rest : ∀ a s, middle a s → (f a).run.Ensures env rules post s) : (p >>= f).run.Ensures env rules post s := by
  rw [ExceptT.run_bind]
  refine first.bind ?_
  intro result s reached
  cases result with
  | ok a => exact rest a s reached
  | error e => exact ensures_pure reached

theorem ensures_caught (middle : Except ε α → State → Prop) {p : Process Op Answer (Except ε α)}
    {f : Except ε α → ExceptT ε (Process Op Answer) β} {post : Except ε β → State → Prop}
    (first : p.Ensures env rules middle s)
    (rest : ∀ result s, middle result s → (f result).run.Ensures env rules post s) :
    (ExceptT.lift p >>= f).run.Ensures env rules post s :=
  ensures_attempt middle (ensures_map first) rest

end

/-- Never more than `n` of the counted requests, whatever is answered. -/
def AtMost (counts : Op → Bool) : Process Op Answer α → Nat → Prop
  | .done _, _ => True
  | .ask op next, n =>
    (counts op = true → 0 < n) ∧ ∀ answer, (next answer).AtMost counts (if counts op then n - 1 else n)

section

variable {counts : Op → Bool}

variable {n : Nat} {p : Process Op Answer α}

theorem atMost_pure {result : α} : (pure result : Process Op Answer α).AtMost counts n := trivial

theorem atMost_perform {op : Op} (room : counts op = true → 0 < n) :
    (perform op : Process Op Answer (Answer op)).AtMost counts n :=
  ⟨room, fun _ => trivial⟩

variable {m : Nat} {f : α → Process Op Answer β}

theorem AtMost.mono (bounded : p.AtMost counts n) (le : n ≤ m) : p.AtMost counts m := by
  induction p generalizing n m with
  | done result => trivial
  | ask op next ih =>
    refine ⟨fun counted => Nat.lt_of_lt_of_le (bounded.1 counted) le, fun answer => ?_⟩
    apply ih answer (bounded.2 answer)
    split
    · exact Nat.sub_le_sub_right le 1
    · exact le

theorem AtMost.bind
    (first : p.AtMost counts n) (rest : ∀ a, (f a).AtMost counts m) : (p >>= f).AtMost counts (n + m) := by
  change (Process.bind p f).AtMost counts (n + m)
  induction p generalizing n with
  | done result => exact (rest result).mono (Nat.le_add_left m n)
  | ask op next ih =>
    refine ⟨fun counted => Nat.add_pos_left (first.1 counted) m, fun answer => ?_⟩
    apply AtMost.mono (ih answer (first.2 answer))
    split
    · next counted =>
      have positive := first.1 counted
      omega
    · exact Nat.le_refl _

theorem AtMost.andThen
    (first : p.AtMost counts 0) (rest : ∀ a, (f a).AtMost counts n) : (p >>= f).AtMost counts n := by
  have bounded := first.bind rest
  rwa [Nat.zero_add] at bounded

theorem AtMost.events {env : Environment Op Answer State Choice}
    (bounded : p.AtMost counts n) (choices : List Choice) (s : State) :
    ((p.events env choices s).filter fun e => counts e.op).length ≤ n := by
  induction p generalizing n choices s with
  | done result => exact Nat.zero_le n
  | ask op next ih =>
    cases choices with
    | nil => exact Nat.zero_le n
    | cons choice choices =>
      have later := ih _ (bounded.2 (env.react op choice s).1) choices (env.react op choice s).2
      rw [Process.events, filter_cons]
      split
      · next counted =>
        rw [if_pos counted] at later
        have positive := bounded.1 counted
        rw [length_cons]
        omega
      · next uncounted =>
        rw [if_neg uncounted] at later
        exact later

theorem AtMost.returns {env : Environment Op Answer State Choice}
    (bounded : p.AtMost (fun _ => true) n) {choices : List Choice} (enough : n ≤ choices.length) (s : State) :
    ∃ a, (p.run env choices s).1 = some a := by
  induction p generalizing n choices s with
  | done result => exact ⟨result, rfl⟩
  | ask op next ih =>
    have positive := bounded.1 rfl
    cases choices with
    | nil =>
      rw [length_nil] at enough
      omega
    | cons choice choices =>
      rw [length_cons] at enough
      exact ih _ (bounded.2 _) (by rw [if_pos rfl]; omega) _

end

theorem returns_replicate (env : Environment Op Answer State Choice) (p : Process Op Answer α) (choice : Choice)
    (s : State) : ∃ n a, (p.run env (replicate n choice) s).1 = some a := by
  induction p generalizing s with
  | done result => exact ⟨0, result, rfl⟩
  | ask op next ih =>
    obtain ⟨n, a, returned⟩ := ih (env.react op choice s).1 (env.react op choice s).2
    exact ⟨n + 1, a, returned⟩

/-- The state that a session of programs leaves, each cut where its choices end. -/
def sessionState (env : Environment Op Answer State Choice) :
    List (Process Op Answer α × List Choice) → State → State
  | [], s => s
  | (p, choices) :: rest, s => sessionState env rest (p.run env choices s).2

def sessionEvents (env : Environment Op Answer State Choice) :
    List (Process Op Answer α × List Choice) → State → List (Event Op State)
  | [], _ => []
  | (p, choices) :: rest, s => p.events env choices s ++ sessionEvents env rest (p.run env choices s).2

def SessionPermitted (env : Environment Op Answer State Choice) (rules : Rules Op State Choice) :
    List (Process Op Answer α × List Choice) → State → Prop
  | [], _ => True
  | (p, choices) :: rest, s =>
    p.Permitted env rules choices s ∧ SessionPermitted env rules rest (p.run env choices s).2

variable {env : Environment Op Answer State Choice} {rules : Rules Op State Choice}
  {session : List (Process Op Answer α × List Choice)} {s final : State} {P : State → Prop}
  {list : List (Event Op State)}

variable {good : Choice → Prop} {first rest : List (Process Op Answer α × List Choice)}

theorem permitted_of_choices (free : ∀ op choice s, good choice → rules.may op choice s)
    (p : Process Op Answer α) {choices : List Choice} (all : ∀ choice ∈ choices, good choice) (s : State) :
    p.Permitted env rules choices s := by
  induction p generalizing choices s with
  | done result => trivial
  | ask op next ih =>
    cases choices with
    | nil => trivial
    | cons choice choices =>
      exact ⟨free op choice s (all choice mem_cons_self),
        ih _ (fun c member => all c (mem_cons_of_mem _ member)) _⟩

theorem sessionPermitted_of_choices (free : ∀ op choice s, good choice → rules.may op choice s)
    (all : ∀ entry ∈ session, ∀ choice ∈ entry.2, good choice) (s : State) :
    SessionPermitted env rules session s := by
  induction session generalizing s with
  | nil => trivial
  | cons entry session ih =>
    exact ⟨permitted_of_choices free entry.1 (all entry mem_cons_self) s,
      ih (fun entry member => all entry (mem_cons_of_mem _ member)) _⟩

def SessionStarts (env : Environment Op Answer State Choice) (P : State → Prop) :
    List (Process Op Answer α × List Choice) → State → Prop
  | [], _ => True
  | (p, choices) :: rest, s => P s ∧ SessionStarts env P rest (p.run env choices s).2

theorem sessionState_append (env : Environment Op Answer State Choice)
    (first rest : List (Process Op Answer α × List Choice)) (s : State) :
    sessionState env (first ++ rest) s = sessionState env rest (sessionState env first s) := by
  induction first generalizing s with
  | nil => rfl
  | cons entry first ih => exact ih _

theorem sessionPermitted_append :
    SessionPermitted env rules (first ++ rest) s ↔
      SessionPermitted env rules first s ∧ SessionPermitted env rules rest (sessionState env first s) := by
  induction first generalizing s with
  | nil => exact iff_of_eq (true_and _).symm
  | cons entry first ih => exact (and_congr_right fun _ => ih).trans and_assoc.symm

theorem sessionStarts_append :
    SessionStarts env P (first ++ rest) s ↔
      SessionStarts env P first s ∧ SessionStarts env P rest (sessionState env first s) := by
  induction first generalizing s with
  | nil => exact iff_of_eq (true_and _).symm
  | cons entry first ih => exact (and_congr_right fun _ => ih).trans and_assoc.symm

theorem session_keeps_from
    (each : ∀ entry ∈ session, ∀ s, rules.holds s → P s →
      entry.1.Ensures env rules (fun _ s => rules.holds s) s)
    (start : rules.holds s) (starts : SessionStarts env P session s)
    (permitted : SessionPermitted env rules session s) :
    (∀ e ∈ sessionEvents env session s, rules.allows e) ∧ rules.holds (sessionState env session s) := by
  induction session generalizing s with
  | nil => exact ⟨fun _ member => absurd member not_mem_nil, start⟩
  | cons entry session ih =>
    obtain ⟨p, choices⟩ := entry
    obtain ⟨every, final⟩ := (each _ mem_cons_self s start starts.1).run permitted.1
    have left : rules.holds (p.run env choices s).2 := by
      cases result : (p.run env choices s).1 with
      | none => rw [result] at final; exact final
      | some a => rw [result] at final; exact final
    obtain ⟨later, last⟩ := ih (fun entry member => each entry (mem_cons_of_mem _ member)) left starts.2
      permitted.2
    refine ⟨fun e member => ?_, last⟩
    rcases mem_append.mp member with now | after
    · exact every e now
    · exact later e after

theorem sessionStarts_trivial (env : Environment Op Answer State Choice)
    (session : List (Process Op Answer α × List Choice)) (s : State) :
    SessionStarts env (fun _ => True) session s := by
  induction session generalizing s with
  | nil => trivial
  | cons entry session ih => exact ⟨trivial, ih _⟩

theorem session_keeps
    (each : ∀ entry ∈ session, ∀ s, rules.holds s → entry.1.Ensures env rules (fun _ s => rules.holds s) s)
    (start : rules.holds s) (permitted : SessionPermitted env rules session s) :
    (∀ e ∈ sessionEvents env session s, rules.allows e) ∧ rules.holds (sessionState env session s) :=
  session_keeps_from (fun entry member s held _ => each entry member s held) start
    (sessionStarts_trivial env session s) permitted

/-- Requests answered one after the other: each one meets the state the one before it left. -/
inductive Chained : State → List (Event Op State) → State → Prop
  | nil (s : State) : Chained s [] s
  | cons {e : Event Op State} {rest : List (Event Op State)} {final : State} :
      Chained e.after rest final → Chained e.before (e :: rest) final

theorem Chained.append {middle : State} {first second : List (Event Op State)}
    (left : Chained s first middle) (right : Chained middle second final) : Chained s (first ++ second) final := by
  induction left with
  | nil => exact right
  | cons _ ih => exact .cons (ih right)

theorem events_chained (env : Environment Op Answer State Choice) (p : Process Op Answer α)
    (choices : List Choice) (s : State) : Chained s (p.events env choices s) (p.run env choices s).2 := by
  induction p generalizing choices s with
  | done result => exact .nil s
  | ask op next ih =>
    cases choices with
    | nil => exact .nil s
    | cons choice choices =>
      exact @Chained.cons _ _ ⟨op, s, (env.react op choice s).2⟩ _ _ (ih _ choices _)

theorem sessionEvents_chained (env : Environment Op Answer State Choice)
    (session : List (Process Op Answer α × List Choice)) (s : State) :
    Chained s (sessionEvents env session s) (sessionState env session s) := by
  induction session generalizing s with
  | nil => exact .nil s
  | cons entry session ih => exact (events_chained env entry.1 entry.2 s).append (ih _)

theorem Chained.keeps
    (chained : Chained s list final) (stays : ∀ e ∈ list, P e.before → P e.after) (start : P s) :
    (∀ e ∈ list, P e.before) ∧ P final := by
  induction chained with
  | nil => exact ⟨fun _ member => absurd member not_mem_nil, start⟩
  | @cons e rest final _ ih =>
    obtain ⟨later, last⟩ := ih (fun e member => stays e (mem_cons_of_mem _ member))
      (stays e mem_cons_self start)
    refine ⟨fun e' member => ?_, last⟩
    rcases mem_cons.mp member with rfl | inside
    · exact start
    · exact later e' inside

theorem Chained.reaches
    (chained : Chained s list final) (stays : ∀ e ∈ list, P e.before → P e.after) {e : Event Op State}
    (member : e ∈ list) (reached : P e.after) : P final := by
  induction chained with
  | nil => exact absurd member not_mem_nil
  | @cons e' rest final chained ih =>
    have later : ∀ e ∈ rest, P e.before → P e.after := fun e member =>
      stays e (mem_cons_of_mem _ member)
    rcases mem_cons.mp member with rfl | inside
    · exact (chained.keeps later reached).2
    · exact ih later inside

theorem Chained.pairwise {ι : Type} {P : ι → State → Prop}
    (chained : Chained s list final) (stays : ∀ i, ∀ e ∈ list, P i e.before → P i e.after) :
    list.Pairwise fun e e' => ∀ i, P i e.after → P i e'.before := by
  induction chained with
  | nil => exact Pairwise.nil
  | @cons e rest final chained ih =>
    have later : ∀ i, ∀ e ∈ rest, P i e.before → P i e.after := fun i e member =>
      stays i e (mem_cons_of_mem _ member)
    exact pairwise_cons.mpr
      ⟨fun e' member i reached => (chained.keeps (later i) reached).1 e' member, ih later⟩

end Process

end Aeontra.Library
