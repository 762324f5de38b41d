import Aeontra.Library.FileTree
import Aeontra.Library.Text
import Aeontra.Library.Update

/-!
The jail: which paths may be read or written under a list of roots.

A path is resolved as far as it exists and the rest is kept as text.  The theorem says
which links make the file that is opened another one than the checked path.
-/

namespace Aeontra.Policy

open Library List

def errOutsideJail : String := "policy: path is outside the workspace jail"
def errSecretDenied : String := "policy: access to secret path denied"
def errReadOnly : String := "policy: blocked: server is read-only (writes/commands disabled)"
def errUnknownMode : String := "config: unknown mode (use read-only/ask/allow)"

def secretSegments : List String := [".ssh", ".aws", ".gnupg", ".gpg", "grant-admin"]

def secretBasenames : List String :=
  [".env", ".npmrc", ".netrc", "_netrc", ".git-credentials", ".pgpass", ".htpasswd", "credentials", "id_rsa",
    "id_dsa", "id_ecdsa", "id_ed25519", "secring.gpg"]

def secretExts : List String := [".pem", ".key", ".pfx", ".p12", ".keystore", ".jks", ".asc"]

/-- `filepath.Ext` of one name. -/
def fileExt (name : List Char) : List Char :=
  if '.' ∈ name then '.' :: (name.reverse.takeWhile (· != '.')).reverse else []

def secretName (lower : LowerCase) (name : List Char) : Bool :=
  let low := name.map lower.toLower
  if name = [] ∨ name = ['.'] ∨ name = ['.', '.'] then false
  else
    secretSegments.any (fun s => chars s = low) || secretBasenames.any (fun s => chars s = low) ||
      (chars ".env.").isPrefixOf low || secretExts.any (fun s => chars s = (fileExt name).map lower.toLower)

def isSecretPath (lower : LowerCase) (path : String) : Bool :=
  path ≠ "" &&
    (((chars path).map fun c => if c = '\\' then '/' else c).splitOn '/').any (secretName lower)

structure Jail where
  roots : List Path
  deriving DecidableEq

def isAbs (path : String) : Bool := (chars path).head? = some '/'

def newJail (t : Tree) (roots : List String) : Except String Jail := do
  reject roots.isEmpty "policy: jail requires at least one root"
  let resolved ← roots.mapM fun r => do
    reject (!isAbs r) ("policy: jail root must be absolute: " ++ r)
    return clean ((evalSymlinks t r).getD (segments r))
  return ⟨resolved⟩

/-- The loop of `resolveExisting`: the path still to be tried, backwards, and the names already
given up. -/
def resolveUp (t : Tree) (p : Path) : List String → List String → Path
  | [], rem =>
    match evalSymlinks t (render []) with
    | some resolved => clean (resolved ++ rem)
    | none => p
  | name :: up, rem =>
    match evalSymlinks t (render (name :: up).reverse) with
    | some resolved => clean (resolved ++ rem)
    | none => resolveUp t p up (name :: rem)

def resolveExisting (t : Tree) (p : Path) : Path := resolveUp t p p.reverse []

def commonLength : Path → Path → Nat
  | a :: as, b :: bs => if a = b then commonLength as bs + 1 else 0
  | _, _ => 0

/-- `filepath.Rel` of two clean rooted paths. -/
def fileRel (root p : Path) : List String :=
  replicate (root.length - commonLength root p) ".." ++ p.drop (commonLength root p)

def withinRoot (p root : Path) : Bool :=
  p = root ||
    match fileRel root p with
    | [] => true
    | first :: _ => first ≠ ".."

def candidate (root : Path) (input : String) : Path :=
  if isAbs input then clean (segments input) else clean (root ++ segments input)

def Jail.resolve (t : Tree) (j : Jail) (input : String) : Except String String :=
  if input = "" then .error errOutsideJail
  else
    match j.roots.find? fun root => withinRoot (resolveExisting t (candidate root input)) root with
    | some root => .ok (render (resolveExisting t (candidate root input)))
    | none => .error errOutsideJail

def checkRead (lower : LowerCase) (t : Tree) (j : Jail) (path : String) : Except String String := do
  reject (isSecretPath lower path) errSecretDenied
  let resolved ← j.resolve t path
  reject (isSecretPath lower resolved) errSecretDenied
  return resolved

inductive Mode where
  | readOnly
  | ask
  | allow
  | unknown
  deriving DecidableEq

/-- The resolved path, and whether the write still needs an approval. -/
def checkWrite (lower : LowerCase) (t : Tree) (j : Jail) (mode : Mode) (path : String) :
    Except String (String × Bool) := do
  let resolved ← checkRead lower t j path
  match mode with
  | .readOnly => .error errReadOnly
  | .ask => return (resolved, true)
  | .allow => return (resolved, false)
  | .unknown => .error errUnknownMode

/-- A name between slashes is secret when a part of it between backslashes is. -/
def secretSegment (lower : LowerCase) (name : String) : Bool :=
  ((chars name).splitOn '\\').any (secretName lower)

theorem splitOn_backslash (text : List Char) :
    (text.map fun c => if c = '\\' then '/' else c).splitOn '/' =
      (text.splitOn '/').flatMap fun word => word.splitOn '\\' := by
  induction text with
  | nil => rfl
  | cons c text ih =>
    rw [map_cons, splitOn_cons_eq_if_modifyHead, splitOn_cons_eq_if_modifyHead, ih]
    cases words : text.splitOn '/' with
    | nil => exact absurd words (splitOn_ne_nil _ _)
    | cons word rest =>
      by_cases back : c = '\\'
      · subst back
        simp [splitOn_cons_eq_if_modifyHead]
      by_cases slash : c = '/'
      · subst slash
        simp
      simp only [back, if_false, slash, beq_iff_eq, modifyHead_cons, flatMap_cons,
        splitOn_cons_eq_if_modifyHead]
      cases parts : word.splitOn '\\' with
      | nil => exact absurd parts (splitOn_ne_nil _ _)
      | cons part more => simp

theorem isSecretPath_eq (lower : LowerCase) (path : String) :
    isSecretPath lower path = (segments path).any (secretSegment lower) := by
  by_cases empty : path = ""
  · subst empty
    rfl
  rw [isSecretPath, splitOn_backslash, segments, any_flatMap, any_map]
  simp only [empty, ne_eq, not_false_eq_true, decide_true, Bool.true_and]
  congr 1
  funext word
  rw [Function.comp_apply, secretSegment, chars_eq_toList, String.toList_ofList]

variable {p root : Path}

theorem isSecretPath_render {lower : LowerCase} (proper : Proper p) :
    isSecretPath lower (render p) = p.any (secretSegment lower) := by
  rw [isSecretPath_eq]
  by_cases empty : p = []
  · subst empty
    rfl
  · rw [segments_render proper empty, any_cons]
    exact Bool.false_or _

def Inside (roots : List Path) (p : Path) : Prop := ∃ root ∈ roots, root <+: p

theorem commonLength_of_inside (inside : root <+: p) : commonLength root p = root.length := by
  rcases inside with ⟨rest, rfl⟩
  induction root with
  | nil => cases rest <;> rfl
  | cons name root ih => simp [commonLength, ih]

theorem inside_of_commonLength (whole : root.length ≤ commonLength root p) : root <+: p := by
  induction root generalizing p with
  | nil => exact nil_prefix
  | cons name root ih =>
    cases p with
    | nil => simp [commonLength] at whole
    | cons other p =>
      rw [commonLength] at whole
      split at whole
      · rename_i same
        subst same
        exact (prefix_cons_inj name).mpr (ih (by simpa using whole))
      · simp at whole

theorem withinRoot_iff (proper : Proper p) : withinRoot p root = true ↔ root <+: p := by
  constructor
  · intro within
    simp only [withinRoot, bool_iff] at within
    rcases within with same | relative
    · subst same
      exact prefix_rfl
    apply inside_of_commonLength
    by_contra short
    have up : root.length - commonLength root p = root.length - commonLength root p - 1 + 1 := by omega
    rw [fileRel, up, replicate_succ] at relative
    simp at relative
  · intro inside
    rw [withinRoot, fileRel, commonLength_of_inside inside, Nat.sub_self, replicate_zero, nil_append]
    rcases inside with ⟨rest, rfl⟩
    rw [drop_left, Bool.or_eq_true]
    right
    cases rest with
    | nil => rfl
    | cons name rest =>
      have named := proper name (by simp)
      simp only [properName, bool_iff] at named
      simpa using named.1.2

section

variable {t : Tree}

variable {p q dir rest : Path} {name : String}

theorem evalSymlinks_render (proper : Proper p) :
    evalSymlinks t (render p) = some q ↔ walk t 255 [] p = .found q := by
  rw [evalSymlinks, walk_render 255 proper]
  split
  · rename_i found
    rw [found, Option.some.injEq, Outcome.found.injEq]
  · rename_i stuck
    simp only [reduceCtorEq, false_iff]
    exact stuck q

theorem evalSymlinks_real {text : String} (found : evalSymlinks t text = some p) :
    t.node p = some .directory ∨ t.node p = some .file := by
  rw [evalSymlinks] at found
  split at found
  · rename_i walked
    cases found
    exact walk_found t.root walked
  · cases found

theorem real_proper (real : t.node p = some .directory ∨ t.node p = some .file) : Proper p := by
  apply t.proper
  rcases real with directory | file
  · rw [directory]
    rfl
  · rw [file]
    rfl

theorem evalSymlinks_append {a b : Path} (proper : Proper (a ++ b)) (stuck : evalSymlinks t (render a) = none) :
    evalSymlinks t (render (a ++ b)) = none := by
  have unfound : ∀ p, walk t 255 [] a ≠ .found p := by
    intro p found
    rw [(evalSymlinks_render proper.of_append_left).mpr found] at stuck
    cases stuck
  rw [Option.eq_none_iff_forall_ne_some]
  intro p found
  exact walk_append_stuck t.root unfound b p ((evalSymlinks_render proper).mp found)

/-- How far a path was resolved: the rest begins with a name that cannot be. -/
structure ResolvedAs (t : Tree) (p real : Path) (pre post dir : Path) : Prop where
  split : p = pre ++ post
  reaches : evalSymlinks t (render pre) = some dir
  result : real = dir ++ post
  unresolved : ∀ name rest, post = name :: rest → evalSymlinks t (render (pre ++ [name])) = none

theorem resolveUp_spec (p : Path) {up : List String} {rem : List String} (proper : Proper (up.reverse ++ rem))
    (gaveUp : ∀ name rest, rem = name :: rest → evalSymlinks t (render (up.reverse ++ [name])) = none) :
    ∃ pre post dir, ResolvedAs t (up.reverse ++ rem) (resolveUp t p up rem) pre post dir := by
  induction up generalizing rem with
  | nil =>
    have root : evalSymlinks t (render []) = some [] :=
      (evalSymlinks_render fun _ member => absurd member not_mem_nil).mpr rfl
    refine ⟨[], rem, [], rfl, root, ?_, gaveUp⟩
    rw [resolveUp, root]
    exact clean_of_proper proper
  | cons name up ih =>
    cases found : evalSymlinks t (render (name :: up).reverse) with
    | some dir =>
      refine ⟨(name :: up).reverse, rem, dir, rfl, found, ?_, gaveUp⟩
      rw [resolveUp, found]
      exact clean_of_proper ((real_proper (evalSymlinks_real found)).append proper.of_append_right)
    | none =>
      rw [resolveUp, found]
      rw [reverse_cons] at proper found ⊢
      rw [append_assoc, singleton_append] at proper ⊢
      apply ih proper
      intro other rest same
      cases same
      exact found

theorem resolveExisting_spec (proper : Proper p) :
    ∃ pre post dir, ResolvedAs t p (resolveExisting t p) pre post dir := by
  have found := @resolveUp_spec t p p.reverse [] (by simpa using proper) (by simp)
  simpa [resolveExisting] using found

theorem resolveExisting_of_stuck (proper : Proper (q ++ name :: rest))
    (reaches : evalSymlinks t (render q) = some dir) (stuck : evalSymlinks t (render (q ++ [name])) = none) :
    resolveExisting t (q ++ name :: rest) = dir ++ name :: rest := by
  rcases @resolveExisting_spec t _ proper with ⟨pre, post, dir', resolved⟩
  rcases append_eq_append_iff.mp resolved.split with ⟨more, longer, after⟩ | ⟨more, shorter, after⟩
  · cases more with
    | nil =>
      rw [append_nil] at longer
      rw [nil_append] at after
      rw [resolved.result, ← after]
      have same := resolved.reaches
      rw [longer, reaches] at same
      rw [Option.some.inj same]
    | cons other more =>
      -- the resolved part would reach beyond the name that cannot be resolved
      rw [cons_append, cons.injEq] at after
      have beyond : pre = (q ++ [name]) ++ more := by rw [longer, ← after.1]; simp
      have proper' : Proper pre := by
        rw [resolved.split] at proper
        exact proper.of_append_left
      have unresolved := @evalSymlinks_append t _ more (beyond ▸ proper') stuck
      rw [← beyond, resolved.reaches] at unresolved
      cases unresolved
  · cases more with
    | nil =>
      rw [append_nil] at shorter
      rw [nil_append] at after
      rw [resolved.result, after]
      have same := resolved.reaches
      rw [← shorter, reaches] at same
      rw [Option.some.inj same]
    | cons other more =>
      -- a shorter part would have been resolved further
      have blocked := resolved.unresolved other (more ++ name :: rest) (by rw [after]; rfl)
      have beyond : q = (pre ++ [other]) ++ more := by rw [shorter]; simp
      have unresolved := @evalSymlinks_append t _ more (beyond ▸ proper.of_append_left) blocked
      rw [← beyond, reaches] at unresolved
      cases unresolved

theorem opened_render (proper : Proper p) : opened t (render p) = (walk t 40 [] p).opens := by
  rw [opened, walk_render 40 proper]

theorem opened_real (real : t.node p = some .directory ∨ t.node p = some .file) :
    opened t (render p) = some p := by
  rw [opened_render (real_proper real), walk_of_advance (advance_real_found real) (by simp), Outcome.opens]

theorem opened_beyond {loc : Path} (proper : Proper (dir ++ name :: rest))
    (real : t.node dir = some .directory ∨ t.node dir = some .file)
    (absent : t.node dir = some .directory → t.node (dir ++ [name]) = none)
    (opens : opened t (render (dir ++ name :: rest)) = some loc) : loc = dir ++ name :: rest := by
  rw [opened_render proper] at opens
  rcases real with directory | file
  · have named := proper name (by simp)
    have walked : advance t [] (dir ++ name :: rest) = .missing dir name rest := by
      rw [advance_real _ directory, advance_proper named, absent directory]
    rw [walk_of_advance walked (by simp)] at opens
    cases rest with
    | nil => exact (Option.some.inj opens).symm
    | cons other rest => cases opens
  · have walked : advance t [] (dir ++ name :: rest) = .notDirectory := by
      rw [advance_append t.root, advance_real_found (.inr file), Outcome.onward, if_neg (cons_ne_nil _ _),
        if_pos file]
    rw [walk_of_advance walked (by simp)] at opens
    cases opens

theorem link_of_unresolved {pre : Path} (proper : Proper (pre ++ [name]))
    (reaches : evalSymlinks t (render pre) = some dir)
    (unresolved : evalSymlinks t (render (pre ++ [name])) = none) (directory : t.node dir = some .directory) :
    t.node (dir ++ [name]) = none ∨ ∃ target, t.node (dir ++ [name]) = some (.link target) := by
  have walked := (evalSymlinks_render proper.of_append_left).mp reaches
  rcases walk_append t.root walked with ⟨left, onward⟩
  have further := onward [name] (cons_ne_nil _ _)
  rw [if_neg (by rw [directory]; decide)] at further
  have named := proper name (by simp)
  have step : ∀ kind, t.node (dir ++ [name]) = some kind → kind = .directory ∨ kind = .file → False := by
    intro kind present plain
    have found : advance t dir [name] = .found (dir ++ [name]) := by
      rw [advance_proper named, present]
      rcases plain with rfl | rfl
      · rfl
      · rfl
    rw [walk_of_advance found (by simp)] at further
    rw [(evalSymlinks_render proper).mpr further] at unresolved
    cases unresolved
  cases present : t.node (dir ++ [name]) with
  | none => exact .inl rfl
  | some kind =>
    cases kind with
    | directory => exact (step _ present (.inl rfl)).elim
    | file => exact (step _ present (.inr rfl)).elim
    | link target => exact .inr ⟨target, rfl⟩

theorem inside_dir {root : Path} {target : String}
    (real : t.node root = some .directory ∨ t.node root = some .file) (inside : root <+: dir ++ name :: rest)
    (link : t.node (dir ++ [name]) = some (.link target)) : root <+: dir := by
  rcases prefix_or_prefix_of_prefix inside (prefix_append dir (name :: rest)) with shorter | longer
  · exact shorter
  rcases longer with ⟨more, rfl⟩
  cases more with
  | nil => exact ⟨[], by simp⟩
  | cons other more =>
    have same : other = name := by
      rw [prefix_append_right_inj] at inside
      exact (cons_prefix_cons.mp inside).1
    subst same
    exfalso
    cases more with
    | nil =>
      rw [link] at real
      rcases real with directory | file
      · cases directory
      · cases file
    | cons next more =>
      have present : (t.node ((dir ++ [other]) ++ (next :: more))).isSome = true := by
        rw [append_assoc, singleton_append]
        rcases real with directory | file
        · rw [directory]
          rfl
        · rw [file]
          rfl
      rw [t.directory_of_append present (cons_ne_nil _ _)] at link
      cases link

end

/-- An input walks over a link that cannot be resolved there: its target does not exist, or too
many links came before it. -/
structure Stuck (t : Tree) (roots : List Path) (q : Path) (name : String) (rest dir : Path) : Prop where
  proper : Proper (q ++ name :: rest)
  reaches : evalSymlinks t (render q) = some dir
  inside : Inside roots dir
  link : ∃ target, t.node (dir ++ [name]) = some (.link target)
  unresolved : evalSymlinks t (render (q ++ [name])) = none

/-- What the checks accept is opened inside a root, and under no secret name. -/
structure Confined (lower : LowerCase) (t : Tree) (j : Jail) : Prop where
  resolve : ∀ input p, j.resolve t input = .ok p → ∀ loc, opened t p = some loc → Inside j.roots loc
  read : ∀ input p, checkRead lower t j input = .ok p → ∀ loc, opened t p = some loc →
    Inside j.roots loc ∧ isSecretPath lower (render loc) = false
  write : ∀ mode input p approval, checkWrite lower t j mode input = .ok (p, approval) → ∀ loc,
    opened t p = some loc → Inside j.roots loc ∧ isSecretPath lower (render loc) = false

/-- The links that cannot be resolved lead to where the checks would have allowed it. -/
def LinksConfined (lower : LowerCase) (t : Tree) (j : Jail) : Prop :=
  ∀ q name rest dir, Stuck t j.roots q name rest dir → ∀ loc, opened t (render (dir ++ name :: rest)) = some loc →
    Inside j.roots loc ∧
      (isSecretPath lower (render (q ++ name :: rest)) = false →
        isSecretPath lower (render (dir ++ name :: rest)) = false → isSecretPath lower (render loc) = false)

section

variable {lower : LowerCase} {t : Tree} {j : Jail}

variable {root loc : Path} {input name p : String}

theorem candidate_proper (proper : Proper root) (input : String) : Proper (candidate root input) := by
  rw [candidate]
  have empty : Proper [] := fun _ member => absurd member not_mem_nil
  split
  · exact proper_foldl_push empty fun name member => slash_notMem_segments member
  apply proper_foldl_push empty
  intro name member
  rcases mem_append.mp member with inRoot | inInput
  · exact slash_notMem_of_proper (proper name inRoot)
  · exact slash_notMem_segments inInput

theorem mem_candidate (member : name ∈ candidate root input) : name ∈ root ∨ name ∈ segments input := by
  rw [candidate] at member
  split at member
  · rcases mem_foldl_push member with none | inInput
    · cases none
    · exact .inr inInput
  · rcases mem_foldl_push member with none | among
    · cases none
    · exact mem_append.mp among

theorem candidate_render {p : Path} (proper : Proper p) (nonempty : p ≠ []) : candidate root (render p) = p := by
  have absolute : isAbs (render p) = true := by
    cases p with
    | nil => exact absurd rfl nonempty
    | cons name p =>
      rw [isAbs, render, if_neg nonempty, chars_eq_toList, String.toList_ofList]
      rfl
  rw [candidate, if_pos absolute, segments_render proper nonempty, clean, foldl_cons]
  exact clean_of_proper proper

def RealRoots (t : Tree) (j : Jail) : Prop := ∀ root ∈ j.roots, t.node root = some .directory ∨ t.node root = some .file

theorem resolve_eq_ok (roots : RealRoots t j) (accepted : j.resolve t input = .ok p) :
    ∃ root ∈ j.roots, root <+: resolveExisting t (candidate root input) ∧
      p = render (resolveExisting t (candidate root input)) ∧
      ∃ pre post dir, ResolvedAs t (candidate root input) (resolveExisting t (candidate root input)) pre post dir := by
  rw [Jail.resolve] at accepted
  split at accepted
  · cases accepted
  split at accepted
  · rename_i root found
    have member := mem_of_find?_eq_some found
    have within := find?_some found
    have proper := candidate_proper (real_proper (roots root member)) input
    rcases @resolveExisting_spec t _ proper with ⟨pre, post, dir, resolved⟩
    have whole : Proper (resolveExisting t (candidate root input)) := by
      rw [resolved.result]
      rw [resolved.split] at proper
      exact (real_proper (evalSymlinks_real resolved.reaches)).append proper.of_append_right
    exact ⟨root, member, (withinRoot_iff whole).mp within, (Except.ok.inj accepted).symm, pre, post, dir, resolved⟩
  · cases accepted

theorem opened_of_resolve (roots : RealRoots t j) (accepted : j.resolve t input = .ok p)
    (opens : opened t p = some loc) :
    (p = render loc ∧ Inside j.roots loc) ∨
      ∃ root ∈ j.roots, ∃ q name rest dir, Stuck t j.roots q name rest dir ∧ candidate root input = q ++ name :: rest ∧
        root <+: dir ++ name :: rest ∧ p = render (dir ++ name :: rest) := by
  rcases resolve_eq_ok roots accepted with ⟨root, member, inside, rfl, pre, post, dir, resolved⟩
  have real := evalSymlinks_real resolved.reaches
  have proper := candidate_proper (real_proper (roots root member)) input
  rw [resolved.result] at opens inside ⊢
  cases post with
  | nil =>
    rw [append_nil] at opens inside ⊢
    rw [opened_real real] at opens
    cases opens
    exact .inl ⟨rfl, root, member, inside⟩
  | cons name rest =>
    rw [resolved.split] at proper
    have whole := (real_proper real).append proper.of_append_right
    have shorter : Proper (pre ++ [name]) := by
      apply proper.of_append_left.append
      intro other one
      rw [mem_singleton.mp one]
      exact proper name (by simp)
    have unresolved := resolved.unresolved name rest rfl
    by_cases link : ∃ target, t.node (dir ++ [name]) = some (.link target)
    · rcases link with ⟨target, link⟩
      have held := inside_dir (roots root member) inside link
      exact .inr ⟨root, member, pre, name, rest, dir,
        ⟨proper, resolved.reaches, ⟨root, member, held⟩, ⟨target, link⟩, unresolved⟩, resolved.split, inside, rfl⟩
    left
    have itself := opened_beyond whole real (fun directory =>
      (link_of_unresolved shorter resolved.reaches unresolved directory).resolve_right link) opens
    rw [itself]
    exact ⟨rfl, root, member, inside⟩

theorem resolve_of_stuck {q rest dir : Path} (stuck : Stuck t j.roots q name rest dir) :
    j.resolve t (render (q ++ name :: rest)) = .ok (render (dir ++ name :: rest)) := by
  have nonempty : q ++ name :: rest ≠ [] := by simp
  have resolved := resolveExisting_of_stuck stuck.proper stuck.reaches stuck.unresolved
  have text : render (q ++ name :: rest) ≠ "" := by
    intro empty
    have names := segments_render stuck.proper nonempty
    rw [empty] at names
    have one : segments "" = [""] := by decide
    rw [one, cons.injEq] at names
    exact nonempty names.2.symm
  have whole : Proper (dir ++ name :: rest) :=
    (real_proper (evalSymlinks_real stuck.reaches)).append stuck.proper.of_append_right
  rcases stuck.inside with ⟨root, member, inside⟩
  rw [Jail.resolve, if_neg text]
  split
  · rw [candidate_render stuck.proper nonempty, resolved]
  rename_i outside
  have refused := find?_eq_none.mp outside root member
  rw [candidate_render stuck.proper nonempty, resolved, withinRoot_iff whole] at refused
  exact absurd (inside.trans (prefix_append ..)) refused

theorem checkRead_eq_ok : checkRead lower t j input = .ok p ↔
    isSecretPath lower input = false ∧ j.resolve t input = .ok p ∧ isSecretPath lower p = false := by
  simp only [checkRead, ok_iff]
  constructor
  · rintro ⟨-, plain, resolved, done, -, plain', rfl⟩
    exact ⟨plain, done, plain'⟩
  · rintro ⟨plain, done, plain'⟩
    exact ⟨(), plain, p, done, (), plain', rfl⟩

theorem candidate_not_secret {p : Path} (proper : Proper (candidate root input))
    (whole : Proper p) (plain : isSecretPath lower input = false) (inside : root <+: p)
    (plain' : isSecretPath lower (render p) = false) :
    isSecretPath lower (render (candidate root input)) = false := by
  rw [isSecretPath_eq] at plain
  rw [isSecretPath_render whole] at plain'
  rw [isSecretPath_render proper, any_eq_false]
  intro name member
  rcases mem_candidate member with inRoot | inInput
  · exact List.any_eq_false.mp plain' name (inside.subset inRoot)
  · exact List.any_eq_false.mp plain name inInput

theorem read_confined (roots : RealRoots t j) (links : LinksConfined lower t j)
    (accepted : checkRead lower t j input = .ok p) (opens : opened t p = some loc) :
    Inside j.roots loc ∧ isSecretPath lower (render loc) = false := by
  rcases checkRead_eq_ok.mp accepted with ⟨plain, resolved, plain'⟩
  rcases opened_of_resolve roots resolved opens with ⟨rfl, inside⟩ |
    ⟨root, member, q, name, rest, dir, stuck, split, inside, rfl⟩
  · exact ⟨inside, plain'⟩
  have confined := links q name rest dir stuck loc opens
  refine ⟨confined.1, confined.2 ?_ plain'⟩
  rw [← split]
  apply candidate_not_secret _ _ plain inside plain'
  · rw [split]
    exact stuck.proper
  · exact (real_proper (evalSymlinks_real stuck.reaches)).append stuck.proper.of_append_right

theorem checkWrite_read {mode : Mode} {approval : Bool}
    (accepted : checkWrite lower t j mode input = .ok (p, approval)) : checkRead lower t j input = .ok p := by
  simp only [checkWrite, ok_iff] at accepted
  rcases accepted with ⟨resolved, read, rest⟩
  cases mode with
  | readOnly => cases rest
  | unknown => cases rest
  | ask =>
    cases rest
    exact read
  | allow =>
    cases rest
    exact read

theorem confined_iff_links (roots : RealRoots t j) : Confined lower t j ↔ LinksConfined lower t j := by
  constructor
  · intro confined q name rest dir stuck loc opens
    have accepted := resolve_of_stuck stuck
    refine ⟨confined.resolve _ _ accepted loc opens, fun plain plain' => ?_⟩
    exact (confined.read _ _ (checkRead_eq_ok.mpr ⟨plain, accepted, plain'⟩) loc opens).2
  intro links
  constructor
  case resolve =>
    intro input p accepted loc opens
    rcases opened_of_resolve roots accepted opens with ⟨-, inside⟩ |
      ⟨root, member, q, name, rest, dir, stuck, -, -, rfl⟩
    · exact inside
    · exact (links q name rest dir stuck loc opens).1
  case read =>
    intro input p accepted loc opens
    exact read_confined roots links accepted opens
  case write =>
    intro mode input p approval accepted loc opens
    exact read_confined roots links (checkWrite_read accepted) opens

end

theorem newJail_real {t : Tree} {roots : List String} {j : Jail} (made : newJail t roots = .ok j)
    (exist : ∀ root ∈ roots, (evalSymlinks t root).isSome = true) : RealRoots t j := by
  simp only [newJail, ok_iff] at made
  rcases made with ⟨-, -, resolved, mapped, rfl⟩
  intro root member
  rcases mem_of_mapM mapped root member with ⟨text, given, result⟩
  simp only [ok_iff] at result
  rcases result with ⟨-, -, rfl⟩
  rcases Option.isSome_iff_exists.mp (exist text given) with ⟨real, found⟩
  have kinds := evalSymlinks_real found
  rw [found, Option.getD_some, clean_of_proper (real_proper kinds)]
  exact kinds

/-- The checks confine what is opened exactly when the links that they cannot resolve do. -/
theorem jail_confined_iff (lower : LowerCase) {t : Tree} {roots : List String} {j : Jail}
    (made : newJail t roots = .ok j) (exist : ∀ root ∈ roots, (evalSymlinks t root).isSome = true) :
    Confined lower t j ↔ LinksConfined lower t j :=
  confined_iff_links (newJail_real made exist)

/-- A root with a file and a link to a file of the root that does not exist yet. -/
def leadingEntries : List (Path × Kind) :=
  [(["jail"], .directory), (["jail", "notes.txt"], .file), (["jail", "link"], .link "/jail/new")]

def plainTree : Tree := .ofEntries leadingEntries (by decide)

theorem opened_leading {rest loc : Path} (proper : Proper rest)
    (opens : opened plainTree (render ("jail" :: "link" :: rest)) = some loc) : loc = ["jail", "new"] := by
  have whole : Proper ("jail" :: "link" :: rest) := by
    intro name member
    rcases mem_cons.mp member with rfl | member
    · decide
    rcases mem_cons.mp member with rfl | member
    · decide
    · exact proper name member
  rw [opened_render whole] at opens
  have walked : walk plainTree 40 [] ("jail" :: "link" :: rest) = .missing ["jail"] "new" rest := rfl
  rw [walked] at opens
  cases rest with
  | nil => exact (Option.some.inj opens).symm
  | cons next rest => cases opens

theorem plainTree_confined : Confined asciiLower plainTree ⟨[["jail"]]⟩ ∧
    Stuck plainTree [["jail"]] ["jail"] "link" [] ["jail"] := by
  have links : LinksConfined asciiLower plainTree ⟨[["jail"]]⟩ := by
    intro q name rest dir stuck loc opens
    rcases stuck.link with ⟨target, link⟩
    change nodeOf _ (dir ++ [name]) = _ at link
    rw [nodeOf, if_neg (by simp), Option.map_eq_some_iff] at link
    rcases link with ⟨entry, found, isLink⟩
    have only : ∀ e ∈ leadingEntries, e.2 = .directory ∨ e.2 = .file ∨ e.1 = ["jail"] ++ ["link"] := by decide
    have at_ : entry.1 = dir ++ [name] := by simpa using find?_some found
    rcases only entry (mem_of_find?_eq_some found) with directory | file | place
    · rw [directory] at isLink
      cases isLink
    · rw [file] at isLink
      cases isLink
    obtain ⟨rfl, same⟩ := append_inj' (at_.symm.trans place) rfl
    obtain rfl : name = "link" := by simpa using same
    have proper : Proper rest := fun part member => stuck.proper part (by simp [member])
    rw [opened_leading proper opens]
    exact ⟨⟨["jail"], by simp, by simp⟩, fun _ _ => by decide⟩
  refine ⟨(@jail_confined_iff asciiLower plainTree ["/jail"] ⟨[["jail"]]⟩ (by decide) (by decide)).mpr links, ?_⟩
  exact ⟨by simp only [Proper]; decide, by decide, ⟨["jail"], by simp, by simp⟩, ⟨"/jail/new", by decide⟩, by decide⟩

def danglingTree : Tree :=
  .ofEntries [(["jail"], .directory), (["outside"], .directory), (["jail", "link"], .link "/outside/new")] (by decide)

/-- A write through the link is accepted and creates a file outside the jail. -/
theorem dangling_link_escapes :
    newJail danglingTree ["/jail"] = .ok ⟨[["jail"]]⟩ ∧ (evalSymlinks danglingTree "/jail").isSome = true ∧
      checkWrite asciiLower danglingTree ⟨[["jail"]]⟩ .allow "link" = .ok ("/jail/link", false) ∧
      opened danglingTree "/jail/link" = some ["outside", "new"] ∧ ¬ Inside [["jail"]] ["outside", "new"] :=
  ⟨by decide, by decide, by decide, by decide, by simp [Inside]⟩

end Aeontra.Policy
