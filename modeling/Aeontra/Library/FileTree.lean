import Mathlib.Data.List.Induction
import Aeontra.Library.Chars

/-!
File trees with symbolic links, and how a path is walked through one.

A link is replaced by the names of its target, and a bound limits how many are.  `evalSymlinks` is
what a library does with the walk and `opened` what an operating system does: the last name of a
path may be one that does not exist yet.
-/

namespace Aeontra.Library

open List

def segments (text : String) : List String := ((chars text).splitOn '/').map String.ofList

abbrev Path := List String

def properName (name : String) : Bool := name ≠ "" && name ≠ "." && name ≠ ".." && !(chars name).contains '/'

/-- A path whose names are all proper, so that its text can be read back. -/
def Proper (p : Path) : Prop := ∀ name ∈ p, properName name = true

def render (p : Path) : String := if p = [] then "/" else String.ofList (p.flatMap fun name => '/' :: chars name)

def push (p : Path) (name : String) : Path :=
  if name = "" ∨ name = "." then p else if name = ".." then p.dropLast else p ++ [name]

def clean (names : List String) : Path := names.foldl push []

variable {name : String} {p q : Path}

theorem slash_notMem_of_proper (proper : properName name = true) : '/' ∉ chars name := by
  simp only [properName, Bool.and_eq_true, Bool.not_eq_true'] at proper
  simpa using proper.2

theorem push_of_proper (proper : properName name = true) : push p name = p ++ [name] := by
  simp only [properName, Bool.and_eq_true, decide_eq_true_eq] at proper
  rw [push, if_neg (by simp [proper.1.1.1, proper.1.1.2]), if_neg proper.1.2]

theorem foldl_push_of_proper (proper : Proper q) : q.foldl push p = p ++ q := by
  induction q generalizing p with
  | nil => simp
  | cons name q ih =>
    rw [foldl_cons, push_of_proper (proper name mem_cons_self),
      ih fun other member => proper other (mem_cons_of_mem _ member), append_assoc,
      singleton_append]

theorem clean_of_proper (proper : Proper p) : clean p = p := foldl_push_of_proper proper

theorem Proper.append (left : Proper p) (right : Proper q) : Proper (p ++ q) := by
  intro name member
  rcases mem_append.mp member with inLeft | inRight
  · exact left name inLeft
  · exact right name inRight

theorem Proper.of_append_left (proper : Proper (p ++ q)) : Proper p :=
  fun name member => proper name (mem_append_left _ member)

theorem Proper.of_append_right (proper : Proper (p ++ q)) : Proper q :=
  fun name member => proper name (mem_append_right _ member)

theorem sep_of_mem_splitOnP {α : Type} {isSep : α → Bool} {xs piece : List α} (member : piece ∈ xs.splitOnP isSep) :
    ∀ x ∈ piece, isSep x = false := by
  induction xs generalizing piece with
  | nil =>
    rw [splitOnP_nil, mem_singleton] at member
    simp [member]
  | cons x xs ih =>
    rw [splitOnP_cons_eq_if_modifyHead] at member
    split at member
    · rcases mem_cons.mp member with rfl | later
      · simp
      · exact ih later
    rename_i plain
    cases pieces : xs.splitOnP isSep with
    | nil => exact absurd pieces (splitOnP_ne_nil _ _)
    | cons first rest =>
      rw [pieces, modifyHead_cons] at member
      rw [pieces] at ih
      rcases mem_cons.mp member with rfl | later
      · intro y inside
        rcases mem_cons.mp inside with rfl | tail
        · simpa using plain
        · exact ih mem_cons_self y tail
      · exact ih (mem_cons_of_mem _ later)

theorem slash_notMem_segments {text : String} (member : name ∈ segments text) : '/' ∉ chars name := by
  rcases mem_map.mp member with ⟨word, inside, rfl⟩
  rw [chars_eq_toList, String.toList_ofList]
  rw [splitOn_eq_splitOnP] at inside
  intro slash
  have plain := sep_of_mem_splitOnP inside '/' slash
  exact absurd plain (by decide)

theorem flatMap_slash {word : List Char} {words : List (List Char)} :
    word ++ words.flatMap (fun w => '/' :: w) = ['/'].intercalate (word :: words) := by
  induction words generalizing word with
  | nil => simp
  | cons next words ih =>
    rw [intercalate_cons_cons, ← ih, flatMap_cons]
    simp

theorem segments_render (proper : Proper p) (nonempty : p ≠ []) : segments (render p) = "" :: p := by
  have text : chars (render p) = ['/'].intercalate ([] :: p.map chars) := by
    rw [render, if_neg nonempty, chars_eq_toList, String.toList_ofList, ← flatMap_slash, nil_append,
      flatMap_map]
  have apart : ∀ word ∈ [] :: p.map chars, '/' ∉ word := by
    intro word member
    rcases List.mem_cons.mp member with rfl | later
    · simp
    · rcases List.mem_map.mp later with ⟨name, inside, rfl⟩
      exact slash_notMem_of_proper (proper name inside)
  rw [segments, text, splitOn_intercalate '/' apart (cons_ne_nil _ _), map_cons, map_map]
  congr 1
  refine (map_congr_left fun name _ => ?_).trans (map_id _)
  simp

theorem proper_foldl_push {names : List String} (proper : Proper p)
    (plain : ∀ name ∈ names, '/' ∉ chars name) : Proper (names.foldl push p) := by
  induction names generalizing p with
  | nil => exact proper
  | cons name names ih =>
    rw [foldl_cons]
    apply ih _ fun other member => plain other (mem_cons_of_mem _ member)
    rw [push]
    split
    · exact proper
    split
    · exact fun other member => proper other (dropLast_subset _ member)
    rename_i trivial parent
    apply proper.append
    intro other member
    rw [List.mem_singleton.mp member, properName]
    have noSlash := plain name mem_cons_self
    simp only [not_or] at trivial
    simp only [Bool.and_eq_true, decide_eq_true_eq, Bool.not_eq_true']
    exact ⟨⟨⟨trivial.1, trivial.2⟩, parent⟩, by simpa using noSlash⟩

theorem mem_foldl_push {names : List String} (member : name ∈ names.foldl push p) :
    name ∈ p ∨ name ∈ names := by
  induction names generalizing p with
  | nil => exact .inl member
  | cons first names ih =>
    rw [foldl_cons] at member
    rcases ih member with pushed | later
    · rw [push] at pushed
      split at pushed
      · exact .inl pushed
      split at pushed
      · exact .inl (dropLast_subset _ pushed)
      · rcases mem_append.mp pushed with old | new
        · exact .inl old
        · exact .inr (by simp [mem_singleton.mp new])
    · exact .inr (mem_cons_of_mem _ later)

inductive Kind where
  | directory
  | file
  | link (target : String)
  deriving DecidableEq

/-- A file tree: what lies at each path.  Everything lies in a directory, under a proper name. -/
structure Tree where
  node : Path → Option Kind
  root : node [] = some .directory
  parent : ∀ p name, (node (p ++ [name])).isSome = true → node p = some .directory
  named : ∀ p name, (node (p ++ [name])).isSome = true → properName name = true

/-- Where a walk ends, or the link at which it goes on elsewhere. -/
inductive Outcome where
  | found (p : Path)
  | missing (dir : Path) (name : String) (rest : List String)
  | notDirectory
  | link (dir : Path) (target : String) (rest : List String)
  deriving DecidableEq

def advance (t : Tree) : Path → List String → Outcome
  | dir, [] => .found dir
  | dir, name :: rest =>
    if name = "" ∨ name = "." then advance t dir rest
    else if name = ".." then advance t dir.dropLast rest
    else
      match t.node (dir ++ [name]) with
      | none => .missing dir name rest
      | some (.link target) => .link dir target rest
      | some .file => if rest = [] then .found (dir ++ [name]) else .notDirectory
      | some .directory => advance t (dir ++ [name]) rest

def linkBase (dir : Path) (target : String) : Path := if (chars target).head? = some '/' then [] else dir

/-- Walk over names through at most so many links; a link at the end is one too many. -/
def walk (t : Tree) : Nat → Path → List String → Outcome
  | 0, dir, names => advance t dir names
  | links + 1, dir, names =>
    match advance t dir names with
    | .link dir target rest => walk t links (linkBase dir target) (segments target ++ rest)
    | outcome => outcome

def evalSymlinks (t : Tree) (text : String) : Option Path :=
  match walk t 255 [] (segments text) with
  | .found p => some p
  | _ => none

/-- The file at the end of a walk: the last name may be one that does not exist yet. -/
def Outcome.opens : Outcome → Option Path
  | .found p => some p
  | .missing dir name [] => some (dir ++ [name])
  | _ => none

def opened (t : Tree) (text : String) : Option Path := (walk t 40 [] (segments text)).opens

section

variable {t : Tree}

variable {dir p : Path} {names : List String} {links : Nat}

theorem Tree.dropLast_directory (directory : t.node dir = some .directory) :
    t.node dir.dropLast = some .directory := by
  rcases eq_nil_or_concat dir with rfl | ⟨front, name, rfl⟩
  · exact directory
  · rw [concat_eq_append, dropLast_concat]
    exact t.parent front name (by rw [← concat_eq_append, directory]; rfl)

theorem Tree.proper (present : (t.node p).isSome = true) : Proper p := by
  induction p using reverseRecOn with
  | nil => intro name member; cases member
  | append_singleton front name ih =>
    have parent := t.parent front name present
    apply (ih (by rw [parent]; rfl)).append
    intro other member
    rw [mem_singleton.mp member]
    exact t.named front name present

theorem Tree.directory_of_append {q : Path} (present : (t.node (p ++ q)).isSome = true) (more : q ≠ []) :
    t.node p = some .directory := by
  induction q using List.reverseRecOn with
  | nil => exact absurd rfl more
  | append_singleton front name ih =>
    rw [← append_assoc] at present
    have parent := t.parent (p ++ front) name present
    by_cases last : front = []
    · rwa [last, append_nil] at parent
    · exact ih (by rw [parent]; rfl) last

theorem advance_proper {name : String} {rest : List String} (proper : properName name = true) :
    advance t dir (name :: rest) =
      match t.node (dir ++ [name]) with
      | none => .missing dir name rest
      | some (.link target) => .link dir target rest
      | some .file => if rest = [] then .found (dir ++ [name]) else .notDirectory
      | some .directory => advance t (dir ++ [name]) rest := by
  simp only [properName, Bool.and_eq_true, decide_eq_true_eq] at proper
  rw [advance, if_neg (by simp [proper.1.1.1, proper.1.1.2]), if_neg proper.1.2]

/-- What a walk over more names makes of the outcome of the first ones. -/
def Outcome.onward (t : Tree) (more : List String) : Outcome → Outcome
  | .found p => if more = [] then .found p else if t.node p = some .file then .notDirectory else advance t p more
  | .missing dir name rest => .missing dir name (rest ++ more)
  | .notDirectory => .notDirectory
  | .link dir target rest => .link dir target (rest ++ more)

variable (directory : t.node dir = some .directory)

include directory

theorem advance_append (names more : List String) :
    advance t dir (names ++ more) = (advance t dir names).onward t more := by
  induction names generalizing dir with
  | nil =>
    rw [nil_append, advance, Outcome.onward]
    split
    · rename_i none
      rw [none, advance]
    · rw [if_neg (by rw [directory]; decide)]
  | cons name names ih =>
    rw [cons_append, advance, advance]
    split
    · exact ih directory
    split
    · exact ih (Tree.dropLast_directory directory)
    cases kind : t.node (dir ++ [name]) with
    | none => rfl
    | some kind' =>
      cases kind' with
      | directory => exact ih kind
      | link target => rfl
      | file =>
        simp only [append_eq_nil_iff]
        by_cases last : names = []
        · subst last
          simp [Outcome.onward, kind]
        · simp [last, Outcome.onward]

theorem advance_found
    (found : advance t dir names = .found p) : t.node p = some .directory ∨ t.node p = some .file := by
  induction names generalizing dir with
  | nil =>
    rw [advance] at found
    cases found
    exact .inl directory
  | cons name names ih =>
    rw [advance] at found
    split at found
    · exact ih directory found
    split at found
    · exact ih (Tree.dropLast_directory directory) found
    cases kind : t.node (dir ++ [name]) with
    | none => simp [kind] at found
    | some kind' =>
      cases kind' with
      | directory =>
        simp only [kind] at found
        exact ih kind found
      | link target => simp [kind] at found
      | file =>
        simp only [kind] at found
        split at found
        · cases found
          exact .inr kind
        · cases found

theorem advance_link {from_ : Path} {rest : List String} {target : String}
    (linked : advance t dir names = .link from_ target rest) :
    t.node from_ = some .directory := by
  induction names generalizing dir with
  | nil => simp [advance] at linked
  | cons name names ih =>
    rw [advance] at linked
    split at linked
    · exact ih directory linked
    split at linked
    · exact ih (Tree.dropLast_directory directory) linked
    cases kind : t.node (dir ++ [name]) with
    | none => simp [kind] at linked
    | some kind' =>
      cases kind' with
      | directory =>
        simp only [kind] at linked
        exact ih kind linked
      | link target' =>
        simp only [kind] at linked
        cases linked
        exact directory
      | file =>
        simp only [kind] at linked
        split at linked
        · cases linked
        · cases linked

theorem linkBase_directory (target : String) : t.node (linkBase dir target) = some .directory := by
  rw [linkBase]
  split
  · exact t.root
  · exact directory

theorem walk_found
    (found : walk t links dir names = .found p) : t.node p = some .directory ∨ t.node p = some .file := by
  induction links generalizing dir names with
  | zero => exact advance_found directory found
  | succ links ih =>
    rw [walk] at found
    split at found
    · rename_i from_ target rest linked
      exact ih (linkBase_directory (advance_link directory linked) target) found
    · exact advance_found directory found

theorem walk_append (found : walk t links dir names = .found p) :
    ∃ left, ∀ more, more ≠ [] → walk t links dir (names ++ more) =
      if t.node p = some .file then .notDirectory else walk t left p more := by
  induction links generalizing dir names with
  | zero =>
    refine ⟨0, fun more nonempty => ?_⟩
    rw [walk] at found ⊢
    rw [advance_append directory, found, Outcome.onward, if_neg nonempty]
    rfl
  | succ links ih =>
    rw [walk] at found
    split at found
    · rename_i from_ target rest linked
      have base := linkBase_directory (advance_link directory linked) target
      rcases ih base found with ⟨left, onward⟩
      refine ⟨left, fun more nonempty => ?_⟩
      rw [walk, advance_append directory, linked]
      simp only [Outcome.onward]
      rw [← append_assoc]
      exact onward more nonempty
    · refine ⟨links + 1, fun more nonempty => ?_⟩
      rw [walk, advance_append directory, found, Outcome.onward, if_neg nonempty]
      by_cases file : t.node p = some .file
      · rw [if_pos file, if_pos file]
      · rw [if_neg file, if_neg file]
        rfl

theorem walk_append_stuck (stuck : ∀ p, walk t links dir names ≠ .found p)
    (more : List String) (p : Path) : walk t links dir (names ++ more) ≠ .found p := by
  induction links generalizing dir names with
  | zero =>
    rw [walk, advance_append directory]
    rw [walk] at stuck
    cases first : advance t dir names with
    | found q => exact absurd first (stuck q)
    | missing from_ name rest => simp [Outcome.onward]
    | notDirectory => simp [Outcome.onward]
    | link from_ target rest => simp [Outcome.onward]
  | succ links ih =>
    rw [walk, advance_append directory]
    rw [walk] at stuck
    cases first : advance t dir names with
    | found q =>
      rw [first] at stuck
      exact absurd rfl (stuck q)
    | missing from_ name rest => simp [Outcome.onward]
    | notDirectory => simp [Outcome.onward]
    | link from_ target rest =>
      rw [first] at stuck
      simp only [Outcome.onward]
      rw [← append_assoc]
      exact ih (linkBase_directory (advance_link directory first) target) stuck

omit directory

theorem advance_real (more : List String) (present : t.node p = some .directory) :
    advance t [] (p ++ more) = advance t p more := by
  induction p using List.reverseRecOn generalizing more with
  | nil => rfl
  | append_singleton front name ih =>
    have parent := t.parent front name (by rw [present]; rfl)
    have proper := t.named front name (by rw [present]; rfl)
    rw [append_assoc, singleton_append, ih (name :: more) parent, advance_proper proper, present]

theorem advance_real_found (present : t.node p = some .directory ∨ t.node p = some .file) :
    advance t [] p = .found p := by
  rcases present with directory | file
  · have onward := advance_real [] directory
    rwa [append_nil, advance] at onward
  rcases eq_nil_or_concat p with rfl | ⟨front, name, rfl⟩
  · rfl
  rw [concat_eq_append] at file ⊢
  have parent := t.parent front name (by rw [file]; rfl)
  have proper := t.named front name (by rw [file]; rfl)
  rw [advance_real [name] parent, advance_proper proper, file]
  rfl

theorem walk_of_advance {outcome : Outcome}
    (walked : advance t dir names = outcome) (plain : ∀ dir target rest, outcome ≠ .link dir target rest) :
    walk t links dir names = outcome := by
  cases links with
  | zero => exact walked
  | succ links =>
    rw [walk, walked]
    cases outcome with
    | link dir target rest => exact absurd rfl (plain dir target rest)
    | found p => rfl
    | missing dir name rest => rfl
    | notDirectory => rfl

theorem walk_empty (links : Nat) (dir : Path) (names : List String) :
    walk t links dir ("" :: names) = walk t links dir names := by
  cases links with
  | zero => simp [walk, advance]
  | succ links => simp [walk, advance]

theorem walk_render (links : Nat) (proper : Proper p) :
    walk t links [] (segments (render p)) = walk t links [] p := by
  by_cases empty : p = []
  · subst empty
    have text : segments (render []) = ["", ""] := by decide
    rw [text, walk_empty, walk_empty]
  · rw [segments_render proper empty, walk_empty]

end

/-- What a table of entries says of a path; the root is always there. -/
def nodeOf (entries : List (Path × Kind)) (p : Path) : Option Kind :=
  if p = [] then some .directory else (entries.find? fun e => e.1 = p).map Prod.snd

/-- Every entry lies in a directory of the table, under a proper name. -/
def isTree (entries : List (Path × Kind)) : Bool :=
  entries.all fun e => nodeOf entries e.1.dropLast = some .directory && e.1.getLast?.any properName

theorem isTree_entry {entries : List (Path × Kind)} (sound : isTree entries = true)
    (present : (nodeOf entries (p ++ [name])).isSome = true) :
    nodeOf entries p = some .directory ∧ properName name = true := by
  rw [nodeOf, if_neg (by simp), Option.isSome_map] at present
  rcases Option.isSome_iff_exists.mp present with ⟨e, found⟩
  have checked := all_eq_true.mp sound e (mem_of_find?_eq_some found)
  rw [show e.1 = p ++ [name] by simpa using find?_some found] at checked
  simpa using checked

def Tree.ofEntries (entries : List (Path × Kind)) (sound : isTree entries = true) : Tree where
  node := nodeOf entries
  root := rfl
  parent := fun _ _ present => (isTree_entry sound present).1
  named := fun _ _ present => (isTree_entry sound present).2

end Aeontra.Library
