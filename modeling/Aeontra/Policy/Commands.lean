import Aeontra.Library.Fallible
import Aeontra.Library.Text

/-!
The command gate: which program and arguments may run under an allowlist.

Paths are those of a system with the separator `/`.  Lower case is any mapping of the
characters that agrees with the ASCII one on ASCII.
-/

namespace Aeontra.Policy

open Library List
open Library.Text (oneOf)

def errCommandNotAllowed : String := "policy: command not on allowlist"
def errCommandDestructive : String := "policy: destructive command blocked"
def errCommandInjection : String := "policy: shell metacharacters not permitted in command"
def errCommandPathQualified : String := "policy: command must be a bare allowlisted program name"

def alwaysBlockedPrograms : List String :=
  ["sh", "bash", "zsh", "fish", "ksh", "dash", "csh", "tcsh", "cmd", "command", "powershell", "pwsh", "sudo",
    "doas", "su", "runas", "curl", "wget", "nc", "ncat", "netcat", "telnet", "format", "mkfs", "dd", "iex"]

def shellMetacharacter (c : Char) : Bool := oneOf ";|&\x60$<>\n\r\t" c

/-- A token that a shell, or the kernel, would read as something else than one argument. -/
def unsafeToken (token : String) : Bool := (chars token).any fun c => shellMetacharacter c || c == '\x00'

/-- `filepath.Base`. -/
def fileBase (path : List Char) : List Char :=
  if path = [] then ['.']
  else
    let trimmed := (path.reverse.dropWhile (· == '/'))
    if trimmed = [] then ['/'] else (trimmed.takeWhile (· != '/')).reverse

/-- `strings.TrimSuffix`. -/
def trimSuffix (ending text : List Char) : List Char :=
  if ending.isSuffixOf text then text.take (text.length - ending.length) else text

/-- The lower-case name of a program without its directory and its `.exe`. -/
def normProgram (lower : LowerCase) (prog : String) : String :=
  String.ofList (trimSuffix (chars ".exe") ((fileBase (chars prog)).map lower.toLower))

def isBareProgramName (prog : String) : Bool :=
  prog ≠ "" && Text.trimSpace prog = prog && !(chars prog).any (oneOf "/\\:") && fileBase (chars prog) = chars prog

def programAllowed (lower : LowerCase) (allowed : List String) (base : String) : Bool :=
  allowed.any fun a => normProgram lower a = base

/-- A short flag, possibly bundled with others, or a long one. -/
def hasFlag (args : List String) (short : Char) (long : String) : Bool :=
  args.any fun a => a = "--" ++ long ||
    match chars a with
    | '-' :: c :: rest => c ≠ '-' && (c :: rest).contains short
    | _ => false

def containsAny (args subs : List String) : Bool := args.any fun a => subs.contains a

def isDestructiveInvocation (toLower : LowerCase) (base : String) (args : List String) : Bool :=
  let lower := args.map toLower.text
  let joined := chars (String.intercalate " " lower)
  let bundled := Text.contains (chars "-rf") joined || Text.contains (chars "-fr") joined
  if base = "rm" then
    (hasFlag lower 'r' "recursive" || bundled) && (hasFlag lower 'f' "force" || bundled)
  else if base = "rmdir" ∨ base = "rd" then containsAny lower ["/s", "/q"]
  else if base = "del" ∨ base = "erase" then containsAny lower ["/s", "/q", "/f"]
  else if base = "chmod" then
    (hasFlag lower 'r' "recursive" || Text.contains (chars "-r") joined) && Text.contains (chars "777") joined
  else if base = "chown" then hasFlag lower 'r' "recursive"
  else if base = "git" then
    match lower with
    | "push" :: _ | "clean" :: _ => true
    | "reset" :: _ => containsAny lower ["--hard"]
    | _ => false
  else false

def checkCommand (lower : LowerCase) (allowed : List String) (prog : String) (args : List String) :
    Except String Unit := do
  reject (Text.trimSpace prog = "") errCommandNotAllowed
  reject ((prog :: args).any unsafeToken) errCommandInjection
  let base := normProgram lower prog
  reject (alwaysBlockedPrograms.contains base) errCommandDestructive
  reject (!isBareProgramName prog) errCommandPathQualified
  reject (!programAllowed lower allowed base) errCommandNotAllowed
  reject (isDestructiveInvocation lower base args) errCommandDestructive

def gitFlags : List String :=
  ["-p", "--paginate", "-P", "--no-pager", "--bare", "--no-replace-objects", "--no-lazy-fetch",
    "--no-optional-locks", "--no-advice", "--literal-pathspecs", "--glob-pathspecs", "--noglob-pathspecs",
    "--icase-pathspecs"]

def gitValued : List String :=
  ["-C", "-c", "--git-dir", "--work-tree", "--namespace", "--super-prefix", "--config-env", "--attr-source"]

/-- Options of git itself that take a value after an equals sign. -/
def gitAssigned : List String :=
  ["--git-dir", "--work-tree", "--namespace", "--super-prefix", "--config-env", "--attr-source", "--exec-path"]

/-- The arguments that git skips in front of its subcommand. -/
inductive GlobalOptions : List String → Prop
  | nil : GlobalOptions []
  | flag {option : String} {rest : List String} : option ∈ gitFlags → GlobalOptions rest →
      GlobalOptions (option :: rest)
  | valued {option value : String} {rest : List String} : option ∈ gitValued → GlobalOptions rest →
      GlobalOptions (option :: value :: rest)
  | assigned {option value : String} {rest : List String} : option ∈ gitAssigned → GlobalOptions rest →
      GlobalOptions ((option ++ "=" ++ value) :: rest)

/-- A subcommand with its arguments that pushes, cleans or resets the work tree. -/
def DestroysWork (lower : LowerCase) : List String → Prop
  | [] => False
  | subcommand :: rest =>
    lower.text subcommand = "push" ∨ lower.text subcommand = "clean" ∨
      (lower.text subcommand = "reset" ∧ "--hard" ∈ rest.map lower.text)

/-- An argument of rm that sets a flag, alone or among others, in either case. -/
def SetsFlag (lower : LowerCase) (short : Char) (long : String) (arg : String) : Prop :=
  lower.text arg = "--" ++ long ∨
    ∃ c rest, chars (lower.text arg) = '-' :: c :: rest ∧ c ≠ '-' ∧ short ∈ c :: rest

/-- What may run: `options` are the arguments that git skips in front of its subcommand. -/
structure Harmless (lower : LowerCase) (allowed options : List String) (prog : String) (args : List String) :
    Prop where
  bare : prog ≠ "" ∧ ∀ c ∈ prog.toList, c ≠ '/' ∧ c ≠ '\\' ∧ c ≠ ':'
  listed : ∃ entry ∈ allowed, normProgram lower entry = normProgram lower prog
  unblocked : normProgram lower prog ∉ alwaysBlockedPrograms
  plain : ∀ token ∈ prog :: args, ∀ c ∈ token.toList, c ∉ ";|&\x60$<>\n\r\t".toList ∧ c ≠ '\x00'
  git : normProgram lower prog = "git" → ∀ rest, args = options ++ rest → ¬ DestroysWork lower rest
  rm : normProgram lower prog = "rm" → ∀ a ∈ args, ∀ b ∈ args,
    ¬ (SetsFlag lower 'r' "recursive" a ∧ SetsFlag lower 'f' "force" b)

section

variable {lower : LowerCase} {allowed args : List String} {prog : String}

theorem checkCommand_eq_ok : checkCommand lower allowed prog args = .ok () ↔
    Text.trimSpace prog ≠ "" ∧ (∀ token ∈ prog :: args, unsafeToken token = false) ∧
      normProgram lower prog ∉ alwaysBlockedPrograms ∧ isBareProgramName prog = true ∧
      programAllowed lower allowed (normProgram lower prog) = true ∧
      isDestructiveInvocation lower (normProgram lower prog) args = false := by
  simp [checkCommand]

theorem plain_of_safe {token : String} (safe : unsafeToken token = false) :
    ∀ c ∈ token.toList, c ∉ ";|&\x60$<>\n\r\t".toList ∧ c ≠ '\x00' := by
  intro c inside
  have at_c := List.any_eq_false.mp safe c (by simpa using inside)
  simpa [shellMetacharacter, oneOf] using at_c

theorem bare_of_isBare (named : isBareProgramName prog = true) :
    prog ≠ "" ∧ ∀ c ∈ prog.toList, c ≠ '/' ∧ c ≠ '\\' ∧ c ≠ ':' := by
  simp only [isBareProgramName, bool_iff] at named
  constructor
  · exact named.1.1.1
  · intro c inside
    have at_c := List.any_eq_false.mp named.1.2 c (by simpa using inside)
    simpa [oneOf] using at_c

theorem hasFlag_of_setsFlag {short : Char} {long arg : String} (inside : arg ∈ args)
    (sets : SetsFlag lower short long arg) : hasFlag (args.map lower.text) short long = true := by
  apply any_eq_true.mpr
  refine ⟨lower.text arg, mem_map_of_mem inside, ?_⟩
  rcases sets with whole | ⟨c, rest, split, plain, among⟩
  · simp [whole]
  rw [split]
  simp only [bool_iff]
  right
  exact ⟨by simpa using plain, by simpa using among⟩

theorem not_both_flags (calm : isDestructiveInvocation lower "rm" args = false) {a b : String}
    (first : a ∈ args) (second : b ∈ args) :
    ¬ (SetsFlag lower 'r' "recursive" a ∧ SetsFlag lower 'f' "force" b) := by
  intro both
  have recursive := hasFlag_of_setsFlag first both.1
  have force := hasFlag_of_setsFlag second both.2
  simp [isDestructiveInvocation, recursive, force] at calm

theorem not_destroysWork (calm : isDestructiveInvocation lower "git" args = false) :
    ¬ DestroysWork lower args := by
  intro destroys
  cases args with
  | nil => exact destroys
  | cons subcommand rest =>
    rcases destroys with push | clean | ⟨reset, hard⟩
    · simp [isDestructiveInvocation, push] at calm
    · simp [isDestructiveInvocation, clean] at calm
    simp only [isDestructiveInvocation, map_cons, reset] at calm
    simp [containsAny] at calm
    simp only [mem_map] at hard
    rcases hard with ⟨arg, inside, same⟩
    exact calm arg inside same

theorem harmless_of_checkCommand {options : List String}
    (bound : options = [] ∨ (∃ option ∈ options, unsafeToken option = true) ∨
      programAllowed lower allowed "git" = false)
    (accepted : checkCommand lower allowed prog args = .ok ()) : Harmless lower allowed options prog args := by
  have checks := checkCommand_eq_ok.mp accepted
  rcases checks with ⟨-, safe, unblocked, named, listed, calm⟩
  constructor
  case bare => exact bare_of_isBare named
  case listed => simpa [programAllowed] using listed
  case unblocked => exact unblocked
  case plain =>
    intro token inside
    exact plain_of_safe (safe token inside)
  case git =>
    intro isGit rest split
    rw [isGit] at calm listed
    subst split
    rcases bound with none | ⟨option, inside, bad⟩ | unlisted
    · subst none
      exact not_destroysWork calm
    · rw [safe option (by simp [inside])] at bad
      exact absurd bad (by decide)
    · rw [unlisted] at listed
      exact absurd listed (by decide)
  case rm =>
    intro isRm a first b second
    rw [isRm] at calm
    exact not_both_flags calm first second

end

section

variable (lower : LowerCase)

theorem text_of_ascii {word : List Char} (ascii : word.all (·.toNat < 128) = true) :
    lower.text (String.ofList word) = String.ofList (word.map Char.toLower) := by
  rw [LowerCase.text, chars_eq_toList, String.toList_ofList]
  congr 1
  apply map_congr_left
  intro c inside
  exact lower.ascii c (of_decide_eq_true (all_eq_true.mp ascii c inside))

theorem normProgram_git : normProgram lower "git" = "git" := by
  have name : fileBase (chars "git") = ['g', 'i', 't'] := by decide
  rw [normProgram, name]
  simp only [map_cons, map_nil]
  rw [lower.ascii 'g' (by decide), lower.ascii 'i' (by decide), lower.ascii 't' (by decide)]
  decide

theorem global_dash : ∀ option ∈ gitFlags ++ gitValued ++ gitAssigned, (chars option).head? = some '-' := by
  decide

theorem head_dash {option : String} {rest : List String} (skipped : GlobalOptions (option :: rest)) :
    (chars option).head? = some '-' := by
  cases skipped with
  | flag known _ => exact global_dash option (by simp [known])
  | valued known _ => exact global_dash option (by simp [known])
  | assigned known tail =>
    rename_i lead value
    have dash := global_dash lead (by simp [known])
    rw [chars_eq_toList] at dash ⊢
    rw [String.append_assoc, String.toList_append, List.head?_append, dash]
    rfl

theorem calm_of_global {option : String} {rest more : List String} (skipped : GlobalOptions (option :: rest)) :
    isDestructiveInvocation lower "git" (option :: rest ++ more) = false := by
  have dash : (lower.text option).toList.head? = some '-' := by
    have first := head_dash skipped
    rw [LowerCase.text, String.toList_ofList, head?_map, first, Option.map_some, lower.ascii '-' (by decide)]
    rfl
  simp only [isDestructiveInvocation, cons_append, map_cons]
  generalize lower.text option = first at dash ⊢
  rw [if_neg (by decide), if_neg (by decide), if_neg (by decide), if_neg (by decide), if_neg (by decide),
    if_pos trivial]
  split
  · rename_i same
    cases same
    exact absurd dash (by decide)
  · rename_i same
    cases same
    exact absurd dash (by decide)
  · rename_i same
    cases same
    exact absurd dash (by decide)
  · rfl

theorem checkCommand_behind_global {allowed options : List String} (skipped : GlobalOptions options)
    (some : options ≠ []) (safe : ∀ option ∈ options, unsafeToken option = false)
    (listed : programAllowed lower allowed "git" = true) :
    checkCommand lower allowed "git" (options ++ ["push"]) = .ok () := by
  rw [checkCommand_eq_ok, normProgram_git]
  refine ⟨by decide, ?_, by decide, by decide, listed, ?_⟩
  · intro token inside
    simp only [mem_cons, mem_append, not_mem_nil, or_false] at inside
    rcases inside with isGit | among | isPush
    · subst isGit
      decide
    · exact safe token among
    · subst isPush
      decide
  · cases options with
    | nil => exact absurd rfl some
    | cons option rest => exact calm_of_global lower skipped

end

/-- What the gate accepts is harmless exactly up to the arguments that git skips: the
subcommand is looked for in the first argument only. -/
theorem checkCommand_harmless_iff (lower : LowerCase) (allowed : List String) {options : List String}
    (skipped : GlobalOptions options) :
    (∀ prog args, checkCommand lower allowed prog args = .ok () → Harmless lower allowed options prog args) ↔
      options = [] ∨ (∃ option ∈ options, unsafeToken option = true) ∨
        programAllowed lower allowed "git" = false := by
  constructor
  · intro harmless
    by_contra outside
    simp only [not_or, not_exists, not_and, Bool.not_eq_true, Bool.not_eq_false] at outside
    have accepted := checkCommand_behind_global lower skipped outside.1 outside.2.1 outside.2.2
    have push : lower.text "push" = "push" := @text_of_ascii lower ['p', 'u', 's', 'h'] (by decide)
    exact (harmless "git" _ accepted).git (normProgram_git lower) ["push"] rfl (.inl push)
  · intro bound prog args accepted
    exact harmless_of_checkCommand bound accepted

/-- With git on the list a status is harmless, and with `-C repo` in front not all that is accepted is. -/
theorem status_harmless : Harmless asciiLower ["git"] [] "git" ["status"] ∧
    ¬ ∀ prog args, checkCommand asciiLower ["git"] prog args = .ok () →
      Harmless asciiLower ["git"] ["-C", "repo"] prog args := by
  refine ⟨(checkCommand_harmless_iff asciiLower ["git"] .nil).mpr (.inl rfl) "git" ["status"] (by decide), ?_⟩
  intro harmless
  have behind : GlobalOptions ["-C", "repo"] := .valued (by decide) .nil
  exact absurd ((checkCommand_harmless_iff asciiLower ["git"] behind).mp harmless) (by decide)

/-- A push behind `-C repo` is accepted. -/
theorem push_in_repo_accepted :
    checkCommand asciiLower ["git"] "git" ["-C", "repo", "push", "origin", "main"] = .ok () ∧
      GlobalOptions ["-C", "repo"] ∧ DestroysWork asciiLower ["push", "origin", "main"] :=
  ⟨by decide, .valued (by decide) .nil, .inl (by decide)⟩

end Aeontra.Policy
