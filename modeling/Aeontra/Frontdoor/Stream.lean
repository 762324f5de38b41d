import Mathlib.Data.List.Chain
import Mathlib.Data.List.DropRight
import Aeontra.Library.Chars
import Aeontra.Library.Process

/-!
The event stream that the front door serves while backends come and go.

The filter ends a line at a line feed, a reader of the stream at a carriage return as well, so a
comment may carry an event.
-/

namespace Aeontra.Frontdoor.Stream

open Library List
open Library.Process

abbrev Bytes := List Nat

def isLineEnd (b : Nat) : Bool := b = 10 || b = 13

/-- The lines of an event stream: each ends at CR, LF or CRLF. -/
def eventLines : Bytes → List Bytes
  | [] => [[]]
  | 13 :: 10 :: rest => [] :: eventLines rest
  | b :: rest =>
    if isLineEnd b then [] :: eventLines rest
    else
      match eventLines rest with
      | [] => [[b]]
      | line :: lines => (b :: line) :: lines

def isComment (line : Bytes) : Prop := line.head? = some 58

def CommentsOnly (stream : Bytes) : Prop := ∀ line ∈ eventLines stream, line = [] ∨ isComment line

inductive Probe
  | ready
  | incompatible
  | unavailable
  deriving DecidableEq

inductive Signal
  | done
  | changed
  | tick
  deriving DecidableEq

inductive Call
  | read
  | write (data : Bytes)
  | contextDone
  | probeAfter
  | backendLost
  | select
  deriving DecidableEq

@[reducible] def Call.Answer : Call → Type
  | .read => Option Bytes
  | .write _ => Bool
  | .contextDone => Bool
  | .probeAfter => Probe
  | .backendLost => Bool
  | .select => Signal

/-- What the backend has sent and what has gone downstream after the headers. -/
structure Wire where
  backend : Bytes := []
  downstream : Bytes := []

/-- `accepted` is the number of bytes that still go through when a write fails. -/
structure Choice where
  chunk : Option Bytes := none
  accepted : Option Nat := none
  flag : Bool := false
  probe : Probe := .ready
  signal : Signal := .done

def Wire.send (wire : Wire) (data : Bytes) : Option Nat → Bool × Wire
  | none => (true, { wire with downstream := wire.downstream ++ data })
  | some n => (false, { wire with downstream := wire.downstream ++ data.take n })

def react : (call : Call) → Choice → Wire → call.Answer × Wire
  | .read, choice, wire => (choice.chunk, { wire with backend := wire.backend ++ choice.chunk.getD [] })
  | .write data, choice, wire => wire.send data choice.accepted
  | .contextDone, choice, wire => (choice.flag, wire)
  | .probeAfter, choice, wire => (choice.probe, wire)
  | .backendLost, choice, wire => (choice.flag, wire)
  | .select, choice, wire => (choice.signal, wire)

def environment : Environment Call Call.Answer Wire Choice := ⟨react⟩

abbrev Program := Process Call Call.Answer

/-- Where the handler is: the unfinished line is what its reader has buffered. -/
inductive Phase
  | copying (buffer : Bytes)
  | waiting
  | kept

/-- `ReadString('\n')` on what is buffered. -/
def readString (buffer : Bytes) : Option (Bytes × Bytes) :=
  match buffer.dropWhile (· != 10) with
  | [] => none
  | _ :: rest => some (buffer.takeWhile (· != 10) ++ [10], rest)

def supported (line : Bytes) : Bool :=
  let trimmed := line.rdropWhile isLineEnd
  trimmed = [] || trimmed.head? = some 58

def afterCopy : Program (Option Phase) := do
  let done ← perform Call.contextDone
  pure (if done then none else some .waiting)

/-- Forward a line and go on, unless it is not supported or the downstream is closed. -/
def forward (line : Bytes) (next : Program (Option Phase)) : Program (Option Phase) :=
  if supported line then do
    let written ← perform (Call.write line)
    if written then next else pure none
  else pure none

/-- One round of the loop of `copyCommentSSE`, or of the reader below it. -/
def copyCommentSSE (buffer : Bytes) : Program (Option Phase) :=
  match readString buffer with
  | some (line, rest) => forward line (pure (some (.copying rest)))
  | none => do
    let chunk ← perform Call.read
    match chunk with
    | some data => pure (some (.copying (buffer ++ data)))
    | none => if buffer = [] then afterCopy else forward buffer afterCopy

def comment (text : String) : Bytes := bytes (": " ++ text ++ "\n\n")

def writeSSEComment (text : String) (next : Phase) : Program (Option Phase) := do
  let written ← perform (Call.write (comment text))
  pure (if written then some next else none)

/-- The `select` of both loops: a comment at every tick. -/
def awaitSignal (text : String) (phase : Phase) : Program (Option Phase) := do
  let signal ← perform Call.select
  match signal with
  | .done => pure none
  | .changed => pure (some phase)
  | .tick => writeSSEComment text phase

/-- One round of the loop of `waitForBackend`, and what `recoverAcceptedMCPStream` does after it. -/
def recoverAcceptedMCPStream : Program (Option Phase) := do
  let probe ← perform Call.probeAfter
  match probe with
  | .incompatible => pure none
  | .ready => do
    let done ← perform Call.contextDone
    if done then pure none else writeSSEComment "front-door stream recovered" .kept
  | .unavailable => awaitSignal "front-door waiting" .waiting

def keepRecoveredMCPStream : Program (Option Phase) := do
  let lost ← perform Call.backendLost
  if lost then pure (some .waiting) else awaitSignal "front-door ping" .kept

def round : Phase → Program (Option Phase)
  | .copying buffer => copyCommentSSE buffer
  | .waiting => recoverAcceptedMCPStream
  | .kept => keepRecoveredMCPStream

def rounds : Nat → Phase → Program Unit
  | 0, _ => pure ()
  | n + 1, phase => do
    let next ← round phase
    match next with
    | none => pure ()
    | some phase => rounds n phase

/-- The handler after the headers, for so many rounds; a writer that cannot flush gets nothing. -/
def serveMCPStream (flusher : Bool) (n : Nat) : Program Unit :=
  if flusher then rounds n (.copying []) else pure ()

/-- No carriage return is followed by anything but a line end or a colon. -/
def Tame (stream : Bytes) : Prop := stream.IsChain fun a b => a = 13 → isLineEnd b = true ∨ b = 58

instance : DecidablePred Tame := fun _ => inferInstanceAs (Decidable (List.IsChain _ _))

structure Clean (stream : Bytes) : Prop where
  head : ∀ b ∈ stream.head?, isLineEnd b = true ∨ b = 58
  next : stream.IsChain fun a b => isLineEnd a = true → isLineEnd b = true ∨ b = 58

theorem Clean.append {first second : Bytes} (one : Clean first) (two : Clean second) : Clean (first ++ second) where
  head b member := by
    cases first with
    | nil => exact two.head b member
    | cons a first => exact one.head b member
  next := List.isChain_append.mpr ⟨one.next, two.next, fun _ _ b member _ => two.head b member⟩

variable {stream buffer line : Bytes}

theorem Clean.take (clean : Clean stream) (n : Nat) : Clean (stream.take n) where
  head b member := by
    cases n with
    | zero => cases member
    | succ n =>
      rw [List.head?_take, if_neg (Nat.succ_ne_zero n)] at member
      exact clean.head b member
  next := clean.next.take n

theorem first_line (head : ∀ b ∈ stream.head?, isLineEnd b = true ∨ b = 58) :
    ∀ line ∈ (eventLines stream).head?, line = [] ∨ isComment line := by
  fun_cases eventLines stream with
  | case1 => simp
  | case2 => simp
  | case3 => simp
  | case4 b rest _ inside => simp_all [isComment]
  | case5 b rest _ inside => simp_all [isComment]

theorem forall_lines {lines : List Bytes} {P : Bytes → Prop} (first : ∀ line ∈ lines.head?, P line)
    (later : ∀ line ∈ lines.tail, P line) : ∀ line ∈ lines, P line := by
  cases lines with
  | nil => simp
  | cons line lines => simpa using And.intro (first line rfl) later

theorem later_lines (next : stream.IsChain fun a b => isLineEnd a = true → isLineEnd b = true ∨ b = 58) :
    ∀ line ∈ (eventLines stream).tail, line = [] ∨ isComment line := by
  fun_induction eventLines stream with
  | case1 => simp
  | case2 rest ih =>
    obtain ⟨head, next⟩ := List.isChain_cons.mp (List.isChain_cons_cons.mp next).2
    exact forall_lines (first_line fun b member => head b member rfl) (ih next)
  | case3 b rest other ends ih =>
    obtain ⟨head, next⟩ := List.isChain_cons.mp next
    exact forall_lines (first_line fun b member => head b member ends) (ih next)
  | case4 b rest other inside none ih => simp
  | case5 b rest other inside line lines found ih =>
    have later := ih (List.isChain_cons.mp next).2
    rwa [found] at later

theorem Clean.commentsOnly (clean : Clean stream) : CommentsOnly stream :=
  forall_lines (first_line clean.head) (later_lines clean.next)

theorem readString_eq_some {rest : Bytes} (cut : readString buffer = some (line, rest)) :
    buffer = line ++ rest ∧ ∀ b ∈ line.dropLast, b ≠ 10 := by
  unfold readString at cut
  have whole := takeWhile_append_dropWhile (p := (· != 10)) (l := buffer)
  split at cut
  · cases cut
  next first rest' found =>
  cases cut
  have lineFeed : first = 10 := by
    have stops := List.head?_dropWhile_not (· != 10) buffer
    rw [found] at stops
    simpa using stops
  rw [found, lineFeed] at whole
  refine ⟨by rw [append_assoc]; exact whole.symm, fun b member => ?_⟩
  rw [dropLast_concat] at member
  simpa using mem_takeWhile_imp member

theorem readString_eq_none (cut : readString buffer = none) : ∀ b ∈ buffer, b ≠ 10 := by
  unfold readString at cut
  split at cut
  · next gone => simpa using List.dropWhile_eq_nil_iff.mp gone
  · cases cut

theorem clean_line (fits : supported line = true) (inner : ∀ b ∈ line.dropLast, b ≠ 10)
    (tame : Tame line) : Clean line where
  head b member := by
    simp only [supported, Bool.or_eq_true, decide_eq_true_eq, rdropWhile_eq_nil_iff] at fits
    rcases fits with blank | colon
    · exact .inl (blank b (mem_of_mem_head? member))
    obtain ⟨rest, whole⟩ := rdropWhile_prefix isLineEnd line
    have first : line.head? = some 58 := by
      rw [← whole, List.head?_append, colon]
      rfl
    exact .inr (Option.some.inj (member.symm.trans first))
  next := by
    rw [Tame, isChain_iff_forall_rel_of_append_cons_cons] at tame
    rw [isChain_iff_forall_rel_of_append_cons_cons]
    intro a b before after whole ends
    have notLineFeed : a ≠ 10 := inner a (by simp [whole])
    exact tame whole (by simpa [isLineEnd, notLineFeed] using ends)

theorem clean_comment : ∀ text ∈ ["front-door waiting", "front-door stream recovered", "front-door ping"],
    Clean (comment text) := by
  intro text member
  refine ⟨?_, ?_⟩
  · revert text
    decide
  · revert text
    decide

def rules : Rules Call Wire Choice where
  may := fun _ _ _ => True
  holds := fun wire => Tame wire.backend → Clean wire.downstream
  allows := fun _ => True

/-- While the handler copies, what it has not forwarded yet is what it has buffered. -/
def Reached : Option Phase → Wire → Prop
  | some (.copying buffer), wire => rules.holds wire ∧ wire.backend = wire.downstream ++ buffer
  | _, wire => rules.holds wire

section

variable {wire : Wire}

theorem ensures_write {data : Bytes} (held : rules.holds wire) (clean : Tame wire.backend → Clean data) :
    (perform (Call.write data) : Program Bool).Ensures environment rules
      (fun written after => rules.holds after ∧ after.backend = wire.backend ∧
        (written = true → after.downstream = wire.downstream ++ data)) wire := by
  refine ensures_perform held fun choice _ => ⟨trivial, ?_⟩
  change rules.holds (wire.send data choice.accepted).2 ∧ (wire.send data choice.accepted).2.backend = _ ∧
    ((wire.send data choice.accepted).1 = true → (wire.send data choice.accepted).2.downstream = _)
  cases choice.accepted with
  | none => exact ⟨fun tame => (held tame).append (clean tame), rfl, fun _ => rfl⟩
  | some n => exact ⟨fun tame => (held tame).append ((clean tame).take n), rfl, nofun⟩

theorem ensures_same {call : Call} (held : rules.holds wire) (unchanged : ∀ choice, (react call choice wire).2 = wire) :
    (perform call : Program call.Answer).Ensures environment rules (fun _ after => after = wire) wire :=
  (ensures_quiet unchanged held trivial).mono fun _ _ same => same.1

variable {next phase : Phase} {text : String}

theorem reached_of_ne (simple : ∀ buffer, next ≠ .copying buffer) (held : rules.holds wire) :
    Reached (some next) wire := by
  cases next with
  | copying buffer => exact absurd rfl (simple buffer)
  | waiting => exact held
  | kept => exact held

variable (held : rules.holds wire)

include held

theorem ensures_writeSSEComment (clean : Clean (comment text)) (simple : ∀ buffer, next ≠ .copying buffer) :
    (writeSSEComment text next).Ensures environment rules Reached wire := by
  refine (ensures_write held fun _ => clean).bind ?_
  rintro written after ⟨still, -, -⟩
  cases written with
  | false => exact ensures_pure still
  | true => exact ensures_pure (reached_of_ne simple still)

theorem ensures_awaitSignal (clean : Clean (comment text)) (simple : ∀ buffer, phase ≠ .copying buffer) :
    (awaitSignal text phase).Ensures environment rules Reached wire := by
  refine (ensures_same held fun _ => rfl).bind ?_
  rintro signal after rfl
  cases signal with
  | done => exact ensures_pure held
  | changed => exact ensures_pure (reached_of_ne simple held)
  | tick => exact ensures_writeSSEComment held clean simple

theorem ensures_afterCopy : afterCopy.Ensures environment rules Reached wire := by
  refine (ensures_same held fun _ => rfl).bind ?_
  rintro done after rfl
  cases done with
  | true => exact ensures_pure held
  | false => exact ensures_pure held

theorem ensures_forward {line rest : Bytes} {next : Program (Option Phase)}
    (sent : wire.backend = wire.downstream ++ (line ++ rest)) (inner : ∀ b ∈ line.dropLast, b ≠ 10)
    (later : ∀ after, rules.holds after → after.backend = after.downstream ++ rest →
      next.Ensures environment rules Reached after) :
    (forward line next).Ensures environment rules Reached wire := by
  unfold forward
  split
  · next fits =>
    refine (ensures_write held fun tame => clean_line fits inner ?_).bind ?_
    · rw [sent] at tame
      exact tame.right_of_append.left_of_append
    rintro written after ⟨still, same, grown⟩
    cases written with
    | false => exact ensures_pure still
    | true => exact later after still (by rw [same, sent, grown rfl, append_assoc])
  · exact ensures_pure held

theorem ensures_copyCommentSSE {buffer : Bytes} (sent : wire.backend = wire.downstream ++ buffer) :
    (copyCommentSSE buffer).Ensures environment rules Reached wire := by
  unfold copyCommentSSE
  split
  · next line rest cut =>
    obtain ⟨whole, inner⟩ := readString_eq_some cut
    exact ensures_forward held (whole ▸ sent) inner fun after still left => ensures_pure ⟨still, left⟩
  next cut =>
  refine (ensures_perform held fun choice _ => ⟨trivial, ?_⟩ : (perform Call.read : Program (Option Bytes)).Ensures
    environment rules (fun chunk after => rules.holds after ∧
      after.backend = after.downstream ++ (buffer ++ chunk.getD [])) wire).bind ?_
  · refine ⟨fun tame => held (List.IsChain.left_of_append tame), ?_⟩
    change wire.backend ++ choice.chunk.getD [] = wire.downstream ++ (buffer ++ choice.chunk.getD [])
    rw [sent, append_assoc]
  rintro chunk after ⟨still, left⟩
  cases chunk with
  | some data => exact ensures_pure ⟨still, left⟩
  | none =>
    dsimp only
    split
    · exact ensures_afterCopy still
    · refine ensures_forward still left (fun b member => ?_) fun _ later _ => ensures_afterCopy later
      exact readString_eq_none cut b (dropLast_subset _ member)

omit held

theorem ensures_round (reached : Reached (some phase) wire) :
    (round phase).Ensures environment rules Reached wire := by
  cases phase with
  | copying buffer => exact ensures_copyCommentSSE reached.1 reached.2
  | waiting =>
    have held : rules.holds wire := reached
    refine (ensures_same held fun _ => rfl).bind ?_
    rintro probe after rfl
    cases probe with
    | incompatible => exact ensures_pure held
    | ready =>
      refine (ensures_same held fun _ => rfl).bind ?_
      rintro done same rfl
      cases done with
      | true => exact ensures_pure held
      | false => exact ensures_writeSSEComment held (clean_comment _ (by simp)) nofun
    | unavailable => exact ensures_awaitSignal held (clean_comment _ (by simp)) nofun
  | kept =>
    have held : rules.holds wire := reached
    refine (ensures_same held fun _ => rfl).bind ?_
    rintro lost after rfl
    cases lost with
    | true => exact ensures_pure held
    | false => exact ensures_awaitSignal held (clean_comment _ (by simp)) nofun

theorem ensures_rounds (n : Nat) (reached : Reached (some phase) wire) :
    (rounds n phase).Ensures environment rules (fun _ after => rules.holds after) wire := by
  have holds : ∀ {phase : Phase} {wire : Wire}, Reached (some phase) wire → rules.holds wire := by
    intro phase wire reached
    cases phase with
    | copying buffer => exact reached.1
    | waiting => exact reached
    | kept => exact reached
  induction n generalizing phase wire with
  | zero => exact ensures_pure (holds reached)
  | succ n ih =>
    refine (ensures_round reached).bind ?_
    intro next after reached
    cases next with
    | none => exact ensures_pure reached
    | some phase => exact ih reached

end

/-- Whatever the backend sends in whatever chunks, however writes fail and backends come and go: as
long as no carriage return of the backend is followed by anything but a line end or a colon, only
comments and blank lines go downstream. -/
theorem stream_comments_only (flusher : Bool) (n : Nat) (choices : List Choice)
    (tame : Tame ((serveMCPStream flusher n).run environment choices {}).2.backend) :
    CommentsOnly ((serveMCPStream flusher n).run environment choices {}).2.downstream := by
  have start : Reached (some (.copying [])) {} := ⟨fun _ => ⟨nofun, .nil⟩, rfl⟩
  have ensured : (serveMCPStream flusher n).Ensures environment rules (fun _ after => rules.holds after) {} := by
    unfold serveMCPStream
    split
    · exact ensures_rounds n start
    · exact ensures_pure start.1
  have permitted : (serveMCPStream flusher n).Permitted environment rules choices {} :=
    permitted_of_choices (fun _ _ _ (_ : True) => trivial) _ (fun _ _ => trivial) _
  have final := (ensured.run permitted).2
  split at final
  · exact (final tame).commentsOnly
  · exact (final tame).commentsOnly

def lostChoices : List Choice :=
  [{ chunk := some (bytes ": ping\r\n: par") }, {}, { chunk := some (bytes "tial") }, {}, {}, {},
    { probe := .unavailable }, { signal := .tick }, {}]

theorem stream_comments_only_lost :
    ((serveMCPStream true 9).run environment lostChoices {}).2.downstream =
      bytes ": ping\r\n: partial: front-door waiting\n\n" ∧
    CommentsOnly ((serveMCPStream true 9).run environment lostChoices {}).2.downstream :=
  ⟨by decide +kernel, stream_comments_only true 9 lostChoices (by decide +kernel)⟩

/-- A comment with a carriage return inside carries an event. -/
theorem stream_carries_event :
    bytes "data: x" ∈ eventLines ((serveMCPStream true 9).run environment
      [{ chunk := some (bytes ": a\rdata: x\n") }, {}, {}] {}).2.downstream ∧
    ¬ CommentsOnly ((serveMCPStream true 9).run environment
      [{ chunk := some (bytes ": a\rdata: x\n") }, {}, {}] {}).2.downstream := by
  have carried : bytes "data: x" ∈ eventLines ((serveMCPStream true 9).run environment
      [{ chunk := some (bytes ": a\rdata: x\n") }, {}, {}] {}).2.downstream := by decide +kernel
  have event : ¬ (bytes "data: x" = [] ∨ (bytes "data: x").head? = some 58) := by decide +kernel
  exact ⟨carried, fun only => event (only _ carried)⟩

end Aeontra.Frontdoor.Stream
