import Aeontra.Library.Instant
import Aeontra.Library.Sha256
import Aeontra.Library.Table
import Aeontra.Library.Text
import Aeontra.Library.Update

/-!
The result store: tool output behind an opaque reference, read back in bounded fragments.

Contents are byte strings of any kind.  The content scan and the shortening of summaries
are parameters: nothing here depends on what they keep.
-/

namespace Aeontra.Resultstore

open Library List Nat

abbrev Bytes := List UInt8

def successTTL : Duration := 24 * hour
def failureTTL : Duration := 7 * 24 * hour
def maxFragmentBytes : Nat := 16 * 2 ^ 10
def maxStages : Nat := 32
def defaultQuotaBytes : Nat := 256 * 2 ^ 20

inductive Status where
  | success | failure | other
  deriving DecidableEq

structure StageInput where
  name : String
  status : Status
  start : Int
  stop : Int
  deriving DecidableEq

structure Stage where
  name : String
  status : Status
  start : Nat
  stop : Nat
  deriving DecidableEq

structure Input where
  status : Status
  summary : Bytes
  exitStatus : Int
  content : Bytes
  stages : List StageInput
  deriving DecidableEq

structure Metadata where
  status : Status
  summary : Bytes
  stages : List Stage
  exitStatus : Int
  outputBytes : Nat
  resultRef : String
  expiresAt : Time
  deriving DecidableEq

structure ResultRow where
  resultRef : String
  status : Status
  summary : Bytes
  stages : List Stage
  exitStatus : Int
  outputBytes : Nat
  content : Bytes
  contentBytes : Nat
  createdAt : Int
  expiresAt : Int
  deriving DecidableEq

structure Store where
  quotaBytes : Nat
  quota : 1024 ≤ quotaBytes ∧ quotaBytes ≤ defaultQuotaBytes
  results : Table ResultRow ResultRow.resultRef ResultRow.resultRef

def unixSeconds (t : Time) : Int := t / second

def opaqueRefPattern : Pattern := [Pattern.literal "rs_" ++ [Pattern.exactly isLowerHex 32]]

def stageTail (c : Char) : Bool := isLowerAlnum c || c == '_' || c == '-'

def safeStagePattern : Pattern := [[Pattern.exactly isLowerAlnum 1, ⟨stageTail, 0, 79⟩]]

abbrev Draw := Fin (2 ^ 128)

def newRef (draw : Draw) : String := "rs_" ++ String.ofList (hexDigits 32 draw)

def normalizeStage (contentBytes : Nat) (fallback : Status) (candidate : StageInput) : Except String Stage := do
  let name := Text.lowerText (Text.trimSpace candidate.name)
  let name := if safeStagePattern.matchString name then name else "redacted"
  let status := if candidate.status = .other then fallback else candidate.status
  reject (candidate.start < 0 || candidate.stop < 0 || candidate.start > candidate.stop ||
    candidate.stop > contentBytes) "result stage bounds are invalid"
  let stop := if candidate.start = 0 ∧ candidate.stop = 0 then contentBytes else candidate.stop.toNat
  pure ⟨name, status, candidate.start.toNat, stop⟩

def normalizeStages (input : List StageInput) (contentBytes : Nat) (fallback : Status) :
    Except String (List Stage) := do
  let input := if input = [] then [⟨"result", fallback, 0, contentBytes⟩] else input
  reject (maxStages < input.length) "too many result stages"
  input.mapM (normalizeStage contentBytes fallback)

namespace Store

def cleanup (s : Store) (now : Time) : Store :=
  { s with results := s.results.delete fun row => row.expiresAt ≤ unixSeconds now }

def usedBytes (s : Store) : Nat := (s.results.rows.map ResultRow.contentBytes).sum

/-- Evict the oldest results until the incoming one fits; each round deletes a row. -/
def makeRoom (incoming : Nat) : (fuel : Nat) → Store → Except String Store
  | 0, _ => .error "result quota unavailable"
  | fuel + 1, s =>
    if s.usedBytes + incoming ≤ s.quotaBytes then .ok s
    else
      match s.results.rows.mergeSort fun a b =>
          a.createdAt < b.createdAt || (a.createdAt = b.createdAt && a.resultRef ≤ b.resultRef) with
      | [] => .error "result quota unavailable"
      | oldest :: _ =>
        makeRoom incoming fuel
          { s with results := s.results.delete fun row => row.resultRef = oldest.resultRef }

end Store

section

variable (redact safeSummary : Bytes → Bytes)

/-- `Put`: the stored content is the scanned one. -/
def Store.put (s : Store) (input : Input) (draw : Draw) (now : Time) : Except String (Metadata × Store) := do
  reject (input.status = .other) "result status is invalid"
  let redacted := redact input.content
  reject (s.quotaBytes < redacted.length) "result exceeds store quota"
  let stages ← normalizeStages input.stages redacted.length input.status
  let ttl := if input.status = .failure then failureTTL else successTTL
  let info : Metadata :=
    ⟨input.status, safeSummary input.summary, stages, input.exitStatus, input.content.length, newRef draw,
      now + ttl⟩
  let cleaned := s.cleanup now
  let room ← Store.makeRoom redacted.length (cleaned.results.rows.length + 1) cleaned
  let results ← required "result persistence failed" (room.results.insert
    ⟨info.resultRef, info.status, info.summary, stages, info.exitStatus, info.outputBytes, redacted,
      redacted.length, unixSeconds now, unixSeconds info.expiresAt⟩)
  pure (info, { room with results := results })

end

/-- `utf8.RuneStart`: not a continuation byte. -/
def runeStart (b : UInt8) : Bool := !(0x80 ≤ b && b < 0xc0)

/-- The first loop of `boundedFragment`: over continuation bytes up to the end. -/
def seekForward (data : Bytes) (stop : Nat) : (fuel start : Nat) → Nat
  | 0, start => start
  | fuel + 1, start =>
    if start < stop ∧ runeStart (data.getD start 0) = false then seekForward data stop fuel (start + 1)
    else start

/-- The second loop: back to the start of the character that the end would cut. -/
def seekBack (data : Bytes) (start : Nat) : (stop : Nat) → Nat
  | 0 => 0
  | stop + 1 =>
    if start < stop + 1 ∧ stop + 1 < data.length ∧ runeStart (data.getD (stop + 1) 0) = false then
      seekBack data start stop
    else stop + 1

def fragmentLimit (limit : Int) : Nat :=
  if limit ≤ 0 ∨ maxFragmentBytes < limit then maxFragmentBytes else limit.toNat

def slice (data : Bytes) (first last : Nat) : Bytes := (data.drop first).take (last - first)

/-- The bytes that a reading from `offset` cuts out, and the next offset. -/
def cutFragment (data : Bytes) (limit offset maximum : Nat) : Bytes × Nat :=
  let stop := min (offset + limit) maximum
  let start := seekForward data stop stop offset
  let stop := seekBack data start stop
  (slice data start stop, stop)

def boundedFragment (content : Bytes) (offset limit : Int) (minimum maximum : Nat) :
    Except String (Bytes × Nat) := do
  reject (offset < minimum || maximum < offset) "result offset is invalid"
  pure (cutFragment content (fragmentLimit limit) offset.toNat maximum)

structure Fragment where
  info : Metadata
  fragment : Bytes
  nextOffset : Nat
  deriving DecidableEq

structure StageFragment where
  info : Metadata
  stage : Stage
  fragment : Bytes
  nextOffset : Nat
  deriving DecidableEq

namespace Store

def load (s : Store) (ref : String) (now : Time) : Except String (Metadata × Bytes) := do
  reject (!opaqueRefPattern.matchString ref) "result reference is invalid"
  let row ← required "result not found"
    ((s.results.find ref).filter fun row => unixSeconds now < row.expiresAt)
  pure (⟨row.status, row.summary, row.stages, row.exitStatus, row.outputBytes, ref, row.expiresAt * second⟩,
    row.content)

def read (s : Store) (ref : String) (offset limit : Int) (now : Time) : Except String Fragment := do
  let (info, content) ← s.load ref now
  let (fragment, next) ← boundedFragment content offset limit 0 content.length
  pure ⟨info, fragment, next⟩

def readStage (s : Store) (ref : String) (index limit : Int) (now : Time) : Except String StageFragment := do
  let (info, content) ← s.load ref now
  reject (index < 0 || (info.stages.length : Int) ≤ index) "result stage not found"
  let stage ← required "result stage not found" (info.stages[index.toNat]?)
  let (fragment, next) ← boundedFragment content stage.start limit stage.start stage.stop
  pure ⟨info, stage, fragment, next⟩

/-- A reader that follows the next offsets until `goal`; `none` where the calls do not get there. -/
def follow (s : Store) (ref : String) (limit : Int) (clock : Nat → Time) (goal : Nat) :
    (calls offset : Nat) → Option Bytes
  | 0, offset => if goal ≤ offset then some [] else none
  | calls + 1, offset =>
    if goal ≤ offset then some []
    else
      match s.read ref offset limit (clock calls) with
      | .error _ => none
      | .ok part => (follow s ref limit clock goal calls part.nextOffset).map (part.fragment ++ ·)

/-- A reader that begins with a stage and goes on with plain readings up to the end of the stage. -/
def followStage (s : Store) (ref : String) (index : Nat) (limit : Int) (clock : Nat → Time) (calls : Nat) :
    Option Bytes :=
  match s.readStage ref index limit (clock calls) with
  | .error _ => none
  | .ok part =>
    (s.follow ref limit clock part.stage.stop calls part.nextOffset).map fun rest =>
      (part.fragment ++ rest).take (part.stage.stop - part.stage.start)

end Store

/-- No character is cut at `i`; past the end every place is such a place. -/
def Boundary (data : Bytes) (i : Nat) : Prop := runeStart (data.getD i 0) = true

instance (data : Bytes) (i : Nat) : Decidable (Boundary data i) := inferInstanceAs (Decidable (_ = _))

theorem boundary_length (data : Bytes) : Boundary data data.length := by
  simp [Boundary, runeStart]

theorem seekForward_of_boundary {data : Bytes} {stop start : Nat} (whole : Boundary data start) (fuel : Nat) :
    seekForward data stop fuel start = start := by
  cases fuel with
  | zero => rfl
  | succ fuel =>
    have kept : runeStart (data.getD start 0) = true := whole
    simp [seekForward, -getD_eq_getElem?_getD, kept]

theorem seekForward_spec (data : Bytes) (stop fuel start : Nat) (enough : stop ≤ fuel + start) :
    start ≤ seekForward data stop fuel start ∧
      (seekForward data stop fuel start < stop → Boundary data (seekForward data stop fuel start)) ∧
      ∀ k, Boundary data k → start ≤ k → seekForward data stop fuel start ≤ k := by
  induction fuel generalizing start with
  | zero =>
    refine ⟨le_refl _, ?_, fun k _ later => later⟩
    intro before
    simp only [seekForward] at before
    omega
  | succ fuel ih =>
    rw [seekForward]
    split
    · rename_i inside
      obtain ⟨later, stops, least⟩ := ih (start + 1) (by omega)
      refine ⟨by omega, stops, ?_⟩
      intro k whole after
      rcases eq_or_lt_of_le after with rfl | strictly
      · rw [Boundary, inside.2] at whole
        cases whole
      · exact least k whole strictly
    · rename_i outside
      refine ⟨le_refl _, ?_, fun k _ later => later⟩
      intro before
      rw [Boundary]
      cases value : runeStart (data.getD start 0) with
      | true => rfl
      | false => exact absurd ⟨before, value⟩ outside

theorem seekBack_le (data : Bytes) (start stop : Nat) : seekBack data start stop ≤ stop := by
  induction stop with
  | zero => exact le_refl _
  | succ stop ih =>
    rw [seekBack]
    split
    · omega
    · exact le_refl _

theorem seekBack_spec (data : Bytes) (start stop : Nat) (ordered : start ≤ stop) :
    start ≤ seekBack data start stop ∧ seekBack data start stop ≤ stop ∧
      (seekBack data start stop = start ∨ Boundary data (seekBack data start stop)) ∧
      ∀ k, Boundary data k → k ≤ stop → start ≤ k → k ≤ seekBack data start stop := by
  induction stop with
  | zero =>
    obtain rfl : start = 0 := le_zero.mp ordered
    exact ⟨le_refl _, le_refl _, .inl rfl, fun k _ inside _ => inside⟩
  | succ stop ih =>
    rw [seekBack]
    split
    · rename_i inside
      obtain ⟨lower, upper, stops, last⟩ := ih (by omega)
      refine ⟨lower, by omega, stops, ?_⟩
      intro k whole below above
      rcases eq_or_lt_of_le below with rfl | strictly
      · rw [Boundary, inside.2.2] at whole
        cases whole
      · exact last k whole (by omega) above
    · rename_i outside
      refine ⟨ordered, le_refl _, ?_, fun k _ below _ => below⟩
      rcases eq_or_lt_of_le ordered with same | before
      · exact .inl same.symm
      right
      by_cases within : stop + 1 < data.length
      · rw [Boundary]
        cases value : runeStart (data.getD (stop + 1) 0) with
        | true => rfl
        | false => exact absurd ⟨before, within, value⟩ outside
      · rw [Boundary, getD_eq_getElem?_getD, getElem?_eq_none (by omega)]
        decide

theorem slice_self (data : Bytes) (i : Nat) : slice data i i = [] := by
  rw [slice, Nat.sub_self, take_zero]

theorem slice_append (data : Bytes) {i j k : Nat} (first : i ≤ j) (second : j ≤ k) :
    slice data i j ++ slice data j k = slice data i k := by
  have whole : k - i = (j - i) + (k - j) := by omega
  have moved : data.drop j = (data.drop i).drop (j - i) := by
    rw [drop_drop]
    congr 1
    omega
  rw [slice, slice, slice, whole, take_add, moved]

theorem head_slice {data : Bytes} {i j : Nat} (ordered : i < j) (inside : i < data.length) :
    (slice data i j).head? = some (data.getD i 0) := by
  have positive : j - i ≠ 0 := by omega
  rw [slice, head?_take, if_neg positive, head?_drop, getD_eq_getElem?_getD,
    getElem?_eq_getElem inside, Option.getD_some]

theorem cutFragment_of_boundary {data : Bytes} {limit offset maximum : Nat} (whole : Boundary data offset)
    (inside : offset ≤ maximum) :
    ∃ next, cutFragment data limit offset maximum = (slice data offset next, next) ∧ offset ≤ next ∧
      next ≤ min (offset + limit) maximum ∧ Boundary data next ∧
      ∀ k, Boundary data k → k ≤ min (offset + limit) maximum → k ≤ next := by
  obtain ⟨lower, upper, stops, last⟩ := seekBack_spec data offset (min (offset + limit) maximum) (by omega)
  refine ⟨_, ?_, lower, upper, ?_, ?_⟩
  · simp only [cutFragment, seekForward_of_boundary whole]
  · rcases stops with same | between
    · rw [same]
      exact whole
    · exact between
  · intro k between below
    by_cases before : offset ≤ k
    · exact last k between below before
    · omega

theorem cutFragment_empty (data : Bytes) (limit i : Nat) : cutFragment data limit i i = ([], i) := by
  have here : min (i + limit) i = i := by omega
  have start : seekForward data i i i = i := by
    cases i with
    | zero => rfl
    | succ i => rw [seekForward, if_neg (by omega)]
  obtain ⟨lower, upper, -⟩ := seekBack_spec data i i (le_refl i)
  have stop : seekBack data i i = i := le_antisymm upper lower
  simp only [cutFragment, here, start, stop, slice_self]

theorem head_cutFragment {data : Bytes} {limit offset maximum : Nat} (bounded : maximum ≤ data.length) {b : UInt8}
    (first : b ∈ (cutFragment data limit offset maximum).1.head?) : runeStart b = true := by
  have enough : min (offset + limit) maximum ≤ min (offset + limit) maximum + offset := by omega
  obtain ⟨later, stops, -⟩ :=
    seekForward_spec data (min (offset + limit) maximum) (min (offset + limit) maximum) offset enough
  simp only [cutFragment] at first
  generalize seekForward data (min (offset + limit) maximum) (min (offset + limit) maximum) offset = start
    at first later stops
  by_cases ordered : start < seekBack data start (min (offset + limit) maximum)
  · have below : start < min (offset + limit) maximum := by
      by_contra beyond
      have reached : min (offset + limit) maximum ≤ start := by omega
      have := seekBack_le data start (min (offset + limit) maximum)
      omega
    rw [head_slice ordered (by omega), Option.mem_some_iff] at first
    rw [← first]
    exact stops below
  · rw [slice, show seekBack data start (min (offset + limit) maximum) - start = 0 from by omega,
      take_zero] at first
    cases first

theorem cutFragment_stuck {data : Bytes} {limit offset i : Nat} (whole : Boundary data i)
    (before : offset ≤ i) (far : ∀ j, i < j → j ≤ i + limit → ¬ Boundary data j) :
    (cutFragment data limit offset data.length).2 ≤ i := by
  have enough : min (offset + limit) data.length ≤ min (offset + limit) data.length + offset := by omega
  obtain ⟨later, stops, least⟩ :=
    seekForward_spec data (min (offset + limit) data.length) (min (offset + limit) data.length) offset enough
  have start := least i whole before
  simp only [cutFragment]
  generalize seekForward data (min (offset + limit) data.length) (min (offset + limit) data.length) offset =
    first at later stops start
  by_cases ordered : first ≤ min (offset + limit) data.length
  · obtain ⟨lower, upper, ends, -⟩ := seekBack_spec data first _ ordered
    rcases ends with same | between
    · omega
    · by_contra beyond
      exact far _ (by omega) (by omega) between
  · have := seekBack_le data first (min (offset + limit) data.length)
    omega

theorem newRef_matches (draw : Draw) : opaqueRefPattern.matchString (newRef draw) = true := by
  rw [opaqueRefPattern, newRef, Pattern.matchString_singleton, Pattern.matchBlocks_literal_append]
  refine ⟨hexDigits 32 draw, by simp, ?_⟩
  exact Pattern.matchBlocks_exactly.mpr ⟨length_hexDigits 32 _, fun _ => isLowerHex_of_mem_hexDigits⟩

/-- A store that answers readings of `ref` at the times of `clock` with this content. -/
def Serves (s : Store) (ref : String) (clock : Nat → Time) (content : Bytes) (stages : List Stage) : Prop :=
  ∀ n, ∃ info, s.load ref (clock n) = .ok (info, content) ∧ info.stages = stages

theorem serves_put {redact safeSummary : Bytes → Bytes} {s s' : Store} {input : Input} {draw : Draw}
    {now : Time} {info : Metadata} (stored : s.put redact safeSummary input draw now = .ok (info, s'))
    {clock : Nat → Time} (alive : ∀ n, unixSeconds (clock n) < unixSeconds info.expiresAt) :
    Serves s' info.resultRef clock (redact input.content) info.stages := by
  simp only [Store.put, ok_iff] at stored
  obtain ⟨-, -, -, -, stages, -, room, -, results, inserted, rfl, rfl⟩ := stored
  intro n
  have found := Table.find_insert_self inserted
  simp only [Store.load, newRef_matches, Bool.not_true, reject_false, ok_bind, found, Option.filter,
    decide_eq_true (alive n), if_true, required, pure, Except.pure]
  exact ⟨_, rfl, rfl⟩

section

variable {s : Store} {ref : String} {clock : Nat → Time} {content : Bytes} {stages : List Stage}

theorem read_eq (serves : Serves s ref clock content stages) (limit : Int) (n : Nat) {offset : Nat}
    (inside : offset ≤ content.length) :
    ∃ info, s.read ref offset limit (clock n) =
      .ok ⟨info, (cutFragment content (fragmentLimit limit) offset content.length).1,
        (cutFragment content (fragmentLimit limit) offset content.length).2⟩ := by
  obtain ⟨info, loaded, -⟩ := serves n
  have within : ((offset : Int) < ((0 : Nat) : Int) || ((content.length : Nat) : Int) < (offset : Int)) =
      false := by
    simp only [bool_iff]
    omega
  simp only [Store.read, loaded, ok_bind, boundedFragment, within, reject_false, Int.toNat_natCast, pure,
    Except.pure]
  exact ⟨info, rfl⟩

theorem follow_step (serves : Serves s ref clock content stages) (limit : Int) {goal offset : Nat}
    (ahead : offset < goal) (inside : offset ≤ content.length) (calls : Nat) :
    s.follow ref limit clock goal (calls + 1) offset =
      (s.follow ref limit clock goal calls
        (cutFragment content (fragmentLimit limit) offset content.length).2).map
          ((cutFragment content (fragmentLimit limit) offset content.length).1 ++ ·) := by
  obtain ⟨info, answer⟩ := read_eq serves limit calls inside
  rw [Store.follow, if_neg (by omega)]
  simp only [answer]

theorem follow_done {limit : Int} {goal offset : Nat} (reached : goal ≤ offset) (calls : Nat) :
    s.follow ref limit clock goal calls offset = some [] := by
  cases calls <;> rw [Store.follow, if_pos reached]

/-- Every place between characters has another one within the limit. -/
def Stepped (limit : Nat) (data : Bytes) : Prop :=
  ∀ i, i < data.length → Boundary data i → ∃ j, i < j ∧ j ≤ i + limit ∧ j ≤ data.length ∧ Boundary data j

variable (serves : Serves s ref clock content stages)

include serves

theorem follow_reaches {limit : Int}
    (stepped : Stepped (fragmentLimit limit) content) {goal : Nat} (target : goal ≤ content.length)
    {offset : Nat} (inside : offset ≤ content.length) (whole : Boundary content offset) :
    ∃ calls last, goal ≤ last ∧ offset ≤ last ∧
      s.follow ref limit clock goal calls offset = some (slice content offset last) := by
  -- each reading makes progress, so the bytes left are a measure
  induction left : content.length - offset using Nat.strong_induction_on generalizing offset with
  | _ size ih =>
    by_cases reached : goal ≤ offset
    · exact ⟨0, offset, reached, le_refl _, by rw [follow_done reached, slice_self]⟩
    obtain ⟨j, further, near, within, between⟩ := stepped offset (by omega) whole
    obtain ⟨next, cut, -, upper, stops, last⟩ :=
      @cutFragment_of_boundary content (fragmentLimit limit) offset content.length whole inside
    have progress : j ≤ next := last j between (by omega)
    have bounded : next ≤ content.length := by omega
    obtain ⟨calls, stop, enough, onward, rest⟩ := ih (content.length - next) (by omega) bounded stops rfl
    refine ⟨calls + 1, stop, enough, by omega, ?_⟩
    rw [follow_step serves limit (by omega) inside, cut, rest, Option.map_some,
      slice_append content (by omega) onward]

theorem head_follow {limit : Int} {goal : Nat} {calls offset : Nat}
    (inside : offset ≤ content.length) {got : Bytes}
    (run : s.follow ref limit clock goal calls offset = some got) {b : UInt8} (first : b ∈ got.head?) :
    runeStart b = true := by
  induction calls generalizing offset got with
  | zero =>
    rw [Store.follow] at run
    split at run
    · cases run
      cases first
    · cases run
  | succ calls ih =>
    by_cases reached : goal ≤ offset
    · rw [follow_done reached] at run
      cases run
      cases first
    rw [follow_step serves limit (by omega) inside, Option.map_eq_some_iff] at run
    obtain ⟨rest, onward, rfl⟩ := run
    have bounded : (cutFragment content (fragmentLimit limit) offset content.length).2 ≤
        content.length := by
      refine le_trans (seekBack_le ..) ?_
      omega
    cases fragment : (cutFragment content (fragmentLimit limit) offset content.length).1 with
    | nil =>
      rw [fragment, nil_append] at first
      exact ih bounded onward first
    | cons head tail =>
      rw [fragment, cons_append, head?_cons] at first
      have here : b ∈ (cutFragment content (fragmentLimit limit) offset content.length).1.head? := by
        rw [fragment, head?_cons]
        exact first
      exact head_cutFragment (le_refl _) here

theorem follow_stuck {limit : Int} {goal i : Nat}
    (whole : Boundary content i) (before : i < goal) (target : goal ≤ content.length)
    (far : ∀ j, i < j → j ≤ i + fragmentLimit limit → ¬ Boundary content j) (calls : Nat) {offset : Nat}
    (start : offset ≤ i) : s.follow ref limit clock goal calls offset = none := by
  induction calls generalizing offset with
  | zero => rw [Store.follow, if_neg (by omega)]
  | succ calls ih =>
    rw [follow_step serves limit (by omega) (by omega), ih (cutFragment_stuck whole start far), Option.map_none]

theorem readStage_eq (limit : Int) (n : Nat) {index : Nat}
    {stage : Stage} (listed : stages[index]? = some stage) (ordered : stage.start ≤ stage.stop) :
    ∃ info, s.readStage ref index limit (clock n) =
      .ok ⟨info, stage, (cutFragment content (fragmentLimit limit) stage.start stage.stop).1,
        (cutFragment content (fragmentLimit limit) stage.start stage.stop).2⟩ := by
  obtain ⟨info, loaded, same⟩ := serves n
  have inside := (List.getElem?_eq_some_iff.mp listed).1
  have indexed : ((index : Int) < 0 || ((stages.length : Nat) : Int) ≤ (index : Int)) = false := by
    simp only [bool_iff]
    omega
  have within : ((stage.start : Int) < ((stage.start : Nat) : Int) ||
      ((stage.stop : Nat) : Int) < (stage.start : Int)) = false := by
    simp only [bool_iff]
    omega
  simp only [Store.readStage, loaded, ok_bind, same, indexed, reject_false, Int.toNat_natCast, listed,
    required, boundedFragment, within, pure, Except.pure]
  exact ⟨info, rfl⟩

theorem followStage_reaches {limit : Int}
    (stepped : Stepped (fragmentLimit limit) content) {index : Nat} {stage : Stage}
    (listed : stages[index]? = some stage) (ordered : stage.start ≤ stage.stop)
    (bounded : stage.stop ≤ content.length) (whole : stage.start < stage.stop → Boundary content stage.start) :
    ∃ calls, s.followStage ref index limit clock calls = some (slice content stage.start stage.stop) := by
  rcases Nat.eq_or_lt_of_le ordered with same | proper
  · obtain ⟨info, answer⟩ := readStage_eq serves limit 0 listed ordered
    refine ⟨0, ?_⟩
    have reached := cutFragment_empty content (fragmentLimit limit) stage.stop
    simp only [Store.followStage, answer, same, reached, follow_done (Nat.le_refl _), Option.map_some,
      Nat.sub_self, take_zero, slice_self]
  have between := whole proper
  obtain ⟨next, cut, lower, upper, stops, -⟩ :=
    @cutFragment_of_boundary content (fragmentLimit limit) stage.start stage.stop between ordered
  obtain ⟨calls, last, enough, onward, rest⟩ :=
    @follow_reaches s ref clock content stages serves limit stepped stage.stop bounded next (by omega) stops
  obtain ⟨info, answer⟩ := readStage_eq serves limit calls listed ordered
  refine ⟨calls, ?_⟩
  rw [cut] at answer
  simp only [Store.followStage, answer, rest, Option.map_some, Option.some.injEq]
  rw [slice_append content lower onward, slice, take_take, Nat.min_eq_left (by omega), slice]

/-- The whole content and every stage can be read back with this limit. -/
def ReadsBack (s : Store) (ref : String) (clock : Nat → Time) (limit : Int) (content : Bytes)
    (stages : List Stage) : Prop :=
  (∃ calls, s.follow ref limit clock content.length calls 0 = some content) ∧
    ∀ index stage, stages[index]? = some stage →
      ∃ calls, s.followStage ref index limit clock calls = some (slice content stage.start stage.stop)

/-- No character is longer than a fragment may be, and neither the content nor a stage starts inside one. -/
structure Paged (limit : Int) (content : Bytes) (stages : List Stage) : Prop where
  opens : Boundary content 0
  stepped : Stepped (fragmentLimit limit) content
  staged : ∀ stage ∈ stages, stage.start < stage.stop → Boundary content stage.start

theorem paged_of_readsBack {limit : Int}
    (ordered : ∀ stage ∈ stages, stage.start ≤ stage.stop ∧ stage.stop ≤ content.length)
    (reads : ReadsBack s ref clock limit content stages) : Paged limit content stages := by
  obtain ⟨⟨calls, whole⟩, staged⟩ := reads
  refine ⟨?_, ?_, ?_⟩
  · cases content with
    | nil => exact boundary_length []
    | cons b rest => exact head_follow serves (zero_le _) whole (Option.mem_some_iff.mpr rfl)
  · intro i inside between
    by_contra none
    have far : ∀ j, i < j → j ≤ i + fragmentLimit limit → ¬ Boundary content j := by
      intro j after near stops
      by_cases within : j ≤ content.length
      · exact none ⟨j, after, near, within, stops⟩
      · exact none ⟨content.length, inside, by omega, le_refl _, boundary_length content⟩
    rw [follow_stuck serves between inside (le_refl _) far calls (zero_le i)] at whole
    cases whole
  · intro stage member proper
    obtain ⟨index, listed⟩ := mem_iff_getElem?.mp member
    obtain ⟨below, bounded⟩ := ordered stage member
    obtain ⟨calls, got⟩ := staged index stage listed
    obtain ⟨info, answer⟩ := readStage_eq serves limit calls listed below
    simp only [Store.followStage, answer, Option.map_eq_some_iff] at got
    obtain ⟨rest, onward, got⟩ := got
    -- the first byte of the stage is the first byte of one of the fragments
    have first : content.getD stage.start 0 ∈
        ((cutFragment content (fragmentLimit limit) stage.start stage.stop).1 ++ rest).head? := by
      have shown := head_slice proper (lt_of_lt_of_le proper bounded)
      rw [← got, head?_take, if_neg (by omega)] at shown
      exact shown
    cases fragment : (cutFragment content (fragmentLimit limit) stage.start stage.stop).1 with
    | nil =>
      rw [fragment, nil_append] at first
      have inside : (cutFragment content (fragmentLimit limit) stage.start stage.stop).2 ≤
          content.length := by
        refine le_trans (seekBack_le ..) ?_
        omega
      exact head_follow serves inside onward first
    | cons head tail =>
      rw [fragment, cons_append, head?_cons] at first
      have here : content.getD stage.start 0 ∈
          (cutFragment content (fragmentLimit limit) stage.start stage.stop).1.head? := by
        rw [fragment, head?_cons]
        exact first
      exact head_cutFragment bounded here

theorem readsBack_of_paged {limit : Int}
    (ordered : ∀ stage ∈ stages, stage.start ≤ stage.stop ∧ stage.stop ≤ content.length)
    (paged : Paged limit content stages) : ReadsBack s ref clock limit content stages := by
  constructor
  · obtain ⟨calls, last, enough, -, got⟩ :=
      follow_reaches serves paged.stepped (le_refl _) (zero_le _) paged.opens
    refine ⟨calls, ?_⟩
    rw [got, slice, drop_zero, take_of_length_le (by omega)]
  · intro index stage listed
    have member := mem_of_getElem? listed
    obtain ⟨below, bounded⟩ := ordered stage member
    exact followStage_reaches serves paged.stepped listed below bounded (paged.staged stage member)

end

theorem stages_ordered {input : List StageInput} {contentBytes : Nat} {fallback : Status} {stages : List Stage}
    (normalized : normalizeStages input contentBytes fallback = .ok stages) :
    ∀ stage ∈ stages, stage.start ≤ stage.stop ∧ stage.stop ≤ contentBytes := by
  intro stage member
  simp only [normalizeStages, ok_iff] at normalized
  obtain ⟨-, -, normalized⟩ := normalized
  obtain ⟨candidate, -, made⟩ := mem_of_mapM normalized stage member
  simp only [normalizeStage, ok_iff, bool_iff] at made
  obtain ⟨-, ⟨⟨⟨low, high⟩, order⟩, bound⟩, rfl⟩ := made
  dsimp only
  split <;> omega

/-- A stored result can be read back, as a whole and stage by stage, exactly when its content and
its stages are cut where characters start and the limit has room for every character. -/
theorem put_reads_back_iff {redact safeSummary : Bytes → Bytes} {s s' : Store} {input : Input} {draw : Draw}
    {now : Time} {info : Metadata} (stored : s.put redact safeSummary input draw now = .ok (info, s'))
    {clock : Nat → Time} (alive : ∀ n, unixSeconds (clock n) < unixSeconds info.expiresAt) (limit : Int) :
    ReadsBack s' info.resultRef clock limit (redact input.content) info.stages ↔
      Paged limit (redact input.content) info.stages := by
  have serves := serves_put stored alive
  have ordered : ∀ stage ∈ info.stages, stage.start ≤ stage.stop ∧
      stage.stop ≤ (redact input.content).length := by
    simp only [Store.put, ok_iff] at stored
    obtain ⟨-, -, -, -, stages, normalized, -, -, -, -, rfl, -⟩ := stored
    exact stages_ordered normalized
  exact ⟨paged_of_readsBack serves ordered, readsBack_of_paged serves ordered⟩

def accented : Input := ⟨.success, [], 0, [0xc3, 0xa9], []⟩

def vacant : Store := ⟨1024, by decide, .empty⟩

def holding : Store :=
  ⟨1024, by decide, ⟨[⟨newRef 0, .success, [], [⟨"result", .success, 0, 2⟩], 0, 2, [0xc3, 0xa9], 2, 0, 86400⟩],
    nodup_singleton _, nodup_singleton _⟩⟩

theorem put_accented : vacant.put id id accented 0 0 =
    .ok (⟨.success, [], [⟨"result", .success, 0, 2⟩], 0, 2, newRef 0, 86400 * second⟩, holding) := by
  rfl

theorem put_reads_back_two_bytes :
    ReadsBack holding (newRef 0) (fun _ => 0) 2 [0xc3, 0xa9] [⟨"result", .success, 0, 2⟩] := by
  refine (put_reads_back_iff put_accented (fun _ => by decide) 2).mpr ⟨by decide, ?_, by decide⟩
  intro i inside between
  exact ⟨2, inside, by
    have : fragmentLimit 2 = 2 := rfl
    omega, le_refl 2, boundary_length _⟩

/-- With a limit of one byte the reader of a two-byte character never gets past its start. -/
theorem one_byte_never_ends :
    vacant.put id id accented 0 0 =
      .ok (⟨.success, [], [⟨"result", .success, 0, 2⟩], 0, 2, newRef 0, 86400 * second⟩, holding) ∧
    ¬ ReadsBack holding (newRef 0) (fun _ => 0) 1 [0xc3, 0xa9] [⟨"result", .success, 0, 2⟩] := by
  refine ⟨put_accented, ?_⟩
  rintro ⟨⟨calls, got⟩, -⟩
  have serves : Serves holding (newRef 0) (fun _ => 0) [0xc3, 0xa9] [⟨"result", .success, 0, 2⟩] :=
    serves_put put_accented (fun _ => by decide)
  have stuck : holding.follow (newRef 0) 1 (fun _ => 0) 2 calls 0 = none := by
    refine follow_stuck serves (i := 0) (by decide) (by decide) (le_refl 2) ?_ calls (le_refl 0)
    intro j after near
    obtain rfl : j = 1 := by
      have : fragmentLimit 1 = 1 := rfl
      omega
    decide
  rw [show ([0xc3, 0xa9] : Bytes).length = 2 from rfl, stuck] at got
  cases got

end Aeontra.Resultstore
