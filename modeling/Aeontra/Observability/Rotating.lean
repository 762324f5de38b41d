import Mathlib.Data.List.Infix
import Mathlib.Algebra.BigOperators.Group.List.Basic

/-!
The rotating log: `rotatingFile.Write` and `rotatingFile.rotate`, where every call of a
rotation may fail.
-/

namespace Aeontra.Observability

open Function List

abbrev Record := List UInt8

/-- The files by their suffix, the active one at zero, each as the records appended to it. -/
abbrev Disk := Nat → Option (List Record)

def volume (records : List Record) : Nat := records.flatten.length

/-- What the files below `n` hold, from the highest suffix down. -/
def reading : (n : Nat) → Disk → List Record
  | 0, _ => []
  | n + 1, disk => (disk n).getD [] ++ reading n disk

/-- `os.Rename` to the next suffix; a file that does not exist is passed over. -/
def Disk.move (disk : Disk) (i : Nat) : Disk :=
  if (disk i).isSome then update (update disk (i + 1) (disk i)) i none else disk

/-- The call that a rotation makes next; `create` and `secure` are those of `openPrivateAppend`. -/
inductive Point where
  | close | removeOldest | remove (index : Nat) | rename (index : Nat) | removeActive | chmod | create | secure
  deriving DecidableEq

/-- `written` are the records whose `Write` has succeeded. -/
structure Log where
  disk : Disk
  opened : Bool
  size : Nat
  rotating : Option (Record × Point)
  written : List Record

/-- What `OpenRotatingWriter` checks of its bounds. -/
structure Bounds where
  maxBytes : Nat
  segments : Nat
  valid : 0 < maxBytes ∧ 1 ≤ segments ∧ segments ≤ 64

def openRotatingWriter : Log := ⟨update (fun _ => none) 0 (some []), true, 0, none, []⟩

def loop (index : Nat) : Point :=
  if index = 0 then .rename 0 else .remove index

def Point.next (b : Bounds) : Point → Option Point
  | .close => some (if b.segments = 1 then .removeActive else .removeOldest)
  | .removeOldest => some (loop (b.segments - 2))
  | .remove index => some (.rename index)
  | .rename (index + 1) => some (loop index)
  | .rename 0 => some .chmod
  | .removeActive | .chmod => some .create
  | .create => some .secure
  | .secure => none

def Log.perform (b : Bounds) (w : Log) : Point → Log
  | .close => { w with opened := false }
  | .removeOldest => { w with disk := update w.disk (b.segments - 1) none }
  | .remove index => { w with disk := update w.disk (index + 1) none }
  | .rename index => { w with disk := w.disk.move index }
  | .removeActive => { w with disk := update w.disk 0 none }
  | .chmod => w
  | .create => { w with disk := update w.disk 0 (some ((w.disk 0).getD [])) }
  | .secure => { w with opened := true, size := volume ((w.disk 0).getD []) }

/-- A closed file takes no data. -/
def Log.append (w : Log) (data : Record) : Log :=
  if w.opened then
    { w with
      disk := update w.disk 0 ((w.disk 0).map (· ++ [data])), size := w.size + data.length
      rotating := none, written := w.written ++ [data] }
  else { w with rotating := none }

inductive Input where
  | write (data : Record)
  | call (fails : Bool)

/-- Closing a file that is closed fails, and after a failed `Close` the file is closed. -/
def Log.exec (b : Bounds) (w : Log) : Input → Log
  | .write data =>
    match w.rotating with
    | some _ => w
    | none =>
      if 0 < w.size ∧ b.maxBytes < w.size + data.length then { w with rotating := some (data, .close) }
      else w.append data
  | .call fails =>
    match w.rotating with
    | none => w
    | some (data, point) =>
      if fails ∨ point = .close ∧ w.opened = false then { w with opened := false, rotating := none }
      else
        match point.next b with
        | some next => { w.perform b point with rotating := some (data, next) }
        | none => (w.perform b point).append data

variable {b : Bounds}

def Log.run (b : Bounds) (w : Log) (inputs : List Input) : Log := inputs.foldl (Log.exec b) w

/-- No more than `segments` files, none too large, which hold the last of the written records. -/
structure Sound (b : Bounds) (disk : Disk) (written : List Record) : Prop where
  bounded : ∀ i records, disk i = some records → i < b.segments ∧ volume records ≤ b.maxBytes
  recent : reading b.segments disk <:+ written

def Fits (b : Bounds) (disk : Disk) : Point → Prop
  | .close => True
  | .removeOldest => 1 < b.segments
  | .remove index | .rename index => index + 1 < b.segments ∧ disk (index + 1) = none
  | .removeActive => b.segments = 1
  | .chmod | .create => disk 0 = none
  | .secure => disk 0 = some []

structure Kept (b : Bounds) (w : Log) : Prop where
  sound : Sound b w.disk w.written
  active : w.opened = true → ∃ records, w.disk 0 = some records ∧ w.size = volume records
  waiting : ∀ data point, w.rotating = some (data, point) →
    data.length ≤ b.maxBytes ∧ Fits b w.disk point ∧ (point ≠ .close → w.opened = false)

section

variable {disk : Disk} {written records : List Record} {n i : Nat} {v : Option (List Record)}

theorem found_update {j : Nat} (found : update disk i v j = some records) :
    j = i ∧ v = some records ∨ disk j = some records := by
  by_cases same : j = i
  · exact .inl ⟨same, by rwa [same, update_self] at found⟩
  · exact .inr (by rwa [update_of_ne same] at found)

theorem reading_none : reading n (fun _ => none) = [] := by
  induction n with
  | zero => rfl
  | succ n ih => exact ih

theorem reading_update (above : n ≤ i) : reading n (update disk i v) = reading n disk := by
  induction n with
  | zero => rfl
  | succ n ih => rw [reading, reading, update_of_ne (by omega), ih (by omega)]

theorem reading_move (inside : i + 1 < n) (free : disk (i + 1) = none) :
    reading n (disk.move i) = reading n disk := by
  unfold Disk.move
  split
  · induction n with
    | zero => omega
    | succ n ih =>
      by_cases last : n = i + 1
      · subst last
        simp only [reading, update_self, update_of_ne (Nat.succ_ne_self i), reading_update le_rfl,
          reading_update (Nat.le_succ i), free]
        rfl
      · rw [reading, reading, update_of_ne (by omega), update_of_ne (by omega), ih (by omega)]
  · rfl

theorem reading_active (found : (disk 0).getD [] = records) (more : List Record) :
    reading (n + 1) (update disk 0 (some (records ++ more))) = reading (n + 1) disk ++ more := by
  induction n with
  | zero => simp [reading, found]
  | succ n ih =>
    rw [reading, ih, update_of_ne (by omega), ← append_assoc]
    rfl

theorem move_self : disk.move i i = none := by
  unfold Disk.move
  by_cases found : (disk i).isSome
  · rw [if_pos found, update_self]
  · rw [if_neg found]
    simpa using found

variable (sound : Sound b disk written)
include sound

theorem Sound.remove (last : i + 1 = b.segments ∨ disk i = none) : Sound b (update disk i none) written := by
  rcases last with last | absent
  · refine ⟨fun j records found => ?_, IsSuffix.trans ?_ sound.recent⟩
    · exact sound.bounded j records (by simpa using found_update found)
    · rw [← last, reading, reading, update_self, reading_update le_rfl]
      exact suffix_append _ _
  · rw [← absent, update_eq_self]
    exact sound

theorem Sound.move (inside : i + 1 < b.segments) (free : disk (i + 1) = none) :
    Sound b (disk.move i) written := by
  refine ⟨fun j records found => ?_, reading_move inside free ▸ sound.recent⟩
  unfold Disk.move at found
  split at found
  · obtain ⟨rfl, moved⟩ | same := found_update (by simpa using found_update found)
    · exact ⟨inside, (sound.bounded i records moved).2⟩
    · exact sound.bounded j records same
  · exact sound.bounded j records found

theorem Sound.append (more : List Record) (found : (disk 0).getD [] = records)
    (fits : volume (records ++ more) ≤ b.maxBytes) :
    Sound b (update disk 0 (some (records ++ more))) (written ++ more) := by
  refine ⟨fun j records' found' => ?_, ?_⟩
  · obtain ⟨rfl, same⟩ | other := found_update found'
    · exact ⟨b.valid.2.1, Option.some.inj same ▸ fits⟩
    · exact sound.bounded j records' other
  · obtain ⟨n, count⟩ := Nat.exists_eq_succ_of_ne_zero (Nat.ne_of_gt b.valid.2.1)
    rw [count, reading_active found, ← Nat.succ_eq_add_one, ← count]
    obtain ⟨before, whole⟩ := sound.recent
    exact ⟨before, by rw [← append_assoc, whole]⟩

end

variable {data : Record} {point : Point} {w : Log}

theorem fits_loop {disk : Disk} {index : Nat} (inside : index + 1 < b.segments) (free : disk (index + 1) = none) :
    Fits b disk (loop index) := by
  unfold loop
  split
  · subst index
    exact ⟨inside, free⟩
  · exact ⟨inside, free⟩

theorem append_kept (sound : Sound b w.disk w.written)
    (active : w.opened = true → ∃ records, w.disk 0 = some records ∧ w.size = volume records)
    (fits : w.opened = true → w.size + data.length ≤ b.maxBytes) : Kept b (w.append data) := by
  unfold Log.append
  split
  · rename_i opened
    obtain ⟨records, found, size⟩ := active opened
    have volumes : volume (records ++ [data]) = w.size + data.length := by simp [volume, size]
    have grown := sound.append [data] (by rw [found]; rfl) (volumes ▸ fits opened)
    simp only [found, Option.map_some]
    exact ⟨grown, fun _ => ⟨records ++ [data], by simp, volumes.symm⟩, by simp⟩
  · rename_i closed
    exact ⟨sound, fun opened => absurd opened closed, by simp⟩

theorem kept_rotating {disk : Disk} (closed : w.opened = false) (short : data.length ≤ b.maxBytes)
    (sound : Sound b disk w.written) (fits : Fits b disk point) :
    Kept b { w with disk := disk, rotating := some (data, point) } := by
  refine ⟨sound, by simp [closed], fun _ _ same => ?_⟩
  cases same
  exact ⟨short, fits, fun _ => closed⟩

theorem call_kept (kept : Kept b w) (fails : Bool) : Kept b (w.exec b (.call fails)) := by
  simp only [Log.exec]
  split
  · exact kept
  rename_i data point rotating
  obtain ⟨short, fits, closed⟩ := kept.waiting data point rotating
  split
  · exact ⟨kept.sound, by simp, by simp⟩
  have positive := b.valid.2.1
  cases point with
  | close =>
    refine kept_rotating (w := { w with opened := false }) rfl short kept.sound ?_
    split
    · assumption
    · exact show 1 < b.segments by omega
  | removeOldest =>
    have many : 1 < b.segments := fits
    refine kept_rotating (closed (by simp)) short (kept.sound.remove (.inl (by omega))) (fits_loop (by omega) ?_)
    rw [show b.segments - 2 + 1 = b.segments - 1 by omega]
    exact update_self ..
  | remove index =>
    exact kept_rotating (closed (by simp)) short (kept.sound.remove (.inr fits.2)) ⟨fits.1, update_self ..⟩
  | rename index =>
    have moved := kept.sound.move fits.1 fits.2
    cases index with
    | zero => exact kept_rotating (closed (by simp)) short moved move_self
    | succ index =>
      exact kept_rotating (closed (by simp)) short moved (fits_loop (Nat.lt_of_succ_lt fits.1) move_self)
  | removeActive =>
    have free : update w.disk 0 none 0 = none := update_self ..
    exact kept_rotating (closed (by simp)) short (kept.sound.remove (.inl fits.symm)) free
  | chmod => exact kept_rotating (closed (by simp)) short kept.sound fits
  | create =>
    have empty : (w.disk 0).getD [] = [] := by rw [show w.disk 0 = none from fits]; rfl
    have made := kept.sound.append [] empty (Nat.zero_le _)
    simp only [append_nil] at made
    simp only [Log.perform, Point.next, empty]
    exact kept_rotating (closed (by simp)) short made (update_self ..)
  | secure =>
    have empty : w.disk 0 = some [] := fits
    refine append_kept kept.sound (fun _ => ⟨[], empty, by rw [Log.perform, empty]; rfl⟩) fun _ => ?_
    simpa [Log.perform, empty, volume] using short

theorem exec_kept (kept : Kept b w) {input : Input}
    (short : ∀ data, input = .write data → data.length ≤ b.maxBytes) : Kept b (w.exec b input) := by
  cases input with
  | call fails => exact call_kept kept fails
  | write data =>
    have fits := short data rfl
    simp only [Log.exec]
    split
    · exact kept
    split
    · refine ⟨kept.sound, kept.active, fun _ _ same => ?_⟩
      cases same
      exact ⟨fits, trivial, fun other => absurd rfl other⟩
    · exact append_kept kept.sound kept.active fun _ => by omega

/-- The rotation, if no more of its calls fail, ends with the record written. -/
def Ends (b : Bounds) (w : Log) (data : Record) : Prop :=
  ∃ n, (w.run b (replicate n (.call false))).written = w.written ++ [data]

theorem ends_next {p : Point} (rotating : w.rotating = some (data, point))
    (goes : point = .close → w.opened = true) (next : point.next b = some p)
    (ends : ∀ w' : Log, w'.rotating = some (data, p) → Ends b w' data) : Ends b w data := by
  have same : (w.perform b point).written = w.written := by cases point <;> rfl
  obtain ⟨n, done⟩ := ends { w.perform b point with rotating := some (data, p) } rfl
  refine ⟨n + 1, ?_⟩
  rw [← same, ← done, replicate_succ, Log.run, foldl_cons, Log.exec, rotating]
  simp only [Bool.false_eq_true, false_or, next]
  rw [if_neg (fun both => by simp [goes both.1] at both)]
  rfl

theorem ends_create (w : Log) (rotating : w.rotating = some (data, .create)) : Ends b w data := by
  refine ends_next rotating (by simp) rfl fun w rotating => ⟨1, ?_⟩
  simp [Log.run, Log.exec, rotating, Point.next, Log.append, Log.perform]

theorem ends_loop (index : Nat) (w : Log) (rotating : w.rotating = some (data, loop index)) :
    Ends b w data := by
  induction index generalizing w with
  | zero =>
    refine ends_next rotating (by simp [loop]) rfl fun w rotating => ?_
    exact ends_next rotating (by simp) rfl ends_create
  | succ index ih =>
    refine ends_next rotating (by simp [loop]) rfl fun w rotating => ?_
    exact ends_next rotating (by simp) rfl ih

theorem ends_close (opened : w.opened = true) (rotating : w.rotating = some (data, .close)) :
    Ends b w data := by
  by_cases one : b.segments = 1
  · refine ends_next rotating (fun _ => opened) (by rw [Point.next, if_pos one]) fun w rotating => ?_
    exact ends_next rotating (by simp) rfl ends_create
  · refine ends_next rotating (fun _ => opened) (by rw [Point.next, if_neg one]) fun w rotating => ?_
    exact ends_next rotating (by simp) rfl (ends_loop _)

/-- A writer whose file was closed by a failed rotation writes nothing again. -/
theorem run_closed {inputs : List Input} (closed : w.opened = false)
    (idle : ∀ data point, w.rotating = some (data, point) → point = .close) :
    (w.run b inputs).written = w.written := by
  induction inputs generalizing w with
  | nil => rfl
  | cons input inputs ih =>
    rw [Log.run, foldl_cons]
    cases input with
    | write data =>
      simp only [Log.exec]
      split
      · exact ih closed idle
      split
      · exact ih closed (by simp)
      · rw [Log.append, if_neg (by simp [closed])]
        exact ih closed (by simp)
    | call fails =>
      simp only [Log.exec]
      split
      · exact ih closed idle
      rename_i data point rotating
      rw [if_pos (.inr ⟨idle data point rotating, closed⟩)]
      exact ih rfl (by simp)

/-- The file is closed inside a rotation only. -/
def Ready (w : Log) : Prop :=
  w.opened = true ∨ ∃ data point, w.rotating = some (data, point) ∧ point ≠ .close

theorem append_ready (opened : w.opened = true) : Ready (w.append data) := by
  rw [Log.append, if_pos opened]
  exact .inl opened

theorem exec_ready {input : Input} (faultless : input ≠ .call true) (ready : Ready w) :
    Ready (w.exec b input) := by
  cases input with
  | write data =>
    simp only [Log.exec]
    split
    · exact ready
    rename_i idle
    have opened : w.opened = true := by simpa [Ready, idle] using ready
    split
    · exact .inl opened
    · exact append_ready opened
  | call fails =>
    simp only [Log.exec]
    split
    · exact ready
    rename_i data point rotating
    have goes : ¬(fails = true ∨ point = .close ∧ w.opened = false) := by
      rintro (rfl | ⟨rfl, closed⟩)
      · exact faultless rfl
      · simp [Ready, closed, rotating] at ready
    rw [if_neg goes]
    cases point with
    | secure => exact append_ready rfl
    | rename index => cases index <;> exact .inr ⟨data, _, rfl, by grind [loop]⟩
    | _ => exact .inr ⟨data, _, rfl, by grind [loop]⟩

/-- The bounds hold at every moment. A `Write` succeeds, when no call fails, exactly if the file is open, as
it is while no call has failed. -/
theorem segments_sound_and_writable {inputs : List Input}
    (short : ∀ data, .write data ∈ inputs → data.length ≤ b.maxBytes) :
    let w := openRotatingWriter.run b inputs
    Sound b w.disk w.written ∧ (w.rotating = none → ((∀ data,
      ∃ n, (w.run b (.write data :: replicate n (.call false))).written = w.written ++ [data]) ↔
        w.opened = true) ∧ (.call true ∉ inputs → w.opened = true)) := by
  refine ⟨?_, fun idle => ⟨⟨fun writes => ?_, fun opened data => ?_⟩, fun faultless => ?_⟩⟩
  · refine Kept.sound (foldlRecOn inputs _ ?_ fun _ kept _ member =>
      exec_kept kept fun data same => short data (same ▸ member))
    have empty : Sound b (fun _ => none) [] := ⟨by simp, reading_none ▸ suffix_rfl⟩
    exact ⟨empty.append [] rfl (Nat.zero_le _), fun _ => ⟨[], rfl, rfl⟩, by simp [openRotatingWriter]⟩
  · by_contra closed
    obtain ⟨n, grown⟩ := writes []
    rw [run_closed (by simpa using closed) (by simp [idle])] at grown
    simp at grown
  · generalize openRotatingWriter.run b inputs = w at idle opened
    by_cases full : 0 < w.size ∧ b.maxBytes < w.size + data.length
    · obtain ⟨n, done⟩ := ends_close (b := b) (w := { w with rotating := some (data, .close) }) opened rfl
      refine ⟨n, ?_⟩
      rw [Log.run, foldl_cons, Log.exec, idle]
      simp only [if_pos full]
      exact done
    · refine ⟨0, ?_⟩
      simp [Log.run, Log.exec, idle, full, Log.append, opened]
  · have ready : Ready (openRotatingWriter.run b inputs) :=
      foldlRecOn inputs _ (.inl rfl) fun _ ready _ member =>
        exec_ready (fun same => faultless (same ▸ member)) ready
    simpa [Ready, idle] using ready

theorem two_segments_writable : let b : Bounds := ⟨1, 2, by decide⟩
    let w := openRotatingWriter.run b ([.write [0], .write [1]] ++ replicate 6 (.call false))
    ∀ data, ∃ n, (w.run b (.write data :: replicate n (.call false))).written = w.written ++ [data] :=
  have writable := (segments_sound_and_writable (by simp)).2 (by rfl)
  writable.1.mpr (writable.2 (by simp))

/-- After one failed call no later `Write` succeeds, whatever the calls then do. -/
theorem failed_rotation_never_writes : let b : Bounds := ⟨1, 2, by decide⟩
    let w := openRotatingWriter.run b [.write [0], .write [1], .call false, .call true]
    ∀ later, (w.run b later).written = [[0]] :=
  fun _ => run_closed rfl (by rintro _ _ ⟨⟩)

end Aeontra.Observability
