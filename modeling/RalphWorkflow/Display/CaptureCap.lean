import RalphWorkflow.Display.RawOverflow

/-! `RawOverflowLog` of `ralph/display/raw_overflow.py` in one process, call by call: the running total of a path and its file, when writers come
and go and the file is deleted. One writer of a path lives at a time, and the file system does not fail. -/
namespace RalphWorkflow.CaptureCap
open RawOverflow (Line)
open Lib.Run Option

/-- At the end of the file it was opened on, which may have been deleted since. -/
structure Handle where
  linked : Bool := true
  buffer : List UInt8 := []
  deriving DecidableEq

structure RawOverflowLog where
  firstWrite : Bool
  needsLiveClaim : Bool
  disabled : Bool := false
  /-- Bytes on the file, as this writer has them. -/
  fileBytes : Nat
  handle : Option Handle := none
  deriving DecidableEq

/-- The file at the path, `_PATH_STATE` and `_OUR_PATHS` there, and the writer. -/
structure Capture where
  file : Option (List UInt8)
  pathState : Option Nat := none
  ours : Bool := false
  writer : Option RawOverflowLog := none
  /-- What the last append returned. -/
  answer : Option Bool := none
  deriving DecidableEq

inductive Call
  /-- `get_or_create_raw_overflow_log` -/
  | acquire
  /-- `append_bytes`, and `append` of a text in UTF-8 -/
  | append (raw : List UInt8)
  /-- Some of the buffered bytes go to the file, with a flush all of them. -/
  | spill (count : Nat)
  | close
  | disable
  | drop
  /-- Somebody deletes the file. -/
  | delete
  deriving DecidableEq

def Capture.write (s : Capture) (handle : Handle) (bytes : List UInt8) : Capture :=
  { s with file := if handle.linked then some (s.file.getD [] ++ bytes) else s.file }

def Capture.put (s : Capture) (writer : RawOverflowLog) : Capture := { s with writer := some writer }

/-- `_resume_path_state` and `RawOverflowLog.__init__` -/
def Capture.newLog (s : Capture) : RawOverflowLog where
  firstWrite := s.pathState.isNone
  needsLiveClaim := s.pathState.isNone
  fileBytes := s.pathState.getD 0

/-- `_close_locked` -/
def Capture.closed (s : Capture) (writer : RawOverflowLog) : Capture :=
  match writer.handle with
  | none => s.put writer
  | some handle => (s.write handle handle.buffer).put { writer with handle := none }

/-- `_is_live_foreign_capture`, where it is asked. -/
def Capture.claim (s : Capture) (writer : RawOverflowLog) : Capture :=
  if !writer.needsLiveClaim then s.put writer
  else if s.ours then s.put { writer with firstWrite := true, needsLiveClaim := false }
  else
    { s with ours := true, file := some (s.file.getD []) }.put
      { writer with firstWrite := s.file.isNone, needsLiveClaim := false }

/-- `wb` truncates, and a file that went away takes the total with it. -/
def Capture.open (s : Capture) (writer : RawOverflowLog) : Capture :=
  if writer.firstWrite then { s with file := some [] }.put { writer with firstWrite := false, handle := some {} }
  else
    { s with file := some (s.file.getD []) }.put
      { writer with fileBytes := if s.file.isNone then 0 else writer.fileBytes, handle := some {} }

/-- The write of `_write`, and `_record_path_bytes`. -/
def Capture.store (s : Capture) (writer : RawOverflowLog) (handle : Handle) (bytes : List UInt8) : Capture :=
  { s with pathState := some (writer.fileBytes + bytes.length), answer := some true }.put
    { writer with
      fileBytes := writer.fileBytes + bytes.length
      handle := some { handle with buffer := handle.buffer ++ bytes } }

/-- `_write` with an open handle. -/
def Capture.storeOpen (s : Capture) (bytes : List UInt8) : Capture :=
  match s.writer with
  | some writer => writer.handle.elim s fun handle => s.store writer handle bytes
  | none => s

def Capture.reopen (s : Capture) : Capture :=
  match s.writer with
  | some writer => s.open writer
  | none => s

def Capture.append (s : Capture) (maxBytes : Nat) (writer : RawOverflowLog) (bytes : List UInt8) : Capture :=
  if writer.disabled then { s with answer := some false }
  else if maxBytes < writer.fileBytes + bytes.length then
    { s.closed { writer with disabled := true } with answer := some false }
  else
    match writer.handle with
    | some handle => s.store writer handle bytes
    | none => (s.claim writer).reopen.storeOpen bytes

def step (maxBytes : Nat) (s : Capture) : Call → Option Capture
  | .acquire => some (if s.writer.isSome then s else s.put s.newLog)
  | .append raw => s.writer.map fun writer => s.append maxBytes writer (Line.ofRaw raw).bytes
  | .spill count =>
    s.writer.bind fun writer => writer.handle.map fun handle =>
      (s.write handle (handle.buffer.take count)).put
        { writer with handle := some { handle with buffer := handle.buffer.drop count } }
  | .close => s.writer.map s.closed
  | .disable => s.writer.map fun writer => s.closed { writer with disabled := true }
  | .drop => s.writer.map fun writer => { s.closed writer with writer := none }
  | .delete =>
    some { s with
      file := none
      writer := s.writer.map fun writer =>
        { writer with handle := writer.handle.map fun handle => { handle with linked := false } } }

/-! ## What a capture holds -/

def Capture.contents (s : Capture) : List UInt8 :=
  s.file.getD [] ++
    match s.writer.bind RawOverflowLog.handle with
    | some handle => if handle.linked then handle.buffer else []
    | none => []

/-- The file is within the cap, and an append has added its line exactly when it said so. -/
def Kept (maxBytes : Nat) (s : Capture) (call : Call) (next : Capture) : Prop :=
  (next.file.getD []).length ≤ maxBytes ∧
    match call with
    | .append raw => next.contents = s.contents ++ if next.answer = some true then (Line.ofRaw raw).bytes else []
    | _ => True

def Capture.takes (s : Capture) (maxBytes : Nat) (raw : List UInt8) : Bool :=
  s.writer.any fun writer => !writer.disabled && decide (writer.fileBytes + (Line.ofRaw raw).bytes.length ≤ maxBytes)

/-- An append that is not refused finds only bytes that the process counted, and no handle on a deleted file. -/
def Counted (maxBytes : Nat) (s : Capture) (call : Call) (_ : Capture) : Prop :=
  match call with
  | .append raw => s.takes maxBytes raw = true → (s.pathState = none → s.file.getD [] = []) ∧
      (s.writer.bind RawOverflowLog.handle).all Handle.linked = true
  | _ => True

instance (maxBytes : Nat) (s : Capture) (call : Call) (next : Capture) : Decidable (Counted maxBytes s call next) :=
  match call with
  | .append raw => inferInstanceAs (Decidable (s.takes maxBytes raw = true → _ ∧ _))
  | .acquire | .spill _ | .close | .disable | .drop | .delete => .isTrue trivial

/-- The total of the path covers what the capture holds, and the writer has that total. -/
structure Sound (maxBytes : Nat) (s : Capture) : Prop where
  held : s.contents.length ≤ maxBytes
  ours : s.ours = s.pathState.isSome
  total : ∀ n, s.pathState = some n → s.contents.length ≤ n
  writer : ∀ writer, s.writer = some writer → writer.fileBytes = s.pathState.getD 0 ∧
    writer.needsLiveClaim = s.pathState.isNone ∧ writer.firstWrite = s.pathState.isNone ∧
    (s.pathState = none → writer.handle = none)
  deleted : ∀ writer, s.writer = some writer → ∀ handle, writer.handle = some handle → handle.linked = s.file.isSome

variable {maxBytes : Nat} {s next : Capture} {writer : RawOverflowLog} {handle : Handle}

theorem file_le_contents (s : Capture) : (s.file.getD []).length ≤ s.contents.length := by
  unfold Capture.contents
  rw [List.length_append]
  exact Nat.le_add_right _ _

/-! ## One call -/

theorem closed_contents (hwriter : s.writer = some writer) (disabled : Bool) : (s.closed { writer with disabled }).contents = s.contents := by
  unfold Capture.closed Capture.contents Capture.put Capture.write
  cases hhandle : writer.handle with
  | none => simp [hwriter, hhandle]
  | some handle => cases hlinked : handle.linked <;> simp [hwriter, hhandle, hlinked]

theorem closed_writer (s : Capture) (writer : RawOverflowLog) : (s.closed writer).writer = some { writer with handle := none } := by
  obtain ⟨_, _, _, _, handle⟩ := writer
  cases handle <;> rfl

theorem closed_paths (s : Capture) (writer : RawOverflowLog) : (s.closed writer).pathState = s.pathState ∧ (s.closed writer).ours = s.ours := by
  unfold Capture.closed
  cases writer.handle with
  | none => exact ⟨rfl, rfl⟩
  | some handle => exact ⟨rfl, rfl⟩

theorem Sound.closed (h : Sound maxBytes s) (hwriter : s.writer = some writer) (disabled : Bool) :
    Sound maxBytes (s.closed { writer with disabled }) := by
  obtain ⟨hstate, hours⟩ := closed_paths s { writer with disabled }
  obtain ⟨hbytes, hclaim, hfirst, -⟩ := h.writer writer hwriter
  refine ⟨?_, ?_, fun n hn => ?_, fun other hother => ?_, fun other hother handle hhandle => ?_⟩
  · rw [closed_contents hwriter]
    exact h.held
  · rw [hours, hstate]
    exact h.ours
  · rw [closed_contents hwriter]
    exact h.total n (hstate ▸ hn)
  · rw [closed_writer] at hother
    cases hother
    rw [hstate]
    exact ⟨hbytes, hclaim, hfirst, fun _ => rfl⟩
  · rw [closed_writer] at hother
    cases hother
    cases hhandle

theorem Sound.dropped (h : Sound maxBytes s) (hwriter : s.writer = some writer) : Sound maxBytes { s.closed writer with writer := none } := by
  have hclosed := h.closed hwriter writer.disabled
  have hsame : Capture.contents { s.closed writer with writer := none } = (s.closed writer).contents := by
    unfold Capture.contents
    rw [closed_writer]
    rfl
  refine ⟨hsame ▸ hclosed.held, hclosed.ours, fun n hn => hsame ▸ hclosed.total n hn, fun _ hnone => ?_, fun _ hnone => ?_⟩
  · cases hnone
  · cases hnone

theorem Sound.acquired (h : Sound maxBytes s) (hnone : s.writer = none) : Sound maxBytes (s.put s.newLog) := by
  have hsame : (s.put s.newLog).contents = s.contents := by
    unfold Capture.contents Capture.put Capture.newLog
    rw [hnone]
    rfl
  refine ⟨hsame ▸ h.held, h.ours, fun n hn => hsame ▸ h.total n hn, fun writer hwriter => ?_, fun writer hwriter => ?_⟩
  · cases hwriter
    exact ⟨rfl, rfl, rfl, fun _ => rfl⟩
  · cases hwriter
    exact fun _ hhandle => by cases hhandle

def Capture.spilled (s : Capture) (writer : RawOverflowLog) (handle : Handle) (count : Nat) : Capture :=
  (s.write handle (handle.buffer.take count)).put
    { writer with handle := some { handle with buffer := handle.buffer.drop count } }

theorem spilled_contents (hwriter : s.writer = some writer) (hhandle : writer.handle = some handle) (count : Nat) :
    (s.spilled writer handle count).contents = s.contents := by
  unfold Capture.spilled Capture.contents Capture.put Capture.write
  cases hlinked : handle.linked <;> simp [hwriter, hhandle, hlinked]

theorem Sound.spilled (h : Sound maxBytes s) (hwriter : s.writer = some writer) (hhandle : writer.handle = some handle)
    (count : Nat) : Sound maxBytes (s.spilled writer handle count) := by
  have hsame := spilled_contents hwriter hhandle count
  have hlinked := h.deleted writer hwriter handle hhandle
  obtain ⟨hbytes, hclaim, hfirst, hclosed⟩ := h.writer writer hwriter
  refine ⟨hsame ▸ h.held, h.ours, fun n hn => hsame ▸ h.total n hn, fun other hother => ?_, fun other hother => ?_⟩
  · cases hother
    exact ⟨hbytes, hclaim, hfirst, fun hnone => absurd (hclosed hnone) (by simp [hhandle])⟩
  · cases hother
    rintro _ ⟨⟩
    unfold Capture.spilled Capture.put Capture.write
    cases hcase : handle.linked with
    | true => simp
    | false => simpa [hcase] using hlinked

theorem Sound.deletion (h : Sound maxBytes s) (hstep : step maxBytes s .delete = some next) : Sound maxBytes next := by
  cases hstep
  have hnothing : Capture.contents { s with
      file := none
      writer := s.writer.map fun writer =>
        { writer with handle := writer.handle.map fun handle => { handle with linked := false } } } = [] := by
    unfold Capture.contents
    cases hwriter : s.writer with
    | none => rfl
    | some writer => cases hhandle : writer.handle <;> simp [hhandle]
  refine ⟨?_, h.ours, fun n _ => ?_, fun other hother => ?_, fun other hother handle hhandle => ?_⟩
  · rw [hnothing]
    exact Nat.zero_le _
  · rw [hnothing]
    exact Nat.zero_le _
  · obtain ⟨writer, hwriter, rfl⟩ := map_eq_some_iff.mp hother
    obtain ⟨hbytes, hclaim, hfirst, hclosed⟩ := h.writer writer hwriter
    exact ⟨hbytes, hclaim, hfirst, fun hnone => by simp [hclosed hnone]⟩
  · obtain ⟨writer, hwriter, rfl⟩ := map_eq_some_iff.mp hother
    obtain ⟨older, -, rfl⟩ := map_eq_some_iff.mp hhandle
    rfl

/-! ## An append -/

theorem Sound.store {bytes : List UInt8} (hlinked : handle.linked = true) (hfile : s.file.isSome = true) (hours : s.ours = true)
    (hclaim : writer.needsLiveClaim = false) (hfirst : writer.firstWrite = false)
    (htotal : (s.file.getD []).length + handle.buffer.length ≤ writer.fileBytes)
    (hroom : writer.fileBytes + bytes.length ≤ maxBytes) :
    Sound maxBytes (s.store writer handle bytes) ∧
      (s.store writer handle bytes).contents = s.file.getD [] ++ handle.buffer ++ bytes := by
  have hcontents : (s.store writer handle bytes).contents = s.file.getD [] ++ handle.buffer ++ bytes := by
    unfold Capture.store Capture.contents Capture.put
    simp [hlinked]
  have hlength : (s.store writer handle bytes).contents.length ≤ writer.fileBytes + bytes.length := by
    rw [hcontents, List.length_append, List.length_append]
    omega
  refine ⟨⟨hlength.trans hroom, hours, fun n hn => ?_, fun other hother => ?_, fun other hother => ?_⟩, hcontents⟩
  · cases hn
    exact hlength
  · cases hother
    exact ⟨rfl, hclaim, hfirst, fun hnone => by cases hnone⟩
  · cases hother
    rintro _ ⟨⟩
    exact hlinked.trans hfile.symm

theorem Sound.opened {bytes : List UInt8} (hwriter : s.writer = some writer) (hours : s.ours = true)
    (hclaim : writer.needsLiveClaim = false) (hempty : writer.firstWrite = true → s.file.getD [] = [])
    (htotal : (s.file.getD []).length ≤ writer.fileBytes) (hroom : writer.fileBytes + bytes.length ≤ maxBytes) :
    Sound maxBytes (s.reopen.storeOpen bytes) ∧ (s.reopen.storeOpen bytes).contents = s.file.getD [] ++ bytes ∧
      (s.reopen.storeOpen bytes).answer = some true := by
  unfold Capture.reopen
  rw [hwriter]
  dsimp only
  unfold Capture.open
  by_cases hfirst : writer.firstWrite = true
  · rw [if_pos hfirst, hempty hfirst]
    obtain ⟨hsound, hcontents⟩ := @Sound.store maxBytes
      ({ s with file := some [] }.put { writer with firstWrite := false, handle := some {} })
      { writer with firstWrite := false, handle := some {} } {} bytes rfl rfl hours hclaim rfl (Nat.zero_le _) hroom
    exact ⟨hsound, hcontents, rfl⟩
  · rw [if_neg hfirst]
    have hcovers : (s.file.getD []).length + 0 ≤ if s.file.isNone then 0 else writer.fileBytes := by
      cases hfile : s.file with
      | none => exact le_rfl
      | some bytes => simpa [hfile] using htotal
    have hfits : (if s.file.isNone then 0 else writer.fileBytes) + bytes.length ≤ maxBytes := by
      refine (Nat.add_le_add_right ?_ _).trans hroom
      split_ifs
      · exact Nat.zero_le _
      · exact le_rfl
    obtain ⟨hsound, hcontents⟩ := @Sound.store maxBytes
      ({ s with file := some (s.file.getD []) }.put
        { writer with fileBytes := if s.file.isNone then 0 else writer.fileBytes, handle := some {} })
      { writer with fileBytes := if s.file.isNone then 0 else writer.fileBytes, handle := some {} } {} bytes rfl rfl hours
      hclaim (Bool.eq_false_iff.mpr hfirst) hcovers hfits
    exact ⟨hsound, hcontents.trans (by simp [Capture.put]), rfl⟩

theorem claim_spec (h : Sound maxBytes s) (hwriter : s.writer = some writer) :
    ∃ claimed, (s.claim writer).writer = some claimed ∧ (s.claim writer).ours = true ∧ claimed.needsLiveClaim = false ∧
      claimed.fileBytes = writer.fileBytes ∧ (s.claim writer).file.getD [] = s.file.getD [] ∧
      (claimed.firstWrite = true → s.file.getD [] = []) := by
  obtain ⟨-, hclaim, hfirst, -⟩ := h.writer writer hwriter
  unfold Capture.claim
  cases hstate : s.pathState with
  | none =>
    rw [hstate] at hclaim
    have hours : s.ours = false := by rw [h.ours, hstate]; rfl
    rw [hclaim, hours]
    refine ⟨_, rfl, rfl, rfl, rfl, ?_, fun habsent => ?_⟩
    · cases s.file <;> simp [Capture.put]
    · rw [isNone_iff_eq_none.mp habsent]
      rfl
  | some n =>
    rw [hstate] at hclaim hfirst
    have hours : s.ours = true := by rw [h.ours, hstate]; rfl
    rw [hclaim]
    exact ⟨writer, rfl, hours, hclaim, rfl, rfl, fun htrue => by simp [hfirst] at htrue⟩

theorem contents_of_closed (hwriter : s.writer = some writer) (hhandle : writer.handle = none) : s.contents = s.file.getD [] := by
  unfold Capture.contents
  simp [hwriter, hhandle]

theorem Sound.append {raw : List UInt8} (h : Sound maxBytes s) (hwriter : s.writer = some writer)
    (hcounted : Counted maxBytes s (.append raw) next) :
    Sound maxBytes (s.append maxBytes writer (Line.ofRaw raw).bytes) ∧
      (s.append maxBytes writer (Line.ofRaw raw).bytes).contents =
        s.contents ++ if (s.append maxBytes writer (Line.ofRaw raw).bytes).answer = some true then (Line.ofRaw raw).bytes else [] := by
  unfold Capture.append
  by_cases hdisabled : writer.disabled = true
  · rw [if_pos hdisabled]
    exact ⟨⟨h.held, h.ours, h.total, h.writer, h.deleted⟩, (List.append_nil _).symm⟩
  rw [if_neg hdisabled]
  by_cases hroom : maxBytes < writer.fileBytes + (Line.ofRaw raw).bytes.length
  · rw [if_pos hroom]
    have hclosed := h.closed hwriter true
    refine ⟨⟨hclosed.held, hclosed.ours, hclosed.total, hclosed.writer, hclosed.deleted⟩, ?_⟩
    exact (closed_contents hwriter true).trans (List.append_nil _).symm
  rw [if_neg hroom]
  have htakes : s.takes maxBytes raw = true := by
    unfold Capture.takes
    simpa [hwriter, hdisabled] using hroom
  obtain ⟨hempty, hlinked⟩ := hcounted htakes
  obtain ⟨hbytes, hclaim, hfirst, hnone⟩ := h.writer writer hwriter
  cases hhandle : writer.handle with
  | some handle =>
    have hopen : handle.linked = true := by simpa [hwriter, hhandle] using hlinked
    have hfile : s.file.isSome = true := (h.deleted writer hwriter handle hhandle).symm.trans hopen
    have hheld : s.contents = s.file.getD [] ++ handle.buffer := by
      unfold Capture.contents
      simp [hwriter, hhandle, hopen]
    cases hstate : s.pathState with
    | none => exact absurd (hnone hstate) (by simp [hhandle])
    | some n =>
      rw [hstate] at hbytes hclaim hfirst
      have htotal := h.total n hstate
      rw [hheld, List.length_append] at htotal
      obtain ⟨hsound, hcontents⟩ := Sound.store hopen hfile (by rw [h.ours, hstate]; rfl) hclaim hfirst
        (hbytes ▸ htotal) (not_lt.mp hroom)
      refine ⟨hsound, hcontents.trans ?_⟩
      rw [hheld]
      rfl
  | none =>
    obtain ⟨claimed, hclaimed, hours, hdone, hsame, hfile, hnew⟩ := claim_spec h hwriter
    have htotal : (s.file.getD []).length ≤ writer.fileBytes := by
      cases hstate : s.pathState with
      | none =>
        rw [hempty hstate]
        exact Nat.zero_le _
      | some n =>
        rw [hbytes, hstate]
        exact (file_le_contents s).trans (h.total n hstate)
    rw [← hfile, ← hsame] at htotal
    rw [← hsame] at hroom
    obtain ⟨hsound, hcontents, hanswer⟩ := Sound.opened hclaimed hours hdone (fun hwb => hfile.trans (hnew hwb)) htotal
      (not_lt.mp hroom)
    refine ⟨hsound, hcontents.trans ?_⟩
    rw [if_pos hanswer, hfile, contents_of_closed hwriter hhandle]

/-! ## A run of calls -/

theorem sound_step (call : Call) (h : Sound maxBytes s) (hcounted : Counted maxBytes s call next)
    (hstep : step maxBytes s call = some next) : Sound maxBytes next ∧ Kept maxBytes s call next := by
  have within (hsound : Sound maxBytes next) : (next.file.getD []).length ≤ maxBytes := (file_le_contents next).trans hsound.held
  cases call with
  | acquire =>
    have hsound : Sound maxBytes next := by
      cases hstep
      cases hwriter : s.writer with
      | none => exact h.acquired hwriter
      | some writer => exact h
    exact ⟨hsound, within hsound, trivial⟩
  | append raw =>
    obtain ⟨writer, hwriter, rfl⟩ := map_eq_some_iff.mp hstep
    obtain ⟨hsound, hcontents⟩ := h.append hwriter hcounted
    exact ⟨hsound, within hsound, hcontents⟩
  | spill count =>
    obtain ⟨writer, hwriter, hspill⟩ := bind_eq_some_iff.mp hstep
    obtain ⟨handle, hhandle, rfl⟩ := map_eq_some_iff.mp hspill
    have hsound := h.spilled hwriter hhandle count
    exact ⟨hsound, within hsound, trivial⟩
  | close =>
    obtain ⟨writer, hwriter, rfl⟩ := map_eq_some_iff.mp hstep
    have hsound := h.closed hwriter writer.disabled
    exact ⟨hsound, within hsound, trivial⟩
  | disable =>
    obtain ⟨writer, hwriter, rfl⟩ := map_eq_some_iff.mp hstep
    have hsound := h.closed hwriter true
    exact ⟨hsound, within hsound, trivial⟩
  | drop =>
    obtain ⟨writer, hwriter, rfl⟩ := map_eq_some_iff.mp hstep
    have hsound := h.dropped hwriter
    exact ⟨hsound, within hsound, trivial⟩
  | delete =>
    have hsound := h.deletion hstep
    exact ⟨hsound, within hsound, trivial⟩

/-- When appends find what was counted, the file stays within the cap, and an append adds its line or says that it does not. -/
theorem capped_of_counted (maxBytes : Nat) (file : Option (List UInt8)) (hfile : (file.getD []).length ≤ maxBytes)
    (calls : List Call) (hcounted : Throughout (step maxBytes) (Counted maxBytes) { file } calls) :
    Throughout (step maxBytes) (Kept maxBytes) { file } calls := by
  have hstart : Sound maxBytes { file } := by
    refine ⟨?_, rfl, fun n hn => ?_, fun writer hwriter => ?_, fun writer hwriter => ?_⟩
    · simpa [Capture.contents] using hfile
    · cases hn
    · cases hwriter
    · cases hwriter
  refine Throughout.of_step (fun s call next hs hc hstep => ?_) hstart hcounted
  exact sound_step call hs hc hstep

/-- A writer is dropped while the file is gone, and one that comes after it appends. -/
def deletedBetween : List Call := [.acquire, .append [1], .close, .delete, .drop, .acquire, .append [2]]

theorem deletedBetween_capped : Throughout (step 4) (Kept 4) { file := none } deletedBetween :=
  capped_of_counted 4 none (by decide) deletedBetween (by decide +kernel)

/-- A file that an earlier run left at its cap is appended to as an empty one. -/
theorem older_file_overrun : ¬ ∀ (maxBytes : Nat) (file : Option (List UInt8)), (file.getD []).length ≤ maxBytes → ∀ calls,
      Throughout (step maxBytes) (Kept maxBytes) { file } calls := by
  intro h
  have hrun := h 2 (some [1, 10]) (by decide) [.acquire, .append [2], .close]
  have hsize := hrun.2.2.1.1
  revert hsize
  decide

end RalphWorkflow.CaptureCap
