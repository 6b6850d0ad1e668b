import Mathlib.Data.List.Perm.Basic
import RalphWorkflow.Display.RawOverflow

/-! The file keeps what is flushed as long as it is only truncated while it holds none of it, and a handle opened `"wb"` writes only where
the file ends. Both are up to the order of the steps. -/
namespace RalphWorkflow.RawOverflow
open Lib List Option

/-- After what older runs left, the file is the lines that were flushed, each of them once. -/
def Kept (disk : Disk) : Prop :=
  ∃ order : List Line, order.Perm disk.flushed ∧ disk.bytes = disk.older ++ contents order

inductive Hazard
  | truncation
  | writing (handle : Handle)

def writerHazard (writer : RawOverflowLog) : Action → Option Hazard
  | .flush | .close | .disable => writer.handle.map .writing
  | .open false => if writer.firstWrite then some .truncation else none
  | _ => none

def hazard (process : Process) : Action → Option Hazard
  | .acquire _ => none
  | .finalize orphan => process.orphans[orphan]?.map .writing
  | action => process.writer.bind fun writer => writerHazard writer action

def Handle.AtEnd (handle : Handle) (disk : Disk) : Prop :=
  handle.buffer = [] ∨ ∀ offset, handle.mode = .wb offset → offset = disk.bytes.length

def Hazard.Safe (disk : Disk) : Hazard → Prop
  | .truncation => disk.flushed = []
  | .writing handle => handle.AtEnd disk

/-- Only a file without flushed lines is truncated, and a handle opened `"wb"` writes at the file's end. -/
def Safe (s : State) (label : Label) : Prop :=
  ∀ danger ∈ hazard (s.processes label.process) label.action, danger.Safe s.disk

/-! ## The bytes of a file -/

@[simp] theorem contents_append (first second : List Line) : contents (first ++ second) = contents first ++ contents second := by
  simp [contents]

theorem contents_length_perm {first second : List Line} (h : first.Perm second) : (contents first).length = (contents second).length :=
  (h.map Line.bytes).flatten.length_eq

theorem contents_length_pos {lines : List Line} (h : lines ≠ []) : 0 < (contents lines).length := by
  obtain ⟨line, rest, rfl⟩ := exists_cons_of_ne_nil h
  simp only [contents, map_cons, flatten_cons, Line.bytes, length_append, length_cons]
  omega

theorem writeAt_end (file bytes : List UInt8) : writeAt file file.length bytes = file ++ bytes := by
  simp [writeAt]

theorem length_writeAt (file : List UInt8) (offset : Nat) (bytes : List UInt8) (h : bytes ≠ []) :
    (writeAt file offset bytes).length = max file.length (offset + bytes.length) := by
  have hbytes : 0 < bytes.length := length_pos_iff.mpr h
  simp only [writeAt, length_append, length_take, length_replicate, length_drop]
  omega

variable {disk : Disk}

theorem Kept.length (h : Kept disk) : disk.bytes.length = disk.older.length + (contents disk.flushed).length := by
  obtain ⟨order, hperm, hbytes⟩ := h
  rw [hbytes, length_append, contents_length_perm hperm]

/-! ## What a step does to the file -/

theorem kept_create (h : Kept disk) : Kept disk.create := by
  obtain ⟨order, hperm, hbytes⟩ := h
  exact ⟨order, hperm, hbytes⟩

theorem kept_truncate : Kept disk.truncate ↔ disk.flushed = [] := by
  constructor
  · intro hkept
    by_contra hflushed
    have hpos := contents_length_pos hflushed
    have hlength := hkept.length
    simp only [Disk.truncate, Disk.bytes, getD_some, length_nil] at hlength
    omega
  · intro hflushed
    refine ⟨[], ?_, rfl⟩
    simp [Disk.truncate, hflushed]

theorem kept_at_end (h : Kept disk) (buffer : List Line) :
    Kept { disk with file := some (disk.bytes ++ contents buffer), flushed := disk.flushed ++ buffer } := by
  obtain ⟨order, hperm, hbytes⟩ := h
  refine ⟨order ++ buffer, hperm.append_right buffer, ?_⟩
  rw [contents_append, ← append_assoc, ← hbytes]
  rfl

theorem kept_write (h : Kept disk) (handle : Handle) : Kept (disk.write handle) ↔ handle.AtEnd disk := by
  by_cases hbuffer : handle.buffer = []
  · have hsame : disk.write handle = disk := if_pos hbuffer
    rw [hsame]
    exact ⟨fun _ => .inl hbuffer, fun _ => h⟩
  · unfold Disk.write Handle.AtEnd
    rw [if_neg hbuffer]
    cases hmode : handle.mode with
    | ab => exact ⟨fun _ => .inr nofun, fun _ => kept_at_end h handle.buffer⟩
    | wb offset =>
      have hpos : 0 < (contents handle.buffer).length := contents_length_pos hbuffer
      constructor
      · intro hkept
        refine .inr fun _ hoffset => ?_
        cases hoffset
        -- a write that does not start at the end adds fewer bytes to the file, or more, than it flushes
        have hbefore := h.length
        have hafter := hkept.length
        simp only [Disk.bytes, getD_some, contents_append, length_append] at hbefore hafter ⊢
        rw [length_writeAt _ _ _ (length_pos_iff.mp hpos)] at hafter
        omega
      · rintro (hempty | hend)
        · exact absurd hempty hbuffer
        · have hwritten : writeAt disk.bytes offset (contents handle.buffer) = disk.bytes ++ contents handle.buffer := by
            rw [hend offset rfl, writeAt_end]
          simp only [hwritten]
          exact kept_at_end h handle.buffer

def After (disk : Disk) (after : Disk) : Option Hazard → Prop
  | some .truncation => after = disk.truncate
  | some (.writing handle) => after = disk.write handle
  | none => after = disk ∨ after = disk.create

theorem closeLocked_after (disk : Disk) (writer : RawOverflowLog) : After disk (closeLocked disk writer).1 (writer.handle.map .writing) := by
  unfold closeLocked
  cases writer.handle with
  | none => exact .inl rfl
  | some handle => rfl

theorem claimPath_after (disk : Disk) (process : Process) (writer : RawOverflowLog) (fails : Bool) :
    After disk (claimPath disk process writer fails).disk none := by
  simp only [claimPath, isLiveForeignCapture]
  split_ifs
  · exact .inl rfl
  · exact .inl rfl
  · exact .inl rfl
  · exact .inr rfl

theorem openHandle_after (disk : Disk) (process : Process) (writer : RawOverflowLog) (fails : Bool) :
    After disk (openHandle disk process writer fails).disk (writerHazard writer (.open fails)) := by
  cases fails with
  | true => exact .inl rfl
  | false =>
    simp only [openHandle, writerHazard, Bool.false_eq_true, if_false]
    by_cases hfirst : writer.firstWrite = true
    · simp only [hfirst, if_true]
      rfl
    · simp only [hfirst]
      exact .inr rfl

theorem beginWrite_after {process : Process} {writer : RawOverflowLog} {line : Line}
    (hquiet : (beginWrite disk process writer line).reported = false) :
    After disk (beginWrite disk process writer line).disk none := by
  simp only [beginWrite] at hquiet ⊢
  split_ifs at hquiet ⊢
  · exact .inl rfl
  · exact .inl rfl

theorem actWriter_after {process : Process} {writer : RawOverflowLog} {action : Action} {turn : Turn}
    (h : actWriter disk process writer action = some turn) (hquiet : turn.reported = false) :
    After disk turn.disk (writerHazard writer action) := by
  unfold actWriter at h
  split at h
  · obtain ⟨-, h⟩ := ite_none_right_eq_some.mp h
    cases h
    exact claimPath_after _ _ _ _
  · obtain ⟨-, h⟩ := ite_none_left_eq_some.mp h
    cases h
    exact openHandle_after _ _ _ _
  · cases h
    exact .inl rfl
  · cases h
    exact beginWrite_after hquiet
  · cases h
    rw [writerHazard, ‹writer.handle = none›]
    exact .inl rfl
  · cases h
    rw [writerHazard, ‹writer.handle = some _›]
    rfl
  · cases h
    exact closeLocked_after _ _
  · cases h
    exact closeLocked_after _ _
  · cases h
    exact .inl rfl
  · cases h

theorem act_after {process : Process} {action : Action} {turn : Turn} (h : act disk process action = some turn)
    (hquiet : turn.reported = false) : After disk turn.disk (hazard process action) := by
  cases action with
  | acquire maxBytes =>
    simp only [act] at h
    cases hwriter : process.writer <;> rw [hwriter] at h <;> cases h <;> exact .inl rfl
  | finalize orphan =>
    obtain ⟨handle, horphan, hturn⟩ := map_eq_some_iff.mp h
    rw [hazard, horphan, ← hturn]
    rfl
  | _ =>
    obtain ⟨writer, hwriter, hturn⟩ := bind_eq_some_iff.mp h
    rw [hazard, hwriter, bind_some]
    · exact actWriter_after hturn hquiet
    all_goals simp

theorem After.kept_iff {after : Disk} {danger : Option Hazard} (h : After disk after danger) (hkept : Kept disk) :
    Kept after ↔ ∀ hazard ∈ danger, hazard.Safe disk := by
  cases danger with
  | none =>
    refine ⟨fun _ => nofun, fun _ => ?_⟩
    rcases h with rfl | rfl
    · exact hkept
    · exact kept_create hkept
  | some danger =>
    simp only [mem_def, Option.some.injEq, forall_eq']
    cases danger with
    | truncation =>
      rw [show after = disk.truncate from h]
      exact kept_truncate
    | writing handle =>
      rw [show after = disk.write handle from h]
      exact kept_write hkept handle

/-! ## Runs -/

theorem step_kept_iff {s next : State} {label : Label} (h : step s label = some next) (hquiet : next.reported = false)
    (hkept : Kept s.disk) : Kept next.disk ↔ Safe s label := by
  obtain ⟨turn, hturn, rfl⟩ := map_eq_some_iff.mp h
  have hreported : turn.reported = false := (Bool.or_eq_false_iff.mp hquiet).2
  exact (act_after hturn hreported).kept_iff hkept

theorem step_quiet {s next : State} {label : Label} (h : step s label = some next) (hquiet : next.reported = false) : s.reported = false := by
  obtain ⟨turn, -, rfl⟩ := map_eq_some_iff.mp h
  exact (Bool.or_eq_false_iff.mp hquiet).1

theorem start_kept (file : Option (List UInt8)) : Kept (start file).disk :=
  ⟨[], .refl _, (append_nil _).symm⟩

/-- Until a writer reports its cap, the flushed lines are all kept at every step just when every step is safe. -/
theorem kept_iff_safe (file : Option (List UInt8)) (labels : List Label) :
    Run.Throughout step (fun _ _ next => next.reported = false → Kept next.disk) (start file) labels ↔
      Run.Throughout step (fun s label next => next.reported = false → Safe s label) (start file) labels := by
  have hiff : ∀ s label next, (s.reported = false → Kept s.disk) → step s label = some next →
      ((next.reported = false → Kept next.disk) ↔ (next.reported = false → Safe s label)) := by
    intro s label next hkept hnext
    refine forall_congr' fun hquiet => ?_
    exact step_kept_iff hnext hquiet (hkept (step_quiet hnext hquiet))
  refine Run.Throughout.iff_of_step hiff ?_ fun _ => start_kept file
  intro s label next hkept hsafe hnext
  exact (hiff s label next hkept hnext).mpr hsafe

/-! ## The winner of the claim writes over the others -/

/-- The second process appends and flushes between the first's claim and its write. -/
def overtaken : List Label :=
  [⟨0, .acquire 100⟩, ⟨0, .write [97]⟩, ⟨0, .claim false⟩, ⟨0, .open false⟩,
    ⟨1, .acquire 100⟩, ⟨1, .write [98]⟩, ⟨1, .claim false⟩, ⟨1, .open false⟩, ⟨1, .append⟩, ⟨1, .flush⟩,
    ⟨0, .append⟩, ⟨0, .flush⟩]

theorem overtaken_run : (Run.run step (start none) overtaken).map (fun s => (s.disk, s.reported)) =
      some (⟨some [97, 10], [], [⟨[98]⟩, ⟨[97]⟩]⟩, false) := by
  decide +kernel

theorem winner_overwrites : ¬ ∀ (file : Option (List UInt8)) (labels : List Label) (s : State),
        Run.run step (start file) labels = some s → s.reported = false → Kept s.disk := by
  intro hclaim
  obtain ⟨s, hrun, hs⟩ := map_eq_some_iff.mp overtaken_run
  obtain ⟨hdisk, hquiet⟩ := Prod.mk.inj hs
  have hlength := (hclaim none overtaken s hrun hquiet).length
  rw [hdisk] at hlength
  exact absurd hlength (by decide)

end RalphWorkflow.RawOverflow
