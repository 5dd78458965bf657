import Warmth.LockDiscipline
import Warmth.Reloading
import Warmth.Runs

namespace Warmth

open Codec Function

/-- The files that snapshots are saved to, and what the stream of each has not yet passed on.
Different paths name different files, and a file keeps what it was passed: the streams end with
their process, the disk does not. -/
structure Disk where
  files : String → Option Bytes
  buffered : String → Bytes := fun _ => []

/-- A call of `save_snapshot_file`, or what becomes of the bytes it put into its stream. -/
inductive DiskStep
  | save (path : String) (s : Snapshot) (opens good : Bool)
  | flush (path : String) (n : Nat)
  | lose (path : String)

namespace Disk

/-- What `std::ifstream` finds under the path. -/
def read (d : Disk) (path : String) : FileContents :=
  match d.files path with
  | none => .error ("cannot open " ++ path)
  | some bytes => .ok bytes

/-- `std::ofstream` with `std::ios::trunc`, and the `write` behind it. -/
def rewrite (d : Disk) (path : String) (bytes : Bytes) : Disk where
  files := update d.files path (some [])
  buffered := update d.buffered path bytes

/-- What `save_snapshot_file` reports of the stream. -/
def report (path : String) (opens good : Bool) (_ : Bytes) : Option String :=
  if !opens then some ("cannot open " ++ path) else if !good then some "write failed" else none

/-- The disk after `save_snapshot_file`, whose encoder runs before the file is opened, and the
error it reports. -/
def saveSnapshotFile (d : Disk) (path : String) (s : Snapshot) (opens good : Bool) :
    Disk × Option String :=
  let after := match encodeSnapshot s with
    | .error _ => d
    | .ok bytes => if opens then d.rewrite path bytes else d
  (after, Warmth.saveSnapshotFile s (report path opens good))

/-- The stream passes on the next bytes. -/
def flush (d : Disk) (path : String) (n : Nat) : Disk where
  files := update d.files path ((d.files path).map (· ++ (d.buffered path).take n))
  buffered := update d.buffered path ((d.buffered path).drop n)

/-- The stream is gone with what it still held: the disk is full, or the process has ended. -/
def lose (d : Disk) (path : String) : Disk :=
  { d with buffered := update d.buffered path [] }

def step (d : Disk) : DiskStep → Disk
  | .save path s opens good => (d.saveSnapshotFile path s opens good).1
  | .flush path n => d.flush path n
  | .lose path => d.lose path

end Disk

/-- The snapshot that the last save to open the file at the path went on to write. -/
def savedBy (path : String) (last : Option Snapshot) : DiskStep → Option Snapshot
  | .save p s true _ => if p = path ∧ (encodeSnapshot s).isOk then some s else last
  | _ => last

def lastSaved (path : String) (steps : List DiskStep) : Option Snapshot :=
  steps.foldl (savedBy path) none

namespace Disk

/-- The file holds the whole encoding of the snapshot. -/
def Holds (d : Disk) (path : String) (s : Snapshot) : Prop :=
  ∃ bytes, encodeSnapshot s = .ok bytes ∧ d.files path = some bytes

/-- The file at the path and the stream behind it hold a first part of what was last saved. -/
def Traces (start d : Disk) (path : String) : Option Snapshot → Prop
  | none => d.files path = start.files path ∧ d.buffered path = []
  | some s => ∃ bytes written, encodeSnapshot s = .ok bytes ∧ d.files path = some written ∧
      written ++ d.buffered path <+: bytes

section
variable {start d : Disk} {path : String} {last : Option Snapshot}

/-- Only the file and the stream of the path matter. -/
theorem Traces.same {d' : Disk} (inv : Traces start d path last)
    (files : d'.files path = d.files path) (buffered : d'.buffered path = d.buffered path) :
    Traces start d' path last := by
  cases last with
  | none => exact ⟨files.trans inv.1, buffered.trans inv.2⟩
  | some s =>
    obtain ⟨bytes, written, encoded, file, part⟩ := inv
    exact ⟨bytes, written, encoded, files.trans file, by rw [buffered]; exact part⟩

theorem Traces.save (inv : Traces start d path last) (p : String) (s : Snapshot) (opens good : Bool) :
    Traces start (d.saveSnapshotFile p s opens good).1 path
      (savedBy path last (.save p s opens good)) := by
  unfold saveSnapshotFile
  cases opens with
  | false =>
    have same : (match encodeSnapshot s with
        | .error _ => d
        | .ok bytes => if false then d.rewrite p bytes else d) = d := by
      cases encodeSnapshot s <;> rfl
    exact inv.same (by rw [same]) (by rw [same])
  | true =>
    cases encoded : encodeSnapshot s with
    | error e =>
      have skipped : savedBy path last (.save p s true good) = last := by
        rw [savedBy, encoded]
        exact if_neg fun both => Bool.false_ne_true both.2
      rw [skipped]
      exact inv
    | ok bytes =>
      by_cases here : p = path
      · subst here
        have taken : savedBy p last (.save p s true good) = some s := by
          rw [savedBy, encoded]
          exact if_pos ⟨rfl, rfl⟩
        rw [taken]
        refine ⟨bytes, [], encoded, update_self .., ?_⟩
        simp only [rewrite, update_self, if_true, List.nil_append]
        exact List.prefix_rfl
      · have skipped : savedBy path last (.save p s true good) = last := by
          rw [savedBy]
          exact if_neg fun both => here both.1
        rw [skipped]
        exact inv.same (update_of_ne (Ne.symm here) ..) (update_of_ne (Ne.symm here) ..)

theorem Traces.flush (inv : Traces start d path last) (p : String) (n : Nat) :
    Traces start (d.flush p n) path last := by
  by_cases here : path = p
  · subst here
    cases last with
    | none =>
      obtain ⟨file, empty⟩ := inv
      refine ⟨?_, ?_⟩
      · simp only [Disk.flush, update_self, empty, List.take_nil, List.append_nil, Option.map_id']
        exact file
      · simp only [Disk.flush, update_self, empty, List.drop_nil]
    | some s =>
      obtain ⟨bytes, written, encoded, file, part⟩ := inv
      refine ⟨bytes, written ++ (d.buffered path).take n, encoded, ?_, ?_⟩
      · simp only [Disk.flush, update_self, file, Option.map_some]
      · simp only [Disk.flush, update_self]
        rw [List.append_assoc, List.take_append_drop]
        exact part
  · exact inv.same (update_of_ne here ..) (update_of_ne here ..)

theorem Traces.lose (inv : Traces start d path last) (p : String) :
    Traces start (d.lose p) path last := by
  by_cases here : path = p
  · subst here
    cases last with
    | none => exact ⟨inv.1, update_self ..⟩
    | some s =>
      obtain ⟨bytes, written, encoded, file, part⟩ := inv
      refine ⟨bytes, written, encoded, file, ?_⟩
      simp only [Disk.lose, update_self, List.append_nil]
      exact (List.prefix_append written _).trans part
  · exact inv.same rfl (update_of_ne here ..)

theorem Traces.step (inv : Traces start d path last) (a : DiskStep) :
    Traces start (d.step a) path (savedBy path last a) := by
  cases a with
  | save p s opens good => exact inv.save p s opens good
  | flush p n => exact inv.flush p n
  | lose p => exact inv.lose p

theorem Traces.run (inv : Traces start d path last) (steps : List DiskStep) :
    Traces start (Runs.run Disk.step d steps) path (steps.foldl (savedBy path) last) := by
  induction steps generalizing d last with
  | nil => exact inv
  | cons a rest ih => exact ih (inv.step a)

end

/-- Of what was saved the decoder accepts nothing but the whole. -/
theorem decodeSnapshot_part {s t : Snapshot} {bytes written : Bytes} (encoded : encodeSnapshot s = .ok bytes)
    (size : snapshotSize s < 2 ^ 32) (part : written <+: bytes) :
    decodeSnapshot written = .ok t ↔ written = bytes ∧ s.Coherent ∧ t = s.reread := by
  obtain ⟨finite, rfl⟩ := encodeSnapshot_ok_iff.mp encoded
  have fits : (snapshotFields s).flatten.length < 2 ^ 32 := by
    rw [snapshotFields_length]
    exact size
  constructor
  · intro h
    obtain ⟨payload, short, rfl, -⟩ := decodeSnapshot_ok.mp h
    have whole := withHeader_eq_of_starts fits short part
    rw [whole] at h
    exact ⟨whole, (decodeSnapshot_written finite).mp h⟩
  · rintro ⟨rfl, loaded⟩
    exact (decodeSnapshot_written finite).mpr loaded

/-- Whatever saves, flushes and losses came before, a path loads as the snapshot of the last save that
opened its file, and only once the file holds all of it. -/
theorem loads_last_saved {files : String → Option Bytes} {steps : List DiskStep} {path : String}
    (size : ∀ s, lastSaved path steps = some s → snapshotSize s < 2 ^ 32) (t : Snapshot) :
    let d := Runs.run step { files } steps
    loadSnapshotFile (d.read path) = .ok t ↔
      (lastSaved path steps = none ∧ loadSnapshotFile (read { files } path) = .ok t) ∨
      ∃ s, lastSaved path steps = some s ∧ d.Holds path s ∧ s.Coherent ∧ t = s.reread := by
  intro d
  have start : Traces { files } { files } path none := ⟨rfl, rfl⟩
  have inv : Traces { files } d path (lastSaved path steps) := start.run steps
  cases last : lastSaved path steps with
  | none =>
    rw [last] at inv
    have same : d.read path = read { files } path := by
      simp only [read, inv.1]
    rw [same]
    simp
  | some s =>
    rw [last] at inv
    obtain ⟨bytes, written, encoded, file, part⟩ := inv
    have whole : d.Holds path s ↔ written = bytes := by
      constructor
      · rintro ⟨bytes', encoded', file'⟩
        cases encoded.symm.trans encoded'
        cases file.symm.trans file'
        rfl
      · rintro rfl
        exact ⟨written, encoded, file⟩
    have first : written <+: bytes := (List.prefix_append written _).trans part
    have loaded : loadSnapshotFile (d.read path) = decodeSnapshot written := by
      simp only [read, file]
      rfl
    rw [loaded, decodeSnapshot_part encoded (size s last) first, ← whole]
    simp

/-- A save whose stream passed everything on. -/
def plainSave : List DiskStep := [.save "warm.wfbin" plainSnapshot true true, .flush "warm.wfbin" 1000]

theorem loads_last_saved_plain :
    loadSnapshotFile ((Runs.run step { files := fun _ => none } plainSave).read "warm.wfbin") =
      .ok plainSnapshot.reread := by
  have encoded := encodeSnapshot_eq (s := plainSnapshot) (WarmthPolicy.defaults_finite ⟨1⟩)
    plainSnapshot_numeric
  have last : lastSaved "warm.wfbin" plainSave = some plainSnapshot := by
    simp only [lastSaved, plainSave, List.foldl_cons, List.foldl_nil, savedBy, encoded]
    rfl
  have size : snapshotSize plainSnapshot < 2 ^ 32 := by decide
  have fits : ∀ s, lastSaved "warm.wfbin" plainSave = some s → snapshotSize s < 2 ^ 32 := by
    intro s hs
    cases last.symm.trans hs
    exact size
  have short : (withHeader (snapshotFields plainSnapshot).flatten).length ≤ 1000 := by
    rw [withHeader_length, snapshotFields_length]
    decide
  have whole : (Runs.run step { files := fun _ => none } plainSave).Holds "warm.wfbin" plainSnapshot := by
    refine ⟨_, encoded, ?_⟩
    change ((step { files := fun _ => none } (.save _ plainSnapshot true true)).flush _ 1000).files _ = _
    simp only [step, saveSnapshotFile, encoded, Disk.flush, rewrite, update_self, if_true,
      Option.map_some, List.nil_append, List.take_of_length_le short]
  have coherent : plainSnapshot.Coherent := ⟨by decide, by decide, rfl, by decide, size⟩
  exact (loads_last_saved fits _).mpr (Or.inr ⟨plainSnapshot, last, whole, coherent, rfl⟩)

end Disk

end Warmth
