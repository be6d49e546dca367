import ByteTower.Proofs.Directory
import ByteTower.Proofs.Seen
import ByteTower.Proofs.Tasks

namespace ByteTower

open StoreM

namespace FileHandle

def Named (name : String) (h : FileHandle) : Prop := h.name = name

theorem kept_named (name : String) : Kept (Named name) := by
  constructor
  case length =>
    exact fun h hh => ends_iff.1 <| meets_get_bind <| (ends_requireOpen hh _).bind
      fun _ _ ht => meets_pure ht
  case resize =>
    intro n h hh
    apply ends_iff.1
    apply (ends_checkPosition hh n).bind
    intro _ h hh
    apply meets_get_bind
    apply (ends_requireOpen hh h.closed).bind
    intro _ _ _
    split
    case isTrue => exact meets_set hh
    case isFalse => exact meets_throw ‹_›
  case cursor =>
    exact fun h hh => ends_iff.1 <| meets_get_bind <| (ends_requireOpen hh _).bind
      fun _ _ ht => meets_pure ht
  case seek =>
    exact fun pos h hh => ends_iff.1 <| meets_get_bind <| (ends_requireOpen hh _).bind
      fun _ _ ht => (ends_checkPosition ht pos).bind fun _ _ _ => meets_set hh
  case read =>
    intro n h hh
    apply ends_iff.1
    apply meets_get_bind
    apply (ends_requireOpen hh h.closed).bind
    intro _ _ ht
    split
    case isTrue => exact meets_pure ht
    case isFalse =>
      dsimp only
      split
      case isTrue => exact meets_pure ht
      case isFalse => exact meets_set_bind (meets_pure hh)
  case write =>
    intro data h hh
    apply ends_iff.1
    apply meets_get_bind
    apply (ends_requireOpen hh h.closed).bind
    intro _ _ ht
    split
    case isTrue => exact meets_pure ht
    case isFalse =>
      apply (ends_endOf ht h.cursor data.size).bind
      intro _ _ hu
      split
      case isTrue => exact meets_set hh
      case isFalse => exact meets_throw hu
  case flush =>
    intro h hh
    exact ends_iff.1 (meets_get_bind (ends_requireOpen hh h.closed))
  case close => exact fun _ hh => hh

def Owns (name : String) (h : FileHandle) : Prop := h.Serving True ∧ h.Named name

theorem imitates_of_owns (name : String) : Imitates (Owns name) plain :=
  imitates.and_kept (kept_named name)

theorem parts_of_owns (name : String) : Parts (Owns name) (Named name) plain where
  close h hh := .of_run (t := { h with closed := true }) rfl hh.2 rfl
  release _ hh := ⟨hh.2, rfl⟩
  after _ hh := hh.2

end FileHandle

namespace CommandLine

open BlockView (Holds)

def Working (name : String) (t : ReadAhead (WriteBehind FileHandle)) : Prop :=
  let tower : Tower Reporter FileHandle [.readAhead, .writeBehind] := t
  tower.Seen (FileHandle.Owns name) plain Memory.Bounded

theorem reliable_working (name : String) : BlockView.Reliable Reporter (Working name) :=
  Tower.reliable_seen (κ := Reporter) Memory.contract (FileHandle.imitates_of_owns name)
    (fun _ _ => rfl) [.readAhead, .writeBehind]

variable {name : String} {v w : BlockFile} {b : Bytes}

/-- What is written is in the file once the tower is closed. -/
theorem meets_close (hw : Holds (Working name) v b w) :
    Storage.close.Meets w
      (fun _ u => u.inner.inner.inner.name = name ∧ u.inner.inner.inner.bytes = b)
      fun _ _ => False := by
  let t : Tower Reporter FileHandle standardKinds := w
  have hclose := Tower.Seen.close (t := t) Memory.contract (FileHandle.imitates_of_owns name)
    (FileHandle.parts_of_owns name) hw.good hw.isOpen
  rw [← hw.bytes]
  exact hclose

theorem release_eq (hw : Holds (Working name) v b w) :
    (Storage.release w).inner.inner.inner.name = name ∧
      (Storage.release w).inner.inner.inner.bytes = b := by
  let t : Tower Reporter FileHandle standardKinds := w
  have hrelease := Tower.Seen.release (t := t) Memory.contract (FileHandle.imitates_of_owns name)
    (FileHandle.parts_of_owns name) hw.good hw.isOpen fun _ => rfl
  rw [← hw.bytes]
  exact hrelease

def Task.code (size : Nat) (b : Bytes) (task : Task) : Nat := if task.Legal size b then 0 else 1

/-- The bytes that a task leaves in the file, whether it is done or not. -/
def Task.outcome (size : Nat) (b : Bytes) (task : Task) : Bytes :=
  if task.Legal size b then task.result size b else b

theorem carryOut_eq (i : Invocation) (hw : Holds (Working name) v b v) (hmax : b.size ≤ maxPosition) :
    (carryOut i v).1.code = i.task.code v.blockSize b ∧ (carryOut i v).2.name = name ∧
      (carryOut i v).2.bytes = i.task.outcome v.blockSize b := by
  have htask := Task.meets_run (t := {}) (reliable_working name) hw hmax i.path i.task
  rcases hrun : (i.task.run i.path).run (v, {}) with ⟨e | _, w, t⟩
  · obtain ⟨hillegal, hw'⟩ := htask.of_run_error hrun
    have hcarry : carryOut i v = (t.failed e, (Storage.release w).inner.inner.inner) := by
      simp only [carryOut, run_bind_error hrun]
    rw [hcarry, Task.code, Task.outcome, if_neg hillegal, if_neg hillegal]
    exact ⟨rfl, release_eq hw'⟩
  · obtain ⟨hlegal, hw'⟩ := htask.of_run_ok hrun
    rcases hclose : (Storage.close : StoreM BlockFile Unit).run w with ⟨e | _, u⟩
    · exact ((meets_close hw').of_run_error hclose).elim
    have hcarry : carryOut i v = ({ code := 0, transcript := t }, u.inner.inner.inner) := by
      have hlast : (onFile Storage.close : TaskM Unit).run (w, t) = (.ok (), u, t) := by
        rw [onFile, run_onFirst, hclose]
      simp only [carryOut, run_bind_ok hrun, hlast]
    rw [hcarry, Task.code, Task.outcome, if_pos hlegal, if_pos hlegal]
    exact ⟨rfl, (meets_close hw').of_run_ok hclose⟩

theorem exists_blockFile {d d' : Directory} {path : String} {h : FileHandle} {sizes : Sizes}
    (hopen : d.openFile .update path = .ok (h, d')) (hsizes : sizes.check = .ok ())
    (hmax : ((d.find? h.name).getD ByteArray.empty).size ≤ maxPosition) :
    ∃ v : BlockFile, Tower.standard sizes h = .ok v ∧ v.blockSize = sizes.block ∧
      Holds (Working h.name) v ((d.find? h.name).getD ByteArray.empty) v := by
  have hh := (Directory.openFile_eq_ok hopen).1
  have hbytes : h.bytes = (d.find? h.name).getD ByteArray.empty := congrArg FileHandle.bytes hh
  have howns : h.Owns h.name := by
    rw [hh]
    exact ⟨⟨rfl, fun _ => rfl, rfl, hmax⟩, rfl⟩
  obtain ⟨v, hv, hseen, hplain⟩ := Tower.exists_standard_seen (κ := Reporter) Memory.contract
    (FileHandle.imitates_of_owns h.name).toReadsLike howns howns.1.bounded howns.1.isOpen hsizes
  have hshown : plain v = plain h := (Tower.plain_reseat rfl).symm.trans hplain
  obtain ⟨-, _, _, -, -, hblocks⟩ := Tower.standard_eq_ok hv
  refine ⟨v, hv, BlockView.blockSize_of_wrap hblocks, hseen, ?_, ?_, rfl, rfl⟩
  · exact (congrArg Memory.bytes hshown).trans hbytes
  · exact (congrArg Memory.closed hshown).trans howns.1.isOpen

section Directory

variable {d d' : Directory} {h : FileHandle} {i : Invocation}

def ended (arguments : List String) (d : Directory) : Outcome × Directory :=
  Id.run (StateT.run (run directoryDisk arguments) d)

/-- The end of what an invocation asks for, and the directory that it leaves. -/
def Invocation.ended (i : Invocation) (d : Directory) : Outcome × Directory :=
  Id.run (StateT.run (i.run directoryDisk) d)

theorem ended_of_parse {arguments : List String} (hparse : parse arguments = .ok i) (d : Directory) :
    ended arguments d = i.ended d := by
  simp only [ended, run, hparse, Invocation.ended]

theorem ended_of_check {e : StoreError} (hsizes : i.sizes.check = .error e) :
    i.ended d = (Transcript.failed e {}, d) := by
  simp only [Invocation.ended, Invocation.run, hsizes]
  rfl

theorem ended_of_open (hsizes : i.sizes.check = .ok ())
    (hopen : d.openFile .update i.path = .ok (h, d')) {v : BlockFile}
    (hv : Tower.standard i.sizes h = .ok v) :
    i.ended d = ((carryOut i (v.addListener .reporter).2).1,
      d'.put (carryOut i (v.addListener .reporter).2).2.name
        (carryOut i (v.addListener .reporter).2).2.bytes) := by
  have hfile : (directoryDisk.openFile i.path).run d = pure (.ok h, d') := by
    simp only [directoryDisk, StateT.run_bind, StateT.run_get, pure_bind, hopen]
    rfl
  simp only [Invocation.ended, Invocation.run, hsizes, StateT.run_bind, hfile, pure_bind, hv]
  rfl

theorem check_of_pos {sizes : Sizes} (hwindow : 0 < sizes.window) (hbuffer : 0 < sizes.buffer)
    (hblock : 0 < sizes.block) : sizes.check = .ok () := by
  rw [Sizes.check, if_neg (Nat.ne_of_gt hwindow), if_neg (Nat.ne_of_gt hbuffer),
    if_neg (Nat.ne_of_gt hblock)]

theorem exists_check_of_zero {sizes : Sizes}
    (hzero : sizes.window = 0 ∨ sizes.buffer = 0 ∨ sizes.block = 0) :
    ∃ e, sizes.check = .error e := by
  unfold Sizes.check
  split
  case isTrue => exact ⟨_, rfl⟩
  case isFalse hwindow =>
    split
    case isTrue => exact ⟨_, rfl⟩
    case isFalse hbuffer =>
      have hblock : sizes.block = 0 := (hzero.resolve_left hwindow).resolve_left hbuffer
      exact ⟨_, if_pos hblock⟩

/-- A file that is opened has in the end what the task makes of its bytes. -/
theorem ended_of_pos (hsizes : i.sizes.check = .ok ())
    (hopen : d.openFile .update i.path = .ok (h, d'))
    (hmax : ((d.find? h.name).getD ByteArray.empty).size ≤ maxPosition) :
    (i.ended d).1.code = i.task.code i.sizes.block ((d.find? h.name).getD ByteArray.empty) ∧
      (i.ended d).2 =
        d.put h.name (i.task.outcome i.sizes.block ((d.find? h.name).getD ByteArray.empty)) := by
  obtain ⟨v, hv, hsize, hholds⟩ := exists_blockFile hopen hsizes hmax
  have hheard : Holds (Working h.name) (v.addListener .reporter).2
      ((d.find? h.name).getD ByteArray.empty) (v.addListener .reporter).2 :=
    ⟨hholds.good, hholds.bytes, hholds.isOpen, rfl, rfl⟩
  obtain ⟨hcode, hname, hbytes⟩ := carryOut_eq i hheard hmax
  rw [ended_of_open hsizes hopen hv, hname, hbytes, (Directory.openFile_eq_ok hopen).2,
    Directory.put_put]
  rw [← hsize]
  exact ⟨hcode, rfl⟩

end Directory

/-- An invocation with a size of zero fails and leaves the directory alone. Any other opens its file, new
or not, and replaces just the bytes that its task names, if the task can be done on a file of that length;
if it cannot, it fails and leaves the bytes as they were. How much is read ahead or held back makes no
difference, and no other file is touched. A command line does what the invocation does that is read from
it. -/
theorem command_line_edits_file (i : Invocation) (d : Directory) :
    (∀ arguments, parse arguments = .ok i → ended arguments d = i.ended d) ∧
    (i.sizes.window = 0 ∨ i.sizes.buffer = 0 ∨ i.sizes.block = 0 →
      (i.ended d).1.code = 1 ∧ (i.ended d).2 = d) ∧
    (0 < i.sizes.window → 0 < i.sizes.buffer → 0 < i.sizes.block →
      ∀ h d', d.openFile .update i.path = .ok (h, d') →
        let before := (d.find? h.name).getD ByteArray.empty
        before.size ≤ maxPosition →
          (i.ended d).1.code = (if i.task.Legal i.sizes.block before then 0 else 1) ∧
          (i.ended d).2.find? h.name = some
            (if i.task.Legal i.sizes.block before then i.task.result i.sizes.block before
              else before) ∧
          ∀ other, other ≠ h.name → (i.ended d).2.find? other = d.find? other) := by
  refine ⟨fun arguments hparse => ended_of_parse hparse d, ?_, ?_⟩
  · intro hzero
    obtain ⟨e, hsizes⟩ := exists_check_of_zero hzero
    rw [ended_of_check hsizes]
    exact ⟨rfl, rfl⟩
  · intro hwindow hbuffer hblock h d' hopen before hmax
    have hsizes := check_of_pos hwindow hbuffer hblock
    obtain ⟨hcode, hleft⟩ := ended_of_pos hsizes hopen hmax
    refine ⟨hcode, ?_, fun other hother => ?_⟩
    · rw [hleft, Directory.find?_put, if_pos rfl]
      rfl
    · rw [hleft, Directory.find?_put, if_neg hother]

/-- A block of zeros in a file of three bytes, behind its first block of two. -/
theorem command_line_inserts_block :
    let d : Directory := { files := [("disk.bin", "abc".toUTF8)] }
    let arguments := ["-b", "2", "disk.bin", "insert", "1"]
    (ended arguments d).1.code = 0 ∧
      (ended arguments d).2.find? "disk.bin" = some ⟨#[97, 98, 0, 0, 99]⟩ := by
  have hfound : (parse ["-b", "2", "disk.bin", "insert", "1"]).toOption =
      some { path := "disk.bin", sizes := { block := 2 }, task := .insert 1 1 } := by decide +kernel
  have hparse : parse ["-b", "2", "disk.bin", "insert", "1"] =
      .ok { path := "disk.bin", sizes := { block := 2 }, task := .insert 1 1 } := by
    cases h : parse ["-b", "2", "disk.bin", "insert", "1"] with
    | error =>
      rw [h] at hfound
      cases hfound
    | ok i =>
      rw [h] at hfound
      exact congrArg Except.ok (Option.some.inj hfound)
  have hsplit : Path.split "disk.bin" =
      { steps := ["disk.bin"], fromRoot := false, slashed := false } := by decide +kernel
  have hpath : Path.read "disk.bin" = .ok
      { steps := ["disk.bin"], fromRoot := false, slashed := false } := by
    rw [Path.read_eq_split (by decide +kernel) (by decide) (by decide), hsplit]
  have hopen : Directory.openFile { files := [("disk.bin", "abc".toUTF8)] } .update "disk.bin" = .ok _ :=
    Directory.openFile_of_name hpath (by decide) (by decide) (by decide)
  obtain ⟨hread, -, hedits⟩ := command_line_edits_file
    { path := "disk.bin", sizes := { block := 2 }, task := .insert 1 1 }
    { files := [("disk.bin", "abc".toUTF8)] }
  obtain ⟨hcode, hbytes, -⟩ := hedits (by decide) (by decide) (by decide) _ _ hopen (by decide +kernel)
  dsimp only
  rw [hread _ hparse]
  exact ⟨hcode.trans (by decide +kernel), hbytes.trans (by decide +kernel)⟩

end CommandLine

end ByteTower
