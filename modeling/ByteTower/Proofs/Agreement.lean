import ByteTower.Proofs.Directory
import ByteTower.Proofs.Imitation
import ByteTower.Proofs.Operation

namespace ByteTower

open StoreM

namespace FileHandle

variable {κ ρ : Type} [ByteSink κ] [ByteSource ρ] {h : FileHandle}

theorem ready_of_openFile {d d' : Directory} {mode : Directory.OpenMode} {path : String}
    (hopen : d.openFile mode path = .ok (h, d')) :
    h.Ready True ∧ plain h = Memory.ofBytes (mode.initial (d.find? h.name)) := by
  rw [(Directory.openFile_eq_ok hopen).1]
  exact ⟨⟨rfl, fun _ => rfl, rfl⟩, rfl⟩

theorem Ready.mimics_close (hh : h.Ready True) :
    Mimics Exact plain (Operation.close : Operation κ ρ).run Operation.close.run h :=
  .of_run (t := { h with closed := true }) rfl hh.exact rfl

open Operation

/-- These operations are answered as in memory, and after each of them the bytes are the same and their
number is known. -/
structure AgreesOn (operations : List (Operation κ ρ)) (h : FileHandle) : Prop where
  answers : answers (operations.map run) h = answers (operations.map run) (plain h)
  exact : ∀ before, before <+: operations → (leave (before.map run) h).Exact
  plain : ∀ before, before <+: operations →
    leave (before.map run) (plain h) = plain (leave (before.map run) h)

theorem agreesOn_nil (hh : h.Exact) : h.AgreesOn ([] : List (Operation κ ρ)) where
  answers := rfl
  exact before hbefore := by
    rw [List.prefix_nil.1 hbefore]
    exact hh
  plain before hbefore := by
    rw [List.prefix_nil.1 hbefore]
    rfl

theorem AgreesOn.cons {operation : Operation κ ρ} {operations : List (Operation κ ρ)}
    {Good : FileHandle → Prop} (hh : h.Exact)
    (hm : Mimics Good ByteTower.plain operation.run operation.run h)
    (hrest : (operation.run.run h).2.AgreesOn operations) : h.AgreesOn (operation :: operations) := by
  have hm := hm.2
  refine ⟨?_, fun before hbefore => ?_, fun before hbefore => ?_⟩
  · rw [List.map_cons, List.map_cons, ByteTower.answers, ByteTower.answers, hm, hrest.answers]
  · obtain rfl | ⟨tail, rfl, htail⟩ := List.prefix_cons_iff.1 hbefore
    · exact hh
    · exact hrest.exact tail htail
  · obtain rfl | ⟨tail, rfl, htail⟩ := List.prefix_cons_iff.1 hbefore
    · rfl
    · have hleave := hrest.plain tail htail
      rw [List.map_cons, List.map_cons, leave, leave, List.foldl_cons, List.foldl_cons, hm]
      exact hleave

/-- Every run up to its first close is one in memory. -/
theorem Ready.agreesOn (operations : List (Operation κ ρ)) : ∀ {h : FileHandle}, h.Ready True →
    h.AgreesOn (upToClose operations) := by
  induction operations with
  | nil => exact fun hh => agreesOn_nil hh.exact
  | cons operation operations ih =>
    intro h hh
    by_cases hop : operation = close
    · have hclose := hh.mimics_close (κ := κ) (ρ := ρ)
      rw [hop, upToClose]
      exact .cons hh.exact hclose (agreesOn_nil hclose.1)
    · have hmimics := mimics_run ready_imitates (fun _ _ => rfl) hh hop
      rw [upToClose_cons hop]
      exact .cons hh.exact hmimics (ih hmimics.1)

end FileHandle

open Operation

/-- A file that is opened for reading and writing answers, up to and including its first close, every
operation as its contents do in memory; its bytes change as they do, and its handle knows their number. -/
theorem file_agrees_with_memory {κ ρ : Type} [ByteSink κ] [ByteSource ρ] {d d' : Directory}
    {path : String} {h : FileHandle} (hopen : d.openFile .update path = .ok (h, d'))
    (operations : List (Operation κ ρ)) :
    let memory := Memory.ofBytes ((d.find? h.name).getD ByteArray.empty)
    answers ((upToClose operations).map run) h = answers ((upToClose operations).map run) memory ∧
      ∀ before, before <+: upToClose operations →
        (leave (before.map run) h).bytes = (leave (before.map run) memory).bytes ∧
          (leave (before.map run) h).length = (leave (before.map run) h).bytes.size := by
  obtain ⟨hready, hplain⟩ := FileHandle.ready_of_openFile hopen
  have hplain : Memory.ofBytes ((d.find? h.name).getD ByteArray.empty) = plain h := hplain.symm
  have hagrees := hready.agreesOn operations
  dsimp only
  rw [hplain]
  refine ⟨hagrees.answers, fun before hbefore => ⟨?_, hagrees.exact before hbefore⟩⟩
  rw [hagrees.plain before hbefore]
  rfl

/-- A write beyond the end of a file that was there before, a read across the gap, a cut and a close. -/
theorem file_agrees_with_memory_over_gap :
    let d : Directory := { files := [("disk.bin", "abc".toUTF8)] }
    let operations : List (Operation ThrottledSink ThrottledSource) :=
      [.writeAt 5 "xy".toUTF8, .readAt 2 9, .resize 6, .close, .length]
    ∃ h d', d.openFile .update "disk.bin" = .ok (h, d') ∧
      answers ((upToClose operations).map run) h =
        answers ((upToClose operations).map run) (Memory.ofBytes "abc".toUTF8) ∧
      (leave ((upToClose operations).map run) h).length = 6 := by
  have hsplit : Path.split "disk.bin" =
      { steps := ["disk.bin"], fromRoot := false, slashed := false } := by decide +kernel
  have hread : Path.read "disk.bin" = .ok
      { steps := ["disk.bin"], fromRoot := false, slashed := false } := by
    rw [Path.read_eq_split (by decide +kernel) (by decide) (by decide), hsplit]
  have hopen : Directory.openFile { files := [("disk.bin", "abc".toUTF8)] } .update "disk.bin" = .ok _ :=
    Directory.openFile_of_name hread (by decide) (by decide) (by decide)
  refine ⟨_, _, hopen, (file_agrees_with_memory hopen _).1, ?_⟩
  decide +kernel

end ByteTower
