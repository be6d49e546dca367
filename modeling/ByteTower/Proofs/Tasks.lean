import ByteTower.CommandLine.Run
import ByteTower.Proofs.Edits

namespace ByteTower

namespace Bytes

/-- `b` with `data` in place of the bytes from `start` up to `stop`. -/
def spliced (b : Bytes) (start stop : Nat) (data : Bytes) : Bytes :=
  b.slice 0 start ++ data ++ b.slice stop b.size

theorem put_eq_spliced {b data : Bytes} {pos : Nat} (h : pos + data.size ≤ b.size) :
    b.put pos data = b.spliced pos (pos + data.size) data := by
  apply ext_byte
  unfold put spliced
  grind

theorem without_eq_spliced (b : Bytes) (pos distance : Nat) :
    b.without pos distance = b.spliced pos (pos + distance) ByteArray.empty := by
  rw [without, spliced, ByteArray.append_empty]

theorem opened_put_zeros {b : Bytes} {pos : Nat} (h : pos ≤ b.size) (distance : Nat) :
    (b.opened distance pos).put pos (zeros distance) = b.spliced pos pos (zeros distance) := by
  have hsize : (b.opened distance pos).size = b.size + distance := size_opened h
  have hbyte : ∀ i, (b.opened distance pos).byte? i = _ := byte?_opened h
  apply ext_byte
  intro i
  unfold put spliced
  grind

theorem put_zeros_put_zeros (b : Bytes) (pos first second : Nat) :
    (b.put pos (zeros first)).put (pos + first) (zeros second) =
      b.put pos (zeros (first + second)) := by
  apply ext_byte
  intro i
  unfold put
  grind

end Bytes

namespace CommandLine

open StoreM

/-- The task can be done on a file of these bytes, seen as blocks of this size. -/
def Task.Legal (size : Nat) (b : Bytes) : Task → Prop
  | info => True
  | dump => True
  | read block => block < b.size / size
  | write block text offset =>
    block < b.size / size ∧ offset < size ∧ offset + text.toUTF8.size ≤ size
  | insert index count => 1 ≤ count ∧ index ≤ b.size / size ∧ b.size + count * size ≤ maxPosition
  | delete index count => 1 ≤ count ∧ index + count ≤ b.size / size

instance (size : Nat) (b : Bytes) : DecidablePred (Task.Legal size b)
  | .info => inferInstanceAs (Decidable True)
  | .dump => inferInstanceAs (Decidable True)
  | .read _ => inferInstanceAs (Decidable (_ < _))
  | .write _ _ _ => inferInstanceAs (Decidable (_ < _ ∧ _ < _ ∧ _ ≤ _))
  | .insert _ _ => inferInstanceAs (Decidable (_ ≤ _ ∧ _ ≤ _ ∧ _ ≤ _))
  | .delete _ _ => inferInstanceAs (Decidable (_ ≤ _ ∧ _ ≤ _))

/-- The bytes of the file once the task is done. -/
def Task.result (size : Nat) (b : Bytes) : Task → Bytes
  | info => b
  | dump => b
  | read _ => b
  | write block text offset =>
    b.spliced (block * size + offset) (block * size + offset + text.toUTF8.size) text.toUTF8
  | insert index count => b.spliced (index * size) (index * size) (Bytes.zeros (count * size))
  | delete index count => b.spliced (index * size) ((index + count) * size) ByteArray.empty

theorem meets_notify (register : Register Reporter) (change : Change) (t : Transcript) :
    (register.notify change).Meets t (fun _ _ => True) fun _ _ => False := by
  unfold Register.notify
  induction register.listeners generalizing t with
  | nil => exact meets_pure trivial
  | cons listener listeners ih => exact meets_modify_bind (ih _)

section Tasks

open BlockView (Holds Inside)

variable {P : ReadAhead (WriteBehind FileHandle) → Prop} {v w : BlockFile} {b : Bytes}
variable {t : Transcript} {bad : StoreError → BlockFile × Transcript → Prop}

theorem meets_onFile {α : Type} {act : StoreM BlockFile α} {good : α → BlockFile → Prop}
    {failed : StoreError → BlockFile → Prop} (h : act.Meets w good failed) :
    (onFile act).Meets (w, t) (fun a p => good a p.1) fun e p => failed e p.1 := by
  have hfirst : act.onFirst.Meets (w, t) (fun a p => good a p.1) fun e p => failed e p.1 :=
    Meets.zoom h
  exact hfirst

theorem meets_print (hw : Holds P v b w) (line : String) :
    (print line).Meets (w, t) (fun _ p => Holds P v b p.1) bad := meets_modify hw

theorem meets_printAll (lines : List String) (hw : Holds P v b w) :
    (lines.forM print).Meets (w, t) (fun _ p => Holds P v b p.1) bad := by
  induction lines generalizing w t with
  | nil => exact meets_pure hw
  | cons line lines ih => exact (meets_print hw line).bind fun _ _ hw' => ih hw'

theorem meets_announce (hw : Holds P v b w) (change : Change) :
    (BlockView.announce change).Meets (w, t) (fun _ p => Holds P v b p.1) bad := by
  have hheard := meets_notify w.register change t
  exact meets_get_bind (Meets.zoom (hheard.imp (fun _ _ _ => hw) fun _ _ hf => hf.elim))

variable (h : BlockView.Reliable Reporter P)

include h

theorem meets_dumpFrom {count index : Nat} (hcount : index + count ≤ b.size / v.blockSize)
    (hw : Holds P v b w) : (dumpFrom v.blockSize count index).Meets (w, t)
      (fun _ p => Holds P v b p.1) bad := by
  induction count generalizing index w t with
  | zero => exact meets_pure hw
  | succ count ih =>
    have hin : Inside v.blockSize b.size index 0 v.blockSize :=
      ⟨by omega, v.blockSize_pos, Nat.le_of_eq (Nat.zero_add _)⟩
    apply ((meets_onFile (h.readBlock hw index 0 v.blockSize)).imp_error
      fun _ _ hw' => absurd hin hw'.2).bind
    rintro data ⟨w', t'⟩ ⟨-, -, hw'⟩
    apply (meets_print hw' _).bind
    rintro _ ⟨w'', t''⟩ hw''
    exact ih (by omega) hw''

theorem meets_zeroFrom {count index : Nat} (hcount : index + count ≤ b.size / v.blockSize)
    (hmax : b.size ≤ maxPosition) (hw : Holds P v b w) :
    (zeroFrom (Bytes.zeros v.blockSize) count index).Meets (w, t)
      (fun _ p => Holds P v (b.put (index * v.blockSize) (Bytes.zeros (count * v.blockSize))) p.1)
      bad := by
  induction count generalizing index b w t with
  | zero =>
    rw [Nat.zero_mul, Bytes.put_of_size_eq_zero (Bytes.size_zeros 0)]
    exact meets_pure hw
  | succ count ih =>
    have hin : Inside v.blockSize b.size index 0 (Bytes.zeros v.blockSize).size :=
      ⟨by omega, v.blockSize_pos, Nat.le_of_eq (by rw [Bytes.size_zeros, Nat.zero_add])⟩
    have hallowed := (BlockView.allowed_write_iff hmax).2 hin
    have hwrite := h.edit hw (.write index 0 (Bytes.zeros v.blockSize))
    apply ((meets_onFile hwrite).imp_error fun _ _ hw' => absurd hallowed hw'.2).bind
    rintro _ ⟨w', t'⟩ ⟨-, hw'⟩
    have hw' : Holds P v (b.put (index * v.blockSize) (Bytes.zeros v.blockSize)) w' := hw'
    have hsize : (b.put (index * v.blockSize) (Bytes.zeros v.blockSize)).size = b.size := by
      have hend := hin.le
      rw [Bytes.put]
      grind
    rw [Nat.succ_mul, Nat.add_comm (count * v.blockSize), ← Bytes.put_zeros_put_zeros,
      ← Nat.succ_mul]
    exact ih (by rw [hsize]; omega) (by rw [hsize]; exact hmax) hw'

/-- Blocks that are inserted are zeros in the end, whatever stood where they are. -/
theorem meets_insert (hw : Holds P v b w) (index count : Nat) :
    (do
      BlockView.insertBlocks index count
      zeroFrom (Bytes.zeros v.blockSize) count index).Meets (w, t)
      (fun _ p => Task.Legal v.blockSize b (.insert index count) ∧
        Holds P v (Task.result v.blockSize b (.insert index count)) p.1)
      fun _ p => ¬Task.Legal v.blockSize b (.insert index count) ∧ Holds P v b p.1 := by
  have hedit := h.edit hw (.insert index count)
  rw [BlockView.allowed_insert_iff] at hedit
  rw [BlockView.insertBlocks, bind_assoc]
  apply ((meets_onFile hedit).imp_error fun _ _ hw' => ⟨hw'.2, hw'.1⟩).bind
  rintro _ ⟨w', t'⟩ ⟨hlegal, hw'⟩
  apply (meets_announce hw' _).bind
  rintro _ ⟨w'', t''⟩ hw''
  have hindex := hlegal.2.1
  have hmax := hlegal.2.2
  have hstart := BlockView.mul_blockSize_le hindex
  have hsize : (b.opened (count * v.blockSize) (index * v.blockSize)).size =
      b.size + count * v.blockSize := Bytes.size_opened hstart
  have hcount : index + count ≤ (b.size + count * v.blockSize) / v.blockSize := by
    rw [Nat.add_mul_div_right _ _ v.blockSize_pos]
    omega
  rw [← hsize] at hcount hmax
  apply (meets_zeroFrom h hcount hmax hw'').imp_ok
  intro _ _ hend
  rw [Bytes.opened_put_zeros hstart] at hend
  exact ⟨hlegal, hend⟩

/-- A task is done in full if it can be done, and leaves all as it was if it cannot. -/
theorem Task.meets_run (hw : Holds P v b w) (hmax : b.size ≤ maxPosition) (path : String)
    (task : Task) : (task.run path).Meets (w, t)
      (fun _ p => task.Legal v.blockSize b ∧ Holds P v (task.result v.blockSize b) p.1)
      fun _ p => ¬task.Legal v.blockSize b ∧ Holds P v b p.1 := by
  apply meets_get_bind
  dsimp only
  rw [hw.blockSize]
  cases task with
  | info =>
    apply (meets_print hw _).bind
    intro _ p hw₁
    apply (meets_onFile (h.length hw₁)).bind_unfailing
    intro length p ⟨_, hw₂⟩
    apply (meets_print hw₂ _).bind
    intro _ p hw₃
    apply (meets_print hw₃ _).bind
    intro _ p hw₄
    apply (meets_onFile (h.blockCount hw₄)).bind_unfailing
    intro count p ⟨_, hw₅⟩
    exact (meets_print hw₅ _).imp_ok fun _ _ hw' => ⟨trivial, hw'⟩
  | dump =>
    apply (meets_onFile (h.blockCount hw)).bind_unfailing
    rintro _ ⟨w', t'⟩ ⟨rfl, hw'⟩
    exact (meets_dumpFrom h (Nat.le_of_eq (Nat.zero_add _)) hw').imp_ok
      fun _ _ hw'' => ⟨trivial, hw''⟩
  | read block =>
    have hin : Inside v.blockSize b.size block 0 v.blockSize ↔ block < b.size / v.blockSize :=
      ⟨And.left, fun hblock => ⟨hblock, v.blockSize_pos, Nat.le_of_eq (Nat.zero_add _)⟩⟩
    have hread := h.readBlock hw block 0 v.blockSize
    rw [hin] at hread
    apply ((meets_onFile hread).imp_error fun _ _ hw' => ⟨hw'.2, hw'.1⟩).bind
    intro data p ⟨hblock, _, hw'⟩
    exact (meets_printAll (Dump.lines data) hw').imp_ok fun _ _ hw'' => ⟨hblock, hw''⟩
  | write block text offset =>
    have hedit := h.edit hw (.write block offset text.toUTF8)
    rw [BlockView.allowed_write_iff hmax] at hedit
    apply (meets_onFile hedit).imp
    · intro _ p ⟨hin, hw'⟩
      refine ⟨hin, ?_⟩
      rw [result, ← Bytes.put_eq_spliced (hin.le)]
      exact hw'
    · exact fun _ _ hw' => ⟨hw'.2, hw'.1⟩
  | insert index count => exact meets_insert h hw index count
  | delete index count =>
    have hedit := h.edit hw (.delete index count)
    rw [BlockView.allowed_delete_iff hmax] at hedit
    apply ((meets_onFile hedit).imp_error fun _ _ hw' => ⟨hw'.2, hw'.1⟩).bind
    rintro _ ⟨w', t'⟩ ⟨hlegal, hw'⟩
    apply (meets_announce hw' _).imp_ok
    intro _ _ hw''
    refine ⟨hlegal, ?_⟩
    rw [result, Nat.add_mul, ← Bytes.without_eq_spliced]
    exact hw''

end Tasks

end CommandLine

end ByteTower
