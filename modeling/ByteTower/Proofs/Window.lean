import ByteTower.Layer.Window
import ByteTower.Proofs.Bytes
import ByteTower.Proofs.Region

namespace ByteTower.Window

/-- The valid bytes of the window lie in its buffer and are those that `b` has at their
positions. -/
structure Mirrors (w : Window) (b : Bytes) : Prop where
  valid_le : w.valid ≤ w.buffer.size
  stop_le : 0 < w.valid → w.stop ≤ b.size
  same : w.buffer.slice 0 w.valid = b.slice w.start w.valid

variable {w : Window} {b data : Bytes} {pos n : Nat}

theorem mirrors_of_byte (hv : w.valid ≤ w.buffer.size) (hs : 0 < w.valid → w.stop ≤ b.size)
    (h : ∀ i < w.valid, w.buffer.byte? i = b.byte? (w.start + i)) : w.Mirrors b := by
  refine ⟨hv, hs, Bytes.ext_byte fun i => ?_⟩
  rw [Bytes.byte?_slice, Bytes.byte?_slice, Nat.zero_add]
  split
  · exact h i ‹_›
  · rfl

theorem Mirrors.byte (h : w.Mirrors b) {i : Nat} (hi : i < w.valid) :
    w.buffer.byte? i = b.byte? (w.start + i) := by
  have hb := congrArg (fun c => Bytes.byte? c i) h.same
  simpa only [Bytes.byte?_slice, Nat.zero_add, if_pos hi] using hb

theorem mirrors_of_valid_eq_zero (h : w.valid = 0) (b : Bytes) : w.Mirrors b :=
  mirrors_of_byte (by omega) (by omega) (by omega)

theorem mirrors_invalidate (w : Window) (b : Bytes) : w.invalidate.Mirrors b :=
  mirrors_of_valid_eq_zero rfl b

/-- Bytes that were fetched from `pos` mirror it, whatever the buffer they went to held. -/
theorem mirrors_fetched (spare : Bytes) (hd : data = b.slice pos data.size) :
    Mirrors { start := pos, buffer := spare.overwrite 0 data, valid := data.size } b := by
  have hsize := congrArg ByteArray.size hd
  rw [Bytes.size_slice] at hsize
  refine mirrors_of_byte ?_ (fun hpos => ?_) fun i hi => ?_
  · show data.size ≤ (spare.overwrite 0 data).size
    rw [Bytes.size_overwrite, Nat.zero_add]
    exact Nat.le_max_right spare.size data.size
  · change pos + data.size ≤ b.size
    simp only at hpos
    omega
  · -- the old bytes of the buffer come after the valid ones
    have hb := congrArg (fun c => Bytes.byte? c i) hd
    simp only [Bytes.byte?_slice, if_pos hi] at hb
    simp only at hi ⊢
    rw [Bytes.byte?_overwrite, if_neg (by omega), if_pos (by omega), Nat.sub_zero, hb]

theorem Mirrors.resize (h : w.Mirrors b) (length : Nat) :
    (if length < w.stop then w.invalidate else w).Mirrors (b.resize length) := by
  split
  · exact mirrors_invalidate w _
  case isFalse hl =>
    apply mirrors_of_byte h.valid_le (fun _ => by rw [Bytes.size_resize]; omega)
    intro i hi
    -- a window that is kept ends before the new end
    have hstop := h.stop_le (by omega)
    have hbound : w.start + i < w.stop := Nat.add_lt_add_left hi _
    rw [h.byte hi, Bytes.byte?_resize, if_pos (by omega), if_pos (by omega)]

@[simp] theorem start_patch (w : Window) (e : Extent) : (w.patch e).start = w.start := by
  unfold patch
  split <;> rfl

@[simp] theorem valid_patch (w : Window) (e : Extent) : (w.patch e).valid = w.valid := by
  unfold patch
  split <;> rfl

/-- The buffer of a patched window has the written bytes where the write meets the valid part. -/
theorem byte?_buffer_patch (hv : w.valid ≤ w.buffer.size) (pos : Nat) (data : Bytes) {i : Nat}
    (hi : i < w.valid) :
    (w.patch ⟨pos, data⟩).buffer.byte? i =
      if pos ≤ w.start + i ∧ w.start + i < pos + data.size then data.byte? (w.start + i - pos)
      else w.buffer.byte? i := by
  unfold patch
  split
  case h_1 hnone =>
    have ho := Region.overlap?_eq_none_iff.1 hnone
    simp only [Region.stop, region, Extent.region] at ho
    rw [if_neg (by omega)]
  case h_2 common hsome =>
    obtain ⟨hlt, rfl⟩ := Region.overlap?_eq_some_iff.1 hsome
    simp only [Region.stop, region, Extent.region, Extent.read] at hlt ⊢
    grind

theorem size_buffer_le_patch (w : Window) (e : Extent) :
    w.buffer.size ≤ (w.patch e).buffer.size := by
  unfold patch
  split
  · exact Nat.le_refl _
  · rw [Bytes.size_overwrite]
    exact Nat.le_max_left _ _

theorem Mirrors.patch (h : w.Mirrors b) (pos : Nat) (data : Bytes) :
    (w.patch ⟨pos, data⟩).Mirrors (b.overwrite pos data) := by
  have hb := size_buffer_le_patch w ⟨pos, data⟩
  refine mirrors_of_byte ?_ (fun hpos => ?_) fun i hi => ?_
  · rw [valid_patch]
    exact Nat.le_trans h.valid_le hb
  · rw [valid_patch] at hpos
    have hs := h.stop_le hpos
    rw [Bytes.size_overwrite]
    simp only [stop, start_patch, valid_patch] at hs ⊢
    omega
  · rw [valid_patch] at hi
    have hs := h.stop_le (by omega)
    have hbyte := h.byte hi
    simp only [stop] at hs
    -- inside the write both have the data, outside it both are as they were
    rw [byte?_buffer_patch h.valid_le pos data hi, start_patch, Bytes.byte?_overwrite, hbyte]
    split
    case isTrue hin => rw [if_neg (by omega), if_pos (by omega)]
    case isFalse hout =>
      by_cases hlt : w.start + i < pos
      · rw [if_pos hlt, if_pos (by omega)]
      · rw [if_neg hlt, if_neg (by omega)]

theorem Mirrors.read (h : w.Mirrors b) (hp : w.start ≤ pos) :
    w.read pos n = b.slice pos (min n (w.stop - pos)) := by
  apply Bytes.ext_byte
  intro i
  have hmin : min n (w.valid - (pos - w.start)) = min n (w.stop - pos) := by
    unfold stop
    omega
  rw [Window.read, hmin, Bytes.byte?_slice, Bytes.byte?_slice]
  split
  case isTrue hi =>
    unfold stop at hi
    rw [h.byte (by omega)]
    congr 1
    omega
  case isFalse => rfl

end ByteTower.Window
