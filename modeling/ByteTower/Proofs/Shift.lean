import ByteTower.Proofs.Blocks

namespace ByteTower

namespace Bytes

variable {b : Bytes} {distance start stop source next : Nat}

/-- `b` made longer by `distance`, the bytes from `stop` on moved up to the new end. A gap is opened from
the top down and closed from the bottom up, so that at every stage each byte that has still to move
stands where it stood. -/
def opened (b : Bytes) (distance stop : Nat) : Bytes :=
  (b.resize (b.size + distance)).overwrite (stop + distance) (b.slice stop (b.size - stop))

/-- `b` with the bytes from `start` up to `stop` moved down by `distance`. -/
def closing (b : Bytes) (distance start stop : Nat) : Bytes :=
  b.overwrite (start - distance) (b.slice start (stop - start))

theorem opened_size (b : Bytes) (distance : Nat) :
    b.opened distance b.size = b.resize (b.size + distance) := by
  apply ext_byte
  unfold opened
  grind

theorem closing_self (hd : distance ≤ start) (hs : start ≤ b.size) :
    b.closing distance start start = b := by
  apply ext_byte
  unfold closing
  grind

theorem byte?_opened (hs : stop ≤ b.size) (i : Nat) :
    (b.opened distance stop).byte? i =
      if i < stop + distance then (b.resize (b.size + distance)).byte? i
      else b.byte? (i - distance) := by
  unfold opened
  grind

theorem size_opened (hs : stop ≤ b.size) : (b.opened distance stop).size = b.size + distance := by
  unfold opened
  grind

theorem opened_step (hs : source ≤ stop) (hstop : stop ≤ b.size) :
    (b.opened distance stop).put (source + distance)
        ((b.opened distance stop).slice source (stop - source)) = b.opened distance source := by
  have hsize : (b.opened distance stop).size = b.size + distance := size_opened hstop
  have hstage : ∀ i, i < stop → (b.opened distance stop).byte? i = b.byte? i := by
    intro i hi
    rw [byte?_opened hstop]
    grind
  apply ext_byte
  intro i
  have hhere : (b.opened distance stop).byte? i = _ := byte?_opened hstop i
  rw [byte?_opened (Nat.le_trans hs hstop)]
  unfold put
  grind

theorem byte?_closing (hd : distance ≤ start) (hs : start ≤ stop) (hstop : stop ≤ b.size) (i : Nat) :
    (b.closing distance start stop).byte? i =
      if i < start - distance then b.byte? i
      else if i < stop - distance then b.byte? (i + distance)
      else b.byte? i := by
  unfold closing
  grind

theorem size_closing (hd : distance ≤ start) (hs : start ≤ stop) (hstop : stop ≤ b.size) :
    (b.closing distance start stop).size = b.size := by
  unfold closing
  grind

theorem closing_step (hd : distance ≤ start) (hs : start ≤ stop) (hn : stop ≤ next)
    (hnext : next ≤ b.size) :
    (b.closing distance start stop).put (stop - distance)
        ((b.closing distance start stop).slice stop (next - stop)) =
      b.closing distance start next := by
  have hsize := size_closing hd hs (Nat.le_trans hn hnext)
  have hstage : ∀ i, stop ≤ i → (b.closing distance start stop).byte? i = b.byte? i := by
    intro i hi
    rw [byte?_closing hd hs (Nat.le_trans hn hnext)]
    grind
  apply ext_byte
  intro i
  have hhere := byte?_closing hd hs (Nat.le_trans hn hnext) i
  rw [byte?_closing hd (Nat.le_trans hs hn) hnext]
  unfold put
  grind

def without (b : Bytes) (pos distance : Nat) : Bytes :=
  b.slice 0 pos ++ b.slice (pos + distance) b.size

theorem closing_resize {pos : Nat} (hs : pos + distance ≤ b.size) :
    (b.closing distance (pos + distance) b.size).resize (b.size - distance) =
      b.without pos distance := by
  have hsize := size_closing (Nat.le_add_left distance pos) hs (Nat.le_refl b.size)
  apply ext_byte
  intro i
  have hhere := byte?_closing (Nat.le_add_left distance pos) hs (Nat.le_refl b.size) i
  unfold without
  grind

end Bytes

namespace BlockView

open StoreM

variable {κ σ : Type} [Meaning σ] {f : Failures} {Good : σ → Prop} {v w : BlockView κ σ}
variable {b : Bytes}

/-- `w` is `v` with the bytes `b` in its store, which is good and open. -/
structure Holds (Good : σ → Prop) (v : BlockView κ σ) (b : Bytes) (w : BlockView κ σ) : Prop where
  good : Good w.inner
  bytes : (plain w.inner).bytes = b
  isOpen : (plain w.inner).closed = false
  blockSize : w.blockSize = v.blockSize
  register : w.register = v.register

def Inside (blockSize length block offset count : Nat) : Prop :=
  block < length / blockSize ∧ offset < blockSize ∧ offset + count ≤ blockSize

theorem holds_self (hv : Good v.inner) (ho : (plain v.inner).closed = false) :
    Holds Good v (plain v.inner).bytes v := ⟨hv, rfl, ho, rfl, rfl⟩

theorem Holds.of_inner (hw : Holds Good v b w) {t : σ} (ht : Good t) {b' : Bytes}
    (hb : (plain t).bytes = b') (ho : (plain t).closed = false) :
    Holds Good v b' { w with inner := t } := ⟨ht, hb, ho, hw.blockSize, hw.register⟩

theorem Holds.of_missed (hw : Holds Good v b w) {t : σ} (ht : Missed f Good w.inner t) :
    f.occur ∧ Holds Good v b { w with inner := t } :=
  ⟨ht.2.1, hw.of_inner ht.1 (ht.2.2.1.trans hw.bytes) (ht.2.2.2.1.trans hw.isOpen)⟩

theorem meets_onInner {α : Type} {act : StoreM σ α} {good : α → σ → Prop} (hw : Holds Good v b w)
    (h : act.Meets w.inner good fun _ t => Missed f Good w.inner t) :
    (onInner act).Meets w (fun a w' => ∃ t, w' = { w with inner := t } ∧ good a t)
      fun _ w' => f.occur ∧ Holds Good v b w' :=
  Meets.zoom (h.imp (fun _ t ht => ⟨t, rfl, ht⟩) fun _ _ ht => hw.of_missed ht)

variable [Storage σ] (h : Contract f Good) (hwhole : ∀ size, ¬f.tear size)
variable (hw : Holds Good v b w)

include h hw

theorem Holds.bounded : f.occur ∨ b.size ≤ maxPosition := hw.bytes ▸ h.bounded w.inner hw.good

theorem meets_length : (onInner Storage.length).Meets w
    (fun n w' => n = b.size ∧ Holds Good v b w') fun _ w' => f.occur ∧ Holds Good v b w' := by
  apply (meets_onInner hw (h.meets_length hw.good hw.isOpen)).imp_ok
  rintro n _ ⟨t, rfl, ht, rfl, hp⟩
  refine ⟨by rw [hw.bytes], hw.of_inner ht ?_ ?_⟩
  · rw [hp, hw.bytes]
  · rw [hp, hw.isOpen]

theorem meets_blockCount : blockCount.Meets w
    (fun n w' => n = b.size / v.blockSize ∧ Holds Good v b w')
    fun _ w' => f.occur ∧ Holds Good v b w' := by
  apply (meets_length h hw).bind
  rintro _ w' ⟨rfl, hw'⟩
  exact meets_get_bind (meets_pure ⟨by rw [hw'.blockSize], hw'⟩)

theorem meets_resize (n : Nat) : (onInner (Storage.resize n)).Meets w
    (fun _ w' => n ≤ maxPosition ∧ Holds Good v (b.resize n) w')
    fun _ w' => (n ≤ maxPosition → f.occur) ∧ Holds Good v b w' := by
  by_cases hn : n ≤ maxPosition
  · have hresize := h.toWriting.meets_resize hw.good hw.isOpen hn
    apply (meets_onInner hw hresize).imp
    · rintro _ _ ⟨t, rfl, ht, hp⟩
      refine ⟨hn, hw.of_inner ht ?_ ?_⟩
      · rw [hp, hw.bytes]
      · rw [hp, hw.isOpen]
    · exact fun _ _ hw' => ⟨fun _ => hw'.1, hw'.2⟩
  · have hrefused := h.toWriting.meets_resize_refused hw.good hw.isOpen (Nat.lt_of_not_le hn)
    apply Meets.zoom
    apply hrefused.imp
    · exact fun _ _ hf => hf.elim
    · intro e t ⟨ht, hfail⟩
      refine ⟨fun hle => absurd hle hn, ?_⟩
      rcases hfail with ⟨_, hp⟩ | ⟨_, hb, hclosed, _⟩
      · refine hw.of_inner ht ?_ ?_
        · rw [hp, hw.bytes]
        · rw [hp, hw.isOpen]
      · exact hw.of_inner ht (hb.trans hw.bytes) (hclosed.trans hw.isOpen)

theorem meets_seek {pos : Nat} (hpos : pos ≤ b.size) :
    (onInner (Storage.seek pos)).Meets w
      (fun _ w' => Holds Good v b w' ∧ (plain w'.inner).cursor = pos)
      fun _ w' => f.occur ∧ Holds Good v b w' := by
  have hmax := (hw.bounded h).imp_right (Nat.le_trans hpos)
  apply (meets_onInner hw (h.meets_seek hw.good hw.isOpen hmax)).imp_ok
  rintro _ _ ⟨t, rfl, ht, hp⟩
  refine ⟨hw.of_inner ht ?_ ?_, ?_⟩
  · rw [hp, hw.bytes]
  · rw [hp, hw.isOpen]
  · rw [hp]

theorem meets_readExactly {source count : Nat} (hcur : (plain w.inner).cursor = source)
    (hsource : source + count ≤ b.size) :
    (onInner (Storage.readExactly count)).Meets w
      (fun data w' => data = b.slice source count ∧ Holds Good v b w')
      fun _ w' => f.occur ∧ Holds Good v b w' := by
  have hread := ByteTower.meets_readExactly h.read hw.good hw.isOpen count
  rw [hw.bytes, hcur] at hread
  apply Meets.zoom
  apply hread.imp
  · intro data t ⟨ht, _, hdata, hp⟩
    refine ⟨hdata, hw.of_inner ht ?_ ?_⟩
    · rw [hp, hw.bytes]
    · rw [hp, hw.isOpen]
  · intro e t ⟨ht, hfail⟩
    rcases hfail with ⟨hshort, _⟩ | ⟨hocc, hb, ho⟩
    · omega
    · exact ⟨hocc, hw.of_inner ht hb ho⟩

include hwhole

omit hw in
/-- A write that cannot stop halfway, be there something to write or not. One that does not fit is
refused; that counts as a failure for no reason. -/
theorem meets_write {s : σ} (hs : Good s) (ho : (plain s).closed = false) {data : Bytes}
    (hfit : f.occur ∨ (plain s).cursor + data.size ≤ maxPosition) :
    (Storage.write data).Meets s
      (fun _ t => Good t ∧ (plain t).bytes = (plain s).bytes.put (plain s).cursor data ∧
        (plain t).closed = false)
      fun _ t => f.occur ∧ Good t ∧ (plain t).bytes = (plain s).bytes ∧
        (plain t).closed = false := by
  have hfailed : ∀ t, Good t ∧ f.occur ∧ f.Tears data (plain s) (plain t) →
      f.occur ∧ Good t ∧ (plain t).bytes = (plain s).bytes ∧ (plain t).closed = false := by
    intro t ⟨ht, hocc, k, hk, hb, hclosed, _⟩
    obtain rfl := hk.resolve_left (hwhole _)
    rw [Bytes.put_slice_zero] at hb
    exact ⟨hocc, ht, hb, hclosed.trans ho⟩
  by_cases hd : data.size = 0
  · apply ((h.write data s hs).meets (Memory.run_write_nothing ho hd)).imp
    · intro _ t ⟨ht, _, hp⟩
      rw [hp, Bytes.put_of_size_eq_zero hd]
      exact ⟨ht, rfl, ho⟩
    · exact fun _ t ht => hfailed t ht
  · have hd := Nat.pos_of_ne_zero hd
    by_cases hle : (plain s).cursor + data.size ≤ maxPosition
    · apply (h.toWriting.meets_write hs ho hd hle).imp
      · intro _ t ⟨ht, hp⟩
        rw [hp, Bytes.put_of_pos hd]
        exact ⟨ht, rfl, ho⟩
      · exact fun _ t ht => hfailed t ht
    · have hocc := hfit.resolve_right hle
      apply (h.toWriting.meets_write_refused hs ho hd (Nat.lt_of_not_le hle)).imp
      · exact fun _ _ hf => hf.elim
      · rintro _ t ⟨ht, ⟨-, hp⟩ | ⟨-, htears⟩⟩
        · rw [hp]
          exact ⟨hocc, ht, rfl, ho⟩
        · exact hfailed t ⟨ht, hocc, htears⟩

theorem meets_put {pos : Nat} {data : Bytes} (hfit : pos + data.size ≤ b.size) :
    (do
      onInner (Storage.seek pos)
      onInner (Storage.write data)).Meets w (fun _ w' => Holds Good v (b.put pos data) w')
      fun _ w' => f.occur ∧ Holds Good v b w' := by
  have hpos : pos ≤ b.size := by omega
  apply (meets_seek h hw hpos).bind
  intro _ w' ⟨hw', hcur⟩
  have hmax := (hw.bounded h).imp_right (Nat.le_trans hfit)
  have hwrite := meets_write h hwhole hw'.good hw'.isOpen (hcur ▸ hmax)
  rw [hw'.bytes, hcur] at hwrite
  apply Meets.zoom
  apply hwrite.imp
  · intro _ t ⟨ht, hb, ho⟩
    exact hw'.of_inner ht hb ho
  · intro _ t ⟨hocc, ht, hb, ho⟩
    exact ⟨hocc, hw'.of_inner ht hb ho⟩

theorem meets_copyChunk (source count target : Nat) (hsource : source + count ≤ b.size)
    (htarget : target + count ≤ b.size) :
    (copyChunk source count target).Meets w
      (fun _ w' => Holds Good v (b.put target (b.slice source count)) w')
      fun _ w' => f.occur ∧ Holds Good v b w' := by
  have hpos : source ≤ b.size := by omega
  apply (meets_seek h hw hpos).bind
  intro _ w' ⟨hw', hcur⟩
  apply (meets_readExactly h hw' hcur hsource).bind
  rintro _ w'' ⟨rfl, hw''⟩
  apply meets_put h hwhole hw''
  rw [Bytes.size_slice]
  omega

omit hw

/-- From stage to stage, the bytes from `stop` on have been moved. A call that fails leaves a stage. -/
theorem meets_shiftUp {start distance chunks stop : Nat} (hw : Holds Good v (b.opened distance stop) w)
    (hs : start ≤ stop) (hstop : stop ≤ b.size) (hchunks : stop - start ≤ chunks * chunkSize) :
    (shiftUp start distance chunks stop).Meets w
      (fun _ w' => Holds Good v (b.opened distance start) w')
      fun _ w' => f.occur ∧ ∃ p, start ≤ p ∧ p ≤ b.size ∧ Holds Good v (b.opened distance p) w' := by
  induction chunks generalizing stop w with
  | zero =>
    obtain rfl : stop = start := by omega
    exact meets_pure hw
  | succ chunks ih =>
    have hsize : (b.opened distance stop).size = b.size + distance := Bytes.size_opened hstop
    have hsource : max start (stop - chunkSize) ≤ stop := by omega
    have hcopy := meets_copyChunk h hwhole hw (max start (stop - chunkSize))
      (stop - max start (stop - chunkSize)) (max start (stop - chunkSize) + distance) (by omega)
      (by omega)
    rw [Bytes.opened_step hsource hstop] at hcopy
    apply (hcopy.imp_error fun _ w' hw' => ⟨hw'.1, stop, hs, hstop, hw'.2⟩).bind
    intro _ w' hw'
    apply ih hw' (Nat.le_max_left _ _) (Nat.le_trans hsource hstop)
    simp only [chunkSize] at hchunks ⊢
    omega

/-- From stage to stage, the bytes up to `next` have been moved. -/
theorem meets_shiftDown {start distance chunks next : Nat}
    (hw : Holds Good v (b.closing distance start next) w) (hd : distance ≤ start)
    (hs : start ≤ next) (hnext : next ≤ b.size) (hchunks : b.size - next ≤ chunks * chunkSize) :
    (shiftDown b.size distance chunks next).Meets w
      (fun _ w' => Holds Good v (b.closing distance start b.size) w')
      fun _ w' => f.occur ∧ ∃ p, start ≤ p ∧ p ≤ b.size ∧
        Holds Good v (b.closing distance start p) w' := by
  induction chunks generalizing next w with
  | zero =>
    obtain rfl : next = b.size := by omega
    exact meets_pure hw
  | succ chunks ih =>
    have hsize : (b.closing distance start next).size = b.size := Bytes.size_closing hd hs hnext
    have hle : next ≤ min b.size (next + chunkSize) := by omega
    have hcopy := meets_copyChunk h hwhole hw next (min b.size (next + chunkSize) - next)
      (next - distance) (by omega) (by omega)
    rw [Bytes.closing_step hd hs hle (Nat.min_le_left _ _)] at hcopy
    apply (hcopy.imp_error fun _ w' hw' => ⟨hw'.1, next, hs, hnext, hw'.2⟩).bind
    intro _ w' hw'
    apply ih hw' (Nat.le_trans hs hle) (Nat.min_le_left _ _)
    simp only [chunkSize] at hchunks ⊢
    omega

omit [Meaning σ] [Storage σ] h hwhole in
theorem le_chunkCount (n : Nat) : n ≤ chunkCount n * chunkSize := by
  simp only [chunkCount, chunkSize]
  omega

omit [Meaning σ] [Storage σ] h hwhole in
theorem mul_blockSize_le {length m : Nat} (hm : m ≤ length / v.blockSize) :
    m * v.blockSize ≤ length := (Nat.le_div_iff_mul_le v.blockSize_pos).1 hm

omit [Meaning σ] [Storage σ] h hwhole in
/-- More blocks than there is room for are those that would end beyond the last position. -/
theorem maxBlockCount_sub_lt_iff (present : Nat) {count : Nat} (hcount : 0 < count) :
    v.maxBlockCount - present < count ↔ maxPosition < (present + count) * v.blockSize := by
  rw [maxBlockCount, ← Nat.div_lt_iff_lt_mul v.blockSize_pos]
  omega

omit [Meaning σ] [Storage σ] h hwhole in
theorem lt_of_maxBlockCount_sub_lt {length count : Nat}
    (hcount : v.maxBlockCount - length / v.blockSize < count) :
    maxPosition < length + count * v.blockSize := by
  have hblocks := (maxBlockCount_sub_lt_iff _ (Nat.zero_lt_of_lt hcount)).1 hcount
  have hpresent := mul_blockSize_le (v := v) (Nat.le_refl (length / v.blockSize))
  rw [Nat.add_mul] at hblocks
  omega

omit hwhole in
/-- Opening a gap is refused, or fails, before it changes anything, or else it is the shift in a store
that was made longer. -/
theorem meets_openGap_of_shiftUp (hw : Holds Good v b w) {index count : Nat}
    {good : Unit → BlockView κ σ → Prop} {bad : StoreError → BlockView κ σ → Prop}
    (hfail : ∀ e w', Holds Good v b w' → (0 < count ∧ index ≤ b.size / v.blockSize ∧
      b.size + count * v.blockSize ≤ maxPosition → f.occur) → bad e w')
    (hshift : 0 < count ∧ index ≤ b.size / v.blockSize ∧
        b.size + count * v.blockSize ≤ maxPosition →
      ∀ w', Holds Good v (b.resize (b.size + count * v.blockSize)) w' →
        (shiftUp (index * v.blockSize) (count * v.blockSize)
          (chunkCount (b.size - index * v.blockSize)) b.size).Meets w' good bad) :
    (openGap index count).Meets w good bad := by
  apply ((meets_blockCount h hw).imp_error fun e w' hw => hfail e w' hw.2 fun _ => hw.1).bind
  rintro _ w ⟨rfl, hw⟩
  apply meets_get_bind
  split
  case isTrue hcount =>
    exact meets_throw (hfail _ w hw fun hallowed => absurd hcount (Nat.ne_of_gt hallowed.1))
  case isFalse hcount =>
    split
    case isTrue hindex =>
      exact meets_throw (hfail _ w hw fun hallowed => absurd hallowed.2.1 (Nat.not_le.2 hindex))
    case isFalse hindex =>
      split
      case isTrue htoo =>
        rw [maxBlockCount, hw.blockSize] at htoo
        have hlong := lt_of_maxBlockCount_sub_lt htoo
        exact meets_throw (hfail _ w hw fun hallowed => absurd hallowed.2.2 (Nat.not_le.2 hlong))
      case isFalse =>
        apply ((meets_length h hw).imp_error fun e w' hw => hfail e w' hw.2 fun _ => hw.1).bind
        rintro _ w₁ ⟨rfl, hw₁⟩
        rw [hw.blockSize]
        apply ((meets_resize h hw₁ _).imp_error
          fun e w' hw => hfail e w' hw.2 fun hallowed => hw.1 hallowed.2.2).bind
        rintro _ w₂ ⟨hmax, hw₂⟩
        exact hshift ⟨Nat.pos_of_ne_zero hcount, Nat.le_of_not_lt hindex, hmax⟩ w₂ hw₂

/-- A gap that is opened holds what stood there, and all behind it has moved up. A call that fails on
the way leaves a stage of the shift, and a request that is refused leaves all as it was. -/
theorem meets_openGap (hw : Holds Good v b w) (index count : Nat) :
    (openGap index count).Meets w
      (fun _ w' => (0 < count ∧ index ≤ b.size / v.blockSize ∧
          b.size + count * v.blockSize ≤ maxPosition) ∧
        Holds Good v (b.opened (count * v.blockSize) (index * v.blockSize)) w')
      fun _ w' => Holds Good v b w' ∧ (0 < count ∧ index ≤ b.size / v.blockSize ∧
          b.size + count * v.blockSize ≤ maxPosition → f.occur) ∨
        f.occur ∧ ∃ p, index * v.blockSize ≤ p ∧ p ≤ b.size ∧
          Holds Good v (b.opened (count * v.blockSize) p) w' := by
  apply meets_openGap_of_shiftUp h hw
  · exact fun _ _ hw' hocc => Or.inl ⟨hw', hocc⟩
  · intro hallowed w' hw'
    rw [← Bytes.opened_size] at hw'
    have hshift := meets_shiftUp h hwhole hw' (mul_blockSize_le hallowed.2.1) (Nat.le_refl _)
      (le_chunkCount _)
    apply hshift.imp
    · exact fun _ w hw => ⟨hallowed, hw⟩
    · exact fun _ w hw => Or.inr hw

omit hwhole in
theorem meets_closeGap_of_shiftDown (hw : Holds Good v b w) {index count : Nat}
    {good : Unit → BlockView κ σ → Prop} {bad : StoreError → BlockView κ σ → Prop}
    (hfail : ∀ e w', Holds Good v b w' →
      (0 < count ∧ index + count ≤ b.size / v.blockSize → f.occur) → bad e w')
    (hshift : 0 < count ∧ index + count ≤ b.size / v.blockSize → ∀ w', Holds Good v b w' →
      (do
        shiftDown b.size (count * v.blockSize)
          (chunkCount (b.size - (index + count) * v.blockSize)) ((index + count) * v.blockSize)
        onInner (Storage.resize (b.size - count * v.blockSize))).Meets w' good bad) :
    (closeGap index count).Meets w good bad := by
  apply ((meets_blockCount h hw).imp_error fun e w' hw => hfail e w' hw.2 fun _ => hw.1).bind
  rintro _ w ⟨rfl, hw⟩
  apply meets_get_bind
  split
  case isTrue hcount =>
    exact meets_throw (hfail _ w hw fun hallowed => absurd hcount (Nat.ne_of_gt hallowed.1))
  case isFalse hcount =>
    split
    case isTrue hindex =>
      exact meets_throw (hfail _ w hw fun hallowed => absurd hallowed.2 (Nat.not_le.2 hindex))
    case isFalse hindex =>
      apply ((meets_length h hw).imp_error fun e w' hw => hfail e w' hw.2 fun _ => hw.1).bind
      rintro _ w₁ ⟨rfl, hw₁⟩
      rw [hw.blockSize]
      exact hshift ⟨Nat.pos_of_ne_zero hcount, Nat.le_of_not_lt hindex⟩ w₁ hw₁

/-- What is behind a gap that is closed has moved down. A call that fails on the way leaves a stage of
the shift, and a request that is refused leaves all as it was. -/
theorem meets_closeGap (hw : Holds Good v b w) (index count : Nat) :
    (closeGap index count).Meets w
      (fun _ w' => (0 < count ∧ index + count ≤ b.size / v.blockSize) ∧
        Holds Good v (b.without (index * v.blockSize) (count * v.blockSize)) w')
      fun _ w' => Holds Good v b w' ∧
          (0 < count ∧ index + count ≤ b.size / v.blockSize → f.occur) ∨
        f.occur ∧ ∃ p, (index + count) * v.blockSize ≤ p ∧ p ≤ b.size ∧
          Holds Good v (b.closing (count * v.blockSize) ((index + count) * v.blockSize) p) w' := by
  apply meets_closeGap_of_shiftDown h hw
  · exact fun _ _ hw' hocc => Or.inl ⟨hw', hocc⟩
  · intro hallowed w₁ hw₁
    have hstart := mul_blockSize_le hallowed.2
    have hle : count * v.blockSize ≤ (index + count) * v.blockSize :=
      Nat.mul_le_mul_right v.blockSize (Nat.le_add_left count index)
    have hfirst : Holds Good v
        (b.closing (count * v.blockSize) ((index + count) * v.blockSize)
          ((index + count) * v.blockSize)) w₁ := by
      rw [Bytes.closing_self hle hstart]
      exact hw₁
    have hshift := meets_shiftDown h hwhole hfirst hle (Nat.le_refl _) hstart (le_chunkCount _)
    apply (hshift.imp_error fun _ _ hw => Or.inr hw).bind
    intro _ w₂ hw₂
    have hlast := meets_resize h hw₂ (b.size - count * v.blockSize)
    rw [Nat.add_mul] at hstart
    rw [Nat.add_mul, Bytes.closing_resize hstart] at hlast
    apply hlast.imp
    · exact fun _ w hw => ⟨hallowed, hw.2⟩
    · intro _ w ⟨hocc, hw⟩
      rw [← Nat.add_mul] at hw hstart
      have hocc : f.occur := (hw₁.bounded h).elim id fun hmax => hocc (by omega)
      exact Or.inr ⟨hocc, b.size, hstart, Nat.le_refl _, hw⟩

omit hwhole in
theorem meets_locate (hw : Holds Good v b w) (block offset count : Nat) :
    (locate block offset count).Meets w
      (fun pos w' => pos = block * v.blockSize + offset ∧
        Inside v.blockSize b.size block offset count ∧ Holds Good v b w')
      fun _ w' => Holds Good v b w' ∧ (Inside v.blockSize b.size block offset count → f.occur) := by
  apply ((meets_blockCount h hw).imp_error fun _ _ hw => ⟨hw.2, fun _ => hw.1⟩).bind
  rintro _ w' ⟨rfl, hw'⟩
  apply meets_get_bind
  dsimp only
  rw [hw'.blockSize]
  split
  case isTrue hblock => exact meets_throw ⟨hw', fun hin => absurd hin.1 (Nat.not_lt.2 hblock)⟩
  case isFalse hblock =>
    split
    case isTrue hoffset => exact meets_throw ⟨hw', fun hin => absurd hin.2.1 (Nat.not_lt.2 hoffset)⟩
    case isFalse hoffset =>
      split
      case isTrue hcount =>
        refine meets_throw ⟨hw', fun hin => ?_⟩
        have hend := hin.2.2
        omega
      case isFalse hcount =>
        exact meets_pure ⟨rfl, ⟨Nat.lt_of_not_le hblock, by omega, by omega⟩, hw'⟩

omit [Meaning σ] [Storage σ] h hwhole in
theorem Inside.le {length block offset count : Nat}
    (hin : Inside v.blockSize length block offset count) :
    block * v.blockSize + offset + count ≤ length := by
  have hend := mul_blockSize_le (v := v) (m := block + 1) hin.1
  rw [Nat.add_mul, Nat.one_mul] at hend
  have hfits := hin.2.2
  omega

omit hwhole in
theorem meets_readBlock (hw : Holds Good v b w) (block offset count : Nat) :
    (readBlock block offset count).Meets w
      (fun data w' => Inside v.blockSize b.size block offset count ∧
        data = b.slice (block * v.blockSize + offset) count ∧ Holds Good v b w')
      fun _ w' => Holds Good v b w' ∧ (Inside v.blockSize b.size block offset count → f.occur) := by
  apply (meets_locate h hw block offset count).bind
  rintro _ w' ⟨rfl, hin, hw'⟩
  have hend := hin.le
  have hpos : block * v.blockSize + offset ≤ b.size := by omega
  apply ((meets_seek h hw' hpos).imp_error fun _ _ hw => ⟨hw.2, fun _ => hw.1⟩).bind
  intro _ w'' ⟨hw'', hcur⟩
  apply (meets_readExactly h hw'' hcur hend).imp
  · exact fun _ _ hread => ⟨hin, hread⟩
  · exact fun _ _ hw => ⟨hw.2, fun _ => hw.1⟩

theorem meets_writeBlock (hw : Holds Good v b w) (block offset : Nat) (data : Bytes) :
    (writeBlock block offset data).Meets w
      (fun _ w' => Inside v.blockSize b.size block offset data.size ∧
        Holds Good v (b.put (block * v.blockSize + offset) data) w')
      fun _ w' => Holds Good v b w' ∧
        (Inside v.blockSize b.size block offset data.size → f.occur) := by
  apply (meets_locate h hw block offset data.size).bind
  rintro _ w' ⟨rfl, hin, hw'⟩
  apply (meets_put h hwhole hw' hin.le).imp
  · exact fun _ w hw => ⟨hin, hw⟩
  · exact fun _ w hw => ⟨hw.2, fun _ => hw.1⟩

end BlockView

end ByteTower
