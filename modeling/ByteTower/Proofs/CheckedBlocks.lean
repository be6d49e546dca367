import ByteTower.Proofs.Call
import ByteTower.Proofs.CheckedTransfer

namespace ByteTower

open StoreM CheckedM
open Counting (counted)

namespace BlockView

variable {κ σ ω : Type}

def checkedInner {α : Type} (act : CheckedM σ α) : CheckedM (BlockView κ σ) α :=
  act.zoom inner fun inner v => { v with inner }

variable [CheckedStorage σ]

def checkedBlockCount : CheckedM (BlockView κ σ) Nat := do
  let length ← checkedInner CheckedStorage.length
  require (0 < (← get).blockSize)
  return length / (← get).blockSize

def checkedLocate (block offset count : Nat) : CheckedM (BlockView κ σ) Nat := do
  let present ← checkedBlockCount
  let size := (← get).blockSize
  if present ≤ block then lift (throw (.range (.noSuchBlock block present)))
  else if size ≤ offset then lift (throw (.range (.outsideBlock offset size)))
  else do
    require (offset ≤ size)
    if size - offset < count then lift (throw (.range (.crossesBlock count offset size)))
    else do
      require (IsOffset (block * size))
      require (IsOffset (block * size + offset))
      return block * size + offset

def checkedReadBlock (block offset count : Nat) : CheckedM (BlockView κ σ) Bytes := do
  let pos ← checkedLocate block offset count
  checkedInner (CheckedStorage.seek pos)
  checkedInner (Storage.checkedReadExactly count)

def checkedReadBlockWithin (block offset : Nat) (buffer : Bytes) (start count : Nat) :
    CheckedM (BlockView κ σ) Bytes := do
  lift (checkSlice buffer.size start count)
  require (Lies start count buffer.size)
  let data ← checkedReadBlock block offset count
  return buffer.overwrite start data

def checkedWriteBlock (block offset : Nat) (data : Bytes) : CheckedM (BlockView κ σ) Unit := do
  let pos ← checkedLocate block offset data.size
  checkedInner (CheckedStorage.seek pos)
  checkedInner (CheckedStorage.write data)

def checkedWriteBlockWithin (block offset : Nat) (buffer : Bytes) (start count : Nat) :
    CheckedM (BlockView κ σ) Unit := do
  lift (checkSlice buffer.size start count)
  require (Lies start count buffer.size)
  checkedWriteBlock block offset (buffer.slice start count)

def checkedCopyChunk (source stop target : Nat) : CheckedM (BlockView κ σ) Unit := do
  require (source ≤ stop ∧ IsIndex (stop - source))
  checkedInner (CheckedStorage.seek source)
  let data ← checkedInner (Storage.checkedReadExactly (stop - source))
  checkedInner (CheckedStorage.seek target)
  checkedInner (CheckedStorage.write data)

def checkedShiftUp (start distance : Nat) : (chunks stop : Nat) → CheckedM (BlockView κ σ) Unit
  | 0, _ => pure ()
  | chunks + 1, stop => do
    let source := max start (stop - chunkSize)
    require (IsOffset (source + distance))
    checkedCopyChunk source stop (source + distance)
    checkedShiftUp start distance chunks source

def checkedShiftDown (stop distance : Nat) : (chunks start : Nat) → CheckedM (BlockView κ σ) Unit
  | 0, _ => pure ()
  | chunks + 1, start => do
    require (IsOffset (chunkSize + start))
    let next := min stop (start + chunkSize)
    require (distance ≤ start)
    checkedCopyChunk start next (start - distance)
    checkedShiftDown stop distance chunks next

def checkedOpenGap (index count : Nat) : CheckedM (BlockView κ σ) Unit := do
  let present ← checkedBlockCount
  let v ← get
  if count = 0 then lift (throw (.argument .insertsNothing))
  else if present < index then lift (throw (.range (.insertBeyond index present)))
  else do
    require (0 < v.blockSize)
    require (present ≤ v.maxBlockCount)
    if v.maxBlockCount - present < count then
      lift (throw (.argument (.tooManyBlocks count present v.maxBlockCount)))
    else do
      let length ← checkedInner CheckedStorage.length
      require (IsOffset (count * v.blockSize))
      require (IsOffset (index * v.blockSize))
      require (IsOffset (length + count * v.blockSize))
      require (index * v.blockSize ≤ length)
      let distance := count * v.blockSize
      let start := index * v.blockSize
      checkedInner (CheckedStorage.resize (length + distance))
      checkedShiftUp start distance (chunkCount (length - start)) length

def checkedCloseGap (index count : Nat) : CheckedM (BlockView κ σ) Unit := do
  let present ← checkedBlockCount
  let v ← get
  if count = 0 then lift (throw (.argument .deletesNothing))
  else if present < index + count then lift (throw (.range (.deleteBeyond count index present)))
  else do
    let length ← checkedInner CheckedStorage.length
    require (IsOffset (count * v.blockSize))
    require (IsOffset (index + count))
    require (IsOffset ((index + count) * v.blockSize))
    require ((index + count) * v.blockSize ≤ length)
    require (count * v.blockSize ≤ length)
    let distance := count * v.blockSize
    let start := (index + count) * v.blockSize
    checkedShiftDown length distance (chunkCount (length - start)) start
    checkedInner (CheckedStorage.resize (length - distance))

def checkedInsertBlocks [Audience κ ω] (index count : Nat) : CheckedM (BlockView κ σ × ω) Unit := do
  (checkedOpenGap index count).onFirst
  lift (announce (.inserted index count))

def checkedDeleteBlocks [Audience κ ω] (index count : Nat) : CheckedM (BlockView κ σ × ω) Unit := do
  (checkedCloseGap index count).onFirst
  lift (announce (.deleted index count))

instance : CheckedStorage (BlockView κ σ) where
  length := checkedInner CheckedStorage.length
  resize length := checkedInner (CheckedStorage.resize length)
  cursor := checkedInner CheckedStorage.cursor
  seek pos := checkedInner (CheckedStorage.seek pos)
  read n := checkedInner (CheckedStorage.read n)
  write data := checkedInner (CheckedStorage.write data)
  flush := checkedInner CheckedStorage.flush
  close := checkedInner CheckedStorage.close

instance [Counting σ] : Counting (BlockView κ σ) :=
  ⟨fun v => max v.register.next (counted v.inner)⟩

structure InBounds (Good : σ → Prop) (v : BlockView κ σ) : Prop where
  inner : Good v.inner
  blockSize : IsIndex v.blockSize

section Sure

omit [CheckedStorage σ] in
theorem counted_eq [Counting σ] (v : BlockView κ σ) :
    counted v = max v.register.next (counted v.inner) := rfl

omit [CheckedStorage σ] in
theorem next_le_counted [Counting σ] (v : BlockView κ σ) : v.register.next ≤ counted v := by
  rw [counted_eq]
  omega

omit [CheckedStorage σ] in
theorem counted_le_of_inner [Counting σ] {v : BlockView κ σ} {t : σ}
    (h : counted v.inner ≤ counted t) : counted v ≤ counted { v with inner := t } := by
  rw [counted_eq, counted_eq]
  dsimp only
  omega

omit [CheckedStorage σ] in
theorem counted_le_addListener [Counting σ] (listener : κ) (v : BlockView κ σ) :
    counted v ≤ counted (v.addListener listener).2 := by
  have hnext : (v.addListener listener).2.register.next = v.register.next + 1 := rfl
  have hinner : (v.addListener listener).2.inner = v.inner := rfl
  rw [counted_eq, counted_eq, hnext, hinner]
  omega

variable [Storage σ] [Counting σ] {size place : σ → Nat} {Good : σ → Prop} {v : BlockView κ σ}

omit [CheckedStorage σ] [Storage σ] [Counting σ] in
theorem InBounds.of_inner (hv : InBounds Good v) {t : σ} (ht : Good t) :
    InBounds Good { v with inner := t } := { hv with inner := ht }

omit [CheckedStorage σ] [Storage σ] in
theorem sure_inner {α : Type} {act : CheckedM σ α} {model : StoreM σ α} {mid : α → σ → Prop}
    (hv : InBounds Good v) (h : Sure act model v.inner mid fun _ => Good) :
    Sure (checkedInner act) (onInner model) v (fun a w => ∃ t, w = { v with inner := t } ∧ mid a t)
      fun _ => InBounds Good :=
  Sure.zoom (h.imp (fun _ t ht => ⟨t, rfl, ht⟩) fun _ _ ht => hv.of_inner ht)
    (fun _ => Nat.le_max_right _ _) fun _ hle => counted_le_of_inner hle

omit [CheckedStorage σ] [Storage σ] in
theorem sure_inner_keeps {α : Type} {act : CheckedM σ α} {model : StoreM σ α} (hv : InBounds Good v)
    (h : Sure act model v.inner (fun _ => Good) fun _ => Good) :
    Sure (checkedInner act) (onInner model) v (fun _ => InBounds Good) fun _ => InBounds Good := by
  apply (sure_inner hv h).imp_ok
  rintro _ _ ⟨t, rfl, ht⟩
  exact hv.of_inner ht

omit [CheckedStorage σ] [Storage σ] in
theorem sure_inner_yields {α : Type} {act : CheckedM σ α} {model : StoreM σ α} {good : α → σ → Prop}
    (hv : InBounds Good v) (h : Sure act model v.inner (fun a t => Good t ∧ good a t) fun _ => Good) :
    Sure (checkedInner act) (onInner model) v (fun a w => InBounds Good w ∧ good a w.inner)
      fun _ => InBounds Good := by
  apply (sure_inner hv h).imp_ok
  rintro _ _ ⟨t, rfl, ht, hgood⟩
  exact ⟨hv.of_inner ht, hgood⟩

variable (h : Secure size place Good)

include h

theorem secure : Secure (fun v : BlockView κ σ => size v.inner) (fun v => place v.inner)
    (InBounds Good) where
  size_le v hv := h.size_le v.inner hv.inner
  place_le v hv := h.place_le v.inner hv.inner
  length v hv := sure_inner_yields hv (h.length v.inner hv.inner)
  resize n v hv := sure_inner_keeps hv (h.resize n v.inner hv.inner)
  cursor v hv := sure_inner_yields hv (h.cursor v.inner hv.inner)
  seek pos v hv := sure_inner_keeps hv (h.seek pos v.inner hv.inner)
  read n v hv hn := sure_inner_yields hv (h.read n v.inner hv.inner hn)
  write data v hv hd := sure_inner_yields hv (h.write data v.inner hv.inner hd)
  flush v hv := sure_inner_keeps hv (h.flush v.inner hv.inner)
  close v hv := sure_inner_keeps hv (h.close v.inner hv.inner)

theorem sure_blockCount (hv : InBounds Good v) :
    Sure checkedBlockCount blockCount v
      (fun n w => ∃ t, w = { v with inner := t } ∧ Good t ∧ n = size v.inner / v.blockSize ∧
        size t = size v.inner) fun _ => InBounds Good := by
  apply (sure_inner hv (h.length v.inner hv.inner)).bind
  rintro n _ ⟨t, rfl, ht, rfl, hsize⟩
  apply sure_look_bind
  apply sure_require_bind v.blockSize_pos
  apply sure_get_bind
  exact sure_pure ⟨t, rfl, ht, rfl, hsize⟩

theorem sure_locate (hv : InBounds Good v) (block offset count : Nat) :
    Sure (checkedLocate block offset count) (locate block offset count) v
      (fun _ w => InBounds Good w ∧ IsIndex count) fun _ => InBounds Good := by
  have hsize := h.size_le v.inner hv.inner
  apply (sure_blockCount h hv).bind
  rintro present _ ⟨t, rfl, ht, rfl, -⟩
  have hw : InBounds Good { v with inner := t } := hv.of_inner ht
  apply sure_get_bind
  apply sure_ite (fun _ => sure_throw hw)
  intro hblock
  apply sure_ite (fun _ => sure_throw hw)
  intro hoffset
  have hend : block * v.blockSize + v.blockSize ≤ size v.inner := by
    rw [← Nat.succ_mul]
    exact Nat.le_trans (Nat.mul_le_mul_right _ (Nat.lt_of_not_le hblock)) (Nat.div_mul_le_self _ _)
  dsimp only at hoffset ⊢
  apply sure_require_bind (Nat.le_of_not_le hoffset)
  apply sure_ite (fun _ => sure_throw hw)
  intro hcount
  apply sure_require_bind (isOffset_of_le (by omega))
  apply sure_require_bind (isOffset_of_le (by omega))
  exact sure_pure ⟨hw, hv.blockSize.mono (by omega)⟩

theorem sure_readBlock (hv : InBounds Good v) (block offset count : Nat) :
    Sure (checkedReadBlock block offset count) (readBlock block offset count) v
      (fun _ => InBounds Good) fun _ => InBounds Good := by
  apply (sure_locate h hv block offset count).bind
  intro pos w ⟨hw, hcount⟩
  apply (sure_inner_keeps hw (h.seek pos w.inner hw.inner)).bind
  intro _ x hx
  have hread := Storage.sure_readExactly h hcount hx.inner
  exact sure_inner_keeps hx (hread.imp_ok fun _ _ ht => ht.1)

theorem sure_writeBlock (hv : InBounds Good v) (block offset : Nat) (data : Bytes) :
    Sure (checkedWriteBlock block offset data) (writeBlock block offset data) v
      (fun _ => InBounds Good) fun _ => InBounds Good := by
  apply (sure_locate h hv block offset data.size).bind
  intro pos w ⟨hw, hdata⟩
  apply (sure_inner_keeps hw (h.seek pos w.inner hw.inner)).bind
  intro _ x hx
  have hwrite := h.write data x.inner hx.inner hdata
  exact sure_inner_keeps hx (hwrite.imp_ok fun _ _ ht => ht.1)

theorem sure_copyChunk (hv : InBounds Good v) {source stop target : Nat} (hle : source ≤ stop)
    (hchunk : stop - source ≤ chunkSize) :
    Sure (checkedCopyChunk source stop target) (copyChunk source (stop - source) target) v
      (fun _ => InBounds Good) fun _ => InBounds Good := by
  have hcount : IsIndex (stop - source) :=
    isIndex_of_lt (Nat.lt_of_le_of_lt hchunk (by decide))
  apply sure_require_bind ⟨hle, hcount⟩
  apply (sure_inner_keeps hv (h.seek source v.inner hv.inner)).bind
  intro _ w hw
  apply (sure_inner_yields hw (Storage.sure_readExactly h hcount hw.inner)).bind
  intro data x ⟨hx, hdata⟩
  apply (sure_inner_keeps hx (h.seek target x.inner hx.inner)).bind
  intro _ y hy
  have hwrite := h.write data y.inner hy.inner (hcount.mono hdata)
  exact sure_inner_keeps hy (hwrite.imp_ok fun _ _ ht => ht.1)

theorem sure_shiftUp {start distance : Nat} (chunks : Nat) {stop : Nat} (hv : InBounds Good v)
    (hle : start ≤ stop) (hfit : stop + distance ≤ maxPosition + maxPosition) :
    Sure (checkedShiftUp start distance chunks stop) (shiftUp start distance chunks stop) v
      (fun _ => InBounds Good) fun _ => InBounds Good := by
  induction chunks generalizing stop v with
  | zero => exact sure_pure hv
  | succ chunks ih =>
    have hsource : max start (stop - chunkSize) ≤ stop := by omega
    apply sure_require_bind (isOffset_of_le (by omega))
    apply (sure_copyChunk h hv hsource (by omega)).bind
    intro _ w hw
    exact ih hw (Nat.le_max_left _ _) (by omega)

theorem sure_shiftDown {stop distance : Nat} (hstop : stop ≤ maxPosition) (chunks : Nat) {start : Nat}
    (hv : InBounds Good v) (hle : start ≤ stop) (hdistance : distance ≤ start) :
    Sure (checkedShiftDown stop distance chunks start) (shiftDown stop distance chunks start) v
      (fun _ => InBounds Good) fun _ => InBounds Good := by
  induction chunks generalizing start v with
  | zero => exact sure_pure hv
  | succ chunks ih =>
    have hchunk : chunkSize ≤ maxPosition := by decide
    have hnext : start ≤ min stop (start + chunkSize) := by omega
    apply sure_require_bind (isOffset_of_le (by omega))
    apply sure_require_bind hdistance
    apply (sure_copyChunk h hv hnext (by omega)).bind
    intro _ w hw
    exact ih hw (Nat.min_le_left _ _) (Nat.le_trans hdistance hnext)

/-- There are no more blocks after an insertion than a store may have, so the first block behind the new
ones has a number of 64 bits. -/
theorem sure_openGap (hv : InBounds Good v) (index count : Nat) :
    Sure (checkedOpenGap index count) (openGap index count) v
      (fun _ w => InBounds Good w ∧ IsOffset (index + count)) fun _ => InBounds Good := by
  have hsize := h.size_le v.inner hv.inner
  apply (sure_blockCount h hv).bind
  rintro present _ ⟨t, rfl, ht, rfl, hsame⟩
  have hw := hv.of_inner ht
  apply sure_get_bind
  apply sure_ite (fun _ => sure_throw hw)
  intro _
  apply sure_ite (fun _ => sure_throw hw)
  intro hindex
  have hpresent : size v.inner / v.blockSize ≤ maxPosition / v.blockSize :=
    Nat.div_le_div_right hsize
  apply sure_require_bind v.blockSize_pos
  apply sure_require_bind hpresent
  apply sure_ite (fun _ => sure_throw hw)
  intro hcount
  have hcount : index + count ≤ maxPosition / v.blockSize := by
    unfold maxBlockCount at hcount
    dsimp only at hcount
    omega
  apply (sure_inner hw (h.length t ht)).bind
  rintro length _ ⟨u, rfl, hu, hlength, -⟩
  have hstart : index * v.blockSize ≤ length := by
    rw [hlength, hsame]
    exact Nat.le_trans (Nat.mul_le_mul_right _ (Nat.le_of_not_lt hindex)) (Nat.div_mul_le_self _ _)
  have hdistance : count * v.blockSize ≤ maxPosition :=
    Nat.le_trans (Nat.mul_le_mul_right _ (by omega)) (Nat.div_mul_le_self _ v.blockSize)
  have hlast : index + count ≤ maxPosition := Nat.le_trans hcount (Nat.div_le_self _ _)
  rw [← hsame, ← hlength] at hsize
  have hmoved : length + count * v.blockSize ≤ maxPosition + maxPosition := by omega
  apply sure_require_bind (isOffset_of_le (Nat.le_trans (Nat.le_add_left _ _) hmoved))
  apply sure_require_bind (isOffset_of_le (Nat.le_trans hstart (by omega)))
  apply sure_require_bind (isOffset_of_le hmoved)
  apply sure_require_bind hstart
  apply (sure_inner (hw.of_inner hu) (h.resize _ u hu)).bind
  rintro _ _ ⟨x, rfl, hx⟩
  apply (sure_shiftUp h _ (hv.of_inner hx) hstart hmoved).imp_ok
  intro _ _ hend
  exact ⟨hend, isOffset_of_le (by omega)⟩

theorem sure_shiftDown_resize (hv : InBounds Good v) {length distance start : Nat} (chunks : Nat)
    (hlength : length ≤ maxPosition) (hstart : start ≤ length) (hdistance : distance ≤ start) :
    Sure
      (do
        checkedShiftDown length distance chunks start
        checkedInner (CheckedStorage.resize (length - distance)))
      (do
        shiftDown length distance chunks start
        onInner (Storage.resize (length - distance)))
      v (fun _ => InBounds Good) fun _ => InBounds Good := by
  apply (sure_shiftDown h hlength chunks hv hstart hdistance).bind
  intro _ w hw
  exact sure_inner_keeps hw (h.resize _ w.inner hw.inner)

theorem sure_closeGap (hv : InBounds Good v) (index count : Nat) :
    Sure (checkedCloseGap index count) (closeGap index count) v (fun _ => InBounds Good)
      fun _ => InBounds Good := by
  have hsize := h.size_le v.inner hv.inner
  apply (sure_blockCount h hv).bind
  rintro present _ ⟨t, rfl, ht, rfl, hsame⟩
  have hw := hv.of_inner ht
  apply sure_get_bind
  apply sure_ite (fun _ => sure_throw hw)
  intro _
  apply sure_ite (fun _ => sure_throw hw)
  intro hrange
  apply (sure_inner hw (h.length t ht)).bind
  rintro length _ ⟨u, rfl, hu, hlength, -⟩
  have hstart : (index + count) * v.blockSize ≤ length := by
    rw [hlength, hsame]
    exact Nat.le_trans (Nat.mul_le_mul_right _ (Nat.le_of_not_lt hrange)) (Nat.div_mul_le_self _ _)
  have hdistance : count * v.blockSize ≤ (index + count) * v.blockSize :=
    Nat.mul_le_mul_right _ (Nat.le_add_left _ _)
  have hlast : index + count ≤ (index + count) * v.blockSize :=
    Nat.le_mul_of_pos_right _ v.blockSize_pos
  rw [← hsame, ← hlength] at hsize
  have hbehind : (index + count) * v.blockSize ≤ maxPosition + maxPosition := by omega
  apply sure_require_bind (isOffset_of_le (Nat.le_trans hdistance hbehind))
  apply sure_require_bind (isOffset_of_le (Nat.le_trans hlast hbehind))
  apply sure_require_bind (isOffset_of_le hbehind)
  apply sure_require_bind hstart
  apply sure_require_bind (Nat.le_trans hdistance hstart)
  exact sure_shiftDown_resize h (hw.of_inner hu) _ hsize hstart hdistance

theorem sure_readBlockWithin (hv : InBounds Good v) {buffer : Bytes} (hbuffer : IsIndex buffer.size)
    (block offset start count : Nat) :
    Sure (checkedReadBlockWithin block offset buffer start count)
      (readBlockWithin block offset buffer start count) v (fun _ => InBounds Good)
      fun _ => InBounds Good := by
  apply sure_checkSlice_bind fun _ => hv
  intro hslice
  apply sure_require_bind (lies_of_le hbuffer hslice)
  exact (sure_readBlock h hv block offset count).bind fun _ _ hw => sure_pure hw

theorem sure_writeBlockWithin (hv : InBounds Good v) {buffer : Bytes} (hbuffer : IsIndex buffer.size)
    (block offset start count : Nat) :
    Sure (checkedWriteBlockWithin block offset buffer start count)
      (writeBlockWithin block offset buffer start count) v (fun _ => InBounds Good)
      fun _ => InBounds Good := by
  apply sure_checkSlice_bind fun _ => hv
  intro hslice
  apply sure_require_bind (lies_of_le hbuffer hslice)
  exact sure_writeBlock h hv block offset _

variable [Audience κ ω] {p : BlockView κ σ × ω}

theorem sure_insertBlocks (hp : Beside (InBounds Good) p) (index count : Nat) :
    Sure (checkedInsertBlocks index count) (insertBlocks index count) p
      (fun _ q => Beside (InBounds Good) q ∧ IsOffset (index + count))
      fun _ => Beside (InBounds Good) := by
  have hgap : Sure (checkedOpenGap index count).onFirst (onFirst (openGap index count)) p
      (fun _ q => Beside (InBounds Good) q ∧ IsOffset (index + count))
      fun _ => Beside (InBounds Good) := (sure_openGap h hp index count).onFirst
  apply hgap.bind
  intro _ q ⟨hq, hlast⟩
  have hheard : (announce (.inserted index count)).Ends (Beside (InBounds Good)) q :=
    meets_get_bind (ends_onSecond hq _)
  exact sure_lift (hheard.imp_ok fun _ _ hr => ⟨hr, hlast⟩) (Nat.le_refl _)

theorem sure_deleteBlocks (hp : Beside (InBounds Good) p) (index count : Nat) :
    Sure (checkedDeleteBlocks index count) (deleteBlocks index count) p
      (fun _ => Beside (InBounds Good)) fun _ => Beside (InBounds Good) := by
  have hgap : Sure (checkedCloseGap index count).onFirst (onFirst (closeGap index count)) p
      (fun _ => Beside (InBounds Good)) fun _ => Beside (InBounds Good) :=
    (sure_closeGap h hp index count).onFirst
  apply hgap.bind
  intro _ q hq
  have hheard : (announce (.deleted index count)).Ends (Beside (InBounds Good)) q :=
    meets_get_bind (ends_onSecond hq _)
  exact sure_lift hheard (Nat.le_refl _)

end Sure

end BlockView

namespace BlockCall

variable {κ ω σ ρ : Type} [Audience κ ω] [Storage σ] [CheckedStorage σ]

def Fits : BlockCall κ → Prop
  | readWithin _ _ buffer _ _ => IsIndex buffer.size
  | writeWithin _ _ buffer _ _ => IsIndex buffer.size
  | _ => True

def checked : BlockCall κ → CheckedM (BlockView κ σ × ω) (Answer ρ)
  | count => return .number (← BlockView.checkedBlockCount.onFirst)
  | read block offset n => return .data (← (BlockView.checkedReadBlock block offset n).onFirst)
  | readWithin block offset buffer start n =>
    return .data (← (BlockView.checkedReadBlockWithin block offset buffer start n).onFirst)
  | write block offset data => do
    (BlockView.checkedWriteBlock block offset data).onFirst
    return .done
  | writeWithin block offset buffer start n => do
    (BlockView.checkedWriteBlockWithin block offset buffer start n).onFirst
    return .done
  | insert index n => do
    BlockView.checkedInsertBlocks index n
    -- whoever goes on to fill the new blocks counts up to this number
    require (IsOffset (index + n))
    return .done
  | delete index n => do
    BlockView.checkedDeleteBlocks index n
    return .done
  | addListener listener => do
    countTo ((← get).1.register.next + 1)
    lift (addListener listener).run
  | eraseListener id => lift (eraseListener id).run

variable [Counting σ] {size place : σ → Nat} {Good : σ → Prop} {p : BlockView κ σ × ω}

open BlockView (InBounds)

theorem sure_run (h : Secure size place Good) (hp : Beside (InBounds Good) p) {call : BlockCall κ}
    (hfits : call.Fits) : Sure (call.checked (ρ := ρ)) call.run p (fun _ => Beside (InBounds Good))
      fun _ => Beside (InBounds Good) := by
  have hdone : ∀ {q : BlockView κ σ × ω} (a : Answer ρ), Beside (InBounds Good) q →
      Sure (pure a) (pure a) q (fun _ => Beside (InBounds Good)) fun _ => Beside (InBounds Good) :=
    fun _ hq => sure_pure hq
  cases call with
  | count =>
    have hcount : Sure BlockView.checkedBlockCount.onFirst (onFirst BlockView.blockCount) p
        (fun _ => Beside (InBounds Good)) fun _ => Beside (InBounds Good) := by
      apply Sure.onFirst
      apply (BlockView.sure_blockCount h hp).imp_ok
      rintro n _ ⟨t, rfl, ht, -⟩
      exact hp.of_inner ht
    exact hcount.bind fun _ _ hq => hdone _ hq
  | read block offset n =>
    exact (BlockView.sure_readBlock h hp block offset n).onFirst.bind fun _ _ hq => hdone _ hq
  | readWithin block offset buffer start n =>
    exact (BlockView.sure_readBlockWithin h hp hfits block offset start n).onFirst.bind
      fun _ _ hq => hdone _ hq
  | write block offset data =>
    exact (BlockView.sure_writeBlock h hp block offset data).onFirst.bind fun _ _ hq => hdone _ hq
  | writeWithin block offset buffer start n =>
    exact (BlockView.sure_writeBlockWithin h hp hfits block offset start n).onFirst.bind
      fun _ _ hq => hdone _ hq
  | insert index n =>
    apply (BlockView.sure_insertBlocks h hp index n).bind
    intro _ q ⟨hq, hlast⟩
    exact sure_require_bind hlast (hdone _ hq)
  | delete index n =>
    exact (BlockView.sure_deleteBlocks h hp index n).bind fun _ _ hq => hdone _ hq
  | addListener listener =>
    have hkept : Beside (InBounds Good) ((addListener listener).run (ρ := ρ).run p).2 := ⟨hp.1, hp.2⟩
    have hcounts := BlockView.counted_le_addListener listener p.1
    apply sure_look_bind
    refine sure_countTo_bind ?_ (sure_lift (ends_iff.2 hkept) hcounts)
    exact BlockView.next_le_counted (p.1.addListener listener).2
  | eraseListener id =>
    have hkept : Beside (InBounds Good) ((eraseListener id).run (ρ := ρ).run p).2 := ⟨hp.1, hp.2⟩
    exact sure_lift (ends_iff.2 hkept) (Nat.le_refl _)

end BlockCall

end ByteTower
