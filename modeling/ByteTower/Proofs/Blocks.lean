import ByteTower.Proofs.BlockView
import ByteTower.Proofs.Mimicry
import ByteTower.Proofs.Transfer

namespace ByteTower

theorem Contract.matches {σ : Type} [Storage σ] [Meaning σ] {Good : σ → Prop}
    (h : Contract .never Good) : Matches Good plain where
  length s hs := (h.length s hs).mimics
  resize n s hs := (h.resize n s hs).mimics
  seek pos s hs := (h.seek pos s hs).mimics
  readExactly n _ hs := (h.toReading.readExactly hs n).mimics
  write data s hs := (h.write data s hs).mimics

namespace BlockView

open StoreM

section Bare

variable {κ σ : Type} [Meaning σ]

def bare (b : BlockView κ σ) : BlockView κ Memory :=
  ⟨plain b.inner, b.blockSize, b.blockSize_pos, b.register⟩

variable {b : BlockView κ σ}

theorem bare_of_kept {c : BlockView κ σ} (hsize : c.blockSize = b.blockSize)
    (hregister : c.register = b.register) : { bare b with inner := plain c } = bare c := by
  obtain ⟨inner, size, hpos, register⟩ := c
  obtain rfl := hsize
  obtain rfl := hregister
  rfl

theorem wrap_bare {size : Nat} {s : σ} (hw : wrap size s = .ok b) :
    wrap size (plain s) = .ok (bare b) := by
  obtain ⟨hsize, rfl⟩ := wrap_eq_ok.1 hw
  exact wrap_eq_ok.2 ⟨hsize, rfl⟩

end Bare

def Over {κ σ : Type} (Good : σ → Prop) (b : BlockView κ σ) : Prop := Good b.inner

def mapInner {κ σ τ : Type} (g : σ → τ) (b : BlockView κ σ) : BlockView κ τ :=
  ⟨g b.inner, b.blockSize, b.blockSize_pos, b.register⟩

theorem kept {κ σ : Type} [Storage σ] (size : Nat) (register : Register κ) :
    Kept fun b : BlockView κ σ => b.blockSize = size ∧ b.register = register where
  length _ hb := hb
  resize _ _ hb := hb
  cursor _ hb := hb
  seek _ _ hb := hb
  read _ _ hb := hb
  write _ _ hb := hb
  flush _ hb := hb
  close _ hb := hb

variable {κ σ τ : Type} {Good : σ → Prop} {view : σ → τ} {b : BlockView κ σ}

theorem mimics_onInner {α : Type} {act : StoreM σ α} {model : StoreM τ α}
    (h : Mimics Good view act model b.inner) :
    Mimics (Over Good) (mapInner view) (onInner act) (onInner model) b :=
  h.zoom (fun _ ht => ht) rfl fun _ => rfl

variable [Storage σ] [Storage τ]

theorem readsLike (h : ReadsLike Good view) : ReadsLike (Over (κ := κ) Good) (mapInner view) where
  length b hb := mimics_onInner (h.length b.inner hb)
  cursor b hb := mimics_onInner (h.cursor b.inner hb)
  seek pos b hb := mimics_onInner (h.seek pos b.inner hb)
  read n b hb := mimics_onInner (h.read n b.inner hb)

theorem imitates (h : Imitates Good view) : Imitates (Over (κ := κ) Good) (mapInner view) where
  toReadsLike := readsLike h.toReadsLike
  resize n b hb := mimics_onInner (h.resize n b.inner hb)
  write data b hb := mimics_onInner (h.write data b.inner hb)
  flush b hb := mimics_onInner (h.flush b.inner hb)

variable (h : Matches Good view) (hb : Over Good b)

include h hb

theorem mimics_blockCount : Mimics (Over Good) (mapInner view) blockCount blockCount b := by
  apply (mimics_onInner (h.length b.inner hb)).bind
  intro length c hc
  exact mimics_get_bind (mimics_pure hc (length / c.blockSize))

theorem mimics_locate (block offset count : Nat) :
    Mimics (Over Good) (mapInner view) (locate block offset count) (locate block offset count) b := by
  apply (mimics_blockCount h hb).bind
  intro present c hc
  apply mimics_get_bind
  apply mimics_ite (fun _ => mimics_throw hc _)
  intro _
  apply mimics_ite (fun _ => mimics_throw hc _)
  intro _
  exact mimics_ite (fun _ => mimics_throw hc _) fun _ => mimics_pure hc _

theorem mimics_readBlock (block offset count : Nat) :
    Mimics (Over Good) (mapInner view) (readBlock block offset count) (readBlock block offset count) b := by
  apply (mimics_locate h hb block offset count).bind
  intro pos c hc
  apply (mimics_onInner (h.seek pos c.inner hc)).bind
  intro _ d hd
  exact mimics_onInner (h.readExactly count d.inner hd)

theorem mimics_writeBlock (block offset : Nat) (data : Bytes) :
    Mimics (Over Good) (mapInner view) (writeBlock block offset data) (writeBlock block offset data) b := by
  apply (mimics_locate h hb block offset data.size).bind
  intro pos c hc
  apply (mimics_onInner (h.seek pos c.inner hc)).bind
  intro _ d hd
  exact mimics_onInner (h.write data d.inner hd)

theorem mimics_readBlockWithin (block offset : Nat) (buffer : Bytes) (start count : Nat) :
    Mimics (Over Good) (mapInner view) (readBlockWithin block offset buffer start count)
      (readBlockWithin block offset buffer start count) b := by
  apply (mimics_checkSlice hb buffer.size start count).bind
  intro _ c hc
  apply (mimics_readBlock h hc block offset count).bind
  intro data d hd
  exact mimics_pure hd _

theorem mimics_writeBlockWithin (block offset : Nat) (buffer : Bytes) (start count : Nat) :
    Mimics (Over Good) (mapInner view) (writeBlockWithin block offset buffer start count)
      (writeBlockWithin block offset buffer start count) b := by
  apply (mimics_checkSlice hb buffer.size start count).bind
  intro _ c hc
  exact mimics_writeBlock h hc block offset _

theorem mimics_copyChunk (source count target : Nat) :
    Mimics (Over Good) (mapInner view) (copyChunk source count target) (copyChunk source count target) b := by
  apply (mimics_onInner (h.seek source b.inner hb)).bind
  intro _ c hc
  apply (mimics_onInner (h.readExactly count c.inner hc)).bind
  intro data d hd
  apply (mimics_onInner (h.seek target d.inner hd)).bind
  intro _ e he
  exact mimics_onInner (h.write data e.inner he)

theorem mimics_shiftUp (start distance chunks stop : Nat) :
    Mimics (Over Good) (mapInner view) (shiftUp start distance chunks stop) (shiftUp start distance chunks stop)
      b := by
  induction chunks generalizing stop b with
  | zero => exact mimics_pure hb ()
  | succ chunks ih => exact (mimics_copyChunk h hb _ _ _).bind fun _ c hc => ih hc _

theorem mimics_shiftDown (stop distance chunks start : Nat) :
    Mimics (Over Good) (mapInner view) (shiftDown stop distance chunks start)
      (shiftDown stop distance chunks start) b := by
  induction chunks generalizing start b with
  | zero => exact mimics_pure hb ()
  | succ chunks ih => exact (mimics_copyChunk h hb _ _ _).bind fun _ c hc => ih hc _

theorem mimics_openGap (index count : Nat) :
    Mimics (Over Good) (mapInner view) (openGap index count) (openGap index count) b := by
  refine (mimics_blockCount h hb).bind fun present c hc => mimics_get_bind ?_
  apply mimics_ite (fun _ => mimics_throw hc _)
  intro _
  apply mimics_ite (fun _ => mimics_throw hc _)
  intro _
  apply mimics_ite (fun _ => mimics_throw hc _)
  intro _
  apply (mimics_onInner (h.length c.inner hc)).bind
  intro length d hd
  apply (mimics_onInner (h.resize _ d.inner hd)).bind
  intro _ e he
  exact mimics_shiftUp h he _ _ _ _

theorem mimics_closeGap (index count : Nat) :
    Mimics (Over Good) (mapInner view) (closeGap index count) (closeGap index count) b := by
  refine (mimics_blockCount h hb).bind fun present c hc => mimics_get_bind ?_
  apply mimics_ite (fun _ => mimics_throw hc _)
  intro _
  apply mimics_ite (fun _ => mimics_throw hc _)
  intro _
  apply (mimics_onInner (h.length c.inner hc)).bind
  intro length d hd
  apply (mimics_shiftDown h hd _ _ _ _).bind
  intro _ e he
  exact mimics_onInner (h.resize _ e.inner he)

section Listeners

variable {ω : Type} [Audience κ ω] {p : BlockView κ σ × ω} (hp : Beside (Over Good) p)

include hp

omit [Storage σ] [Storage τ] h hb in
theorem mimics_announce (change : Change) :
    Mimics (Beside (Over Good)) (beside (mapInner view)) (announce change) (announce change) p :=
  mimics_get_bind (mimics_onSecond hp _)

omit hb in
/-- Inserting blocks moves the same bytes and tells the same listeners, in the same order. -/
theorem mimics_insertBlocks (index count : Nat) :
    Mimics (Beside (Over Good)) (beside (mapInner view)) (insertBlocks index count) (insertBlocks index count)
      p :=
  (mimics_openGap h hp index count).onFirst.bind fun _ _ hq => mimics_announce hq _

omit hb in
theorem mimics_deleteBlocks (index count : Nat) :
    Mimics (Beside (Over Good)) (beside (mapInner view)) (deleteBlocks index count) (deleteBlocks index count)
      p :=
  (mimics_closeGap h hp index count).onFirst.bind fun _ _ hq => mimics_announce hq _

end Listeners

end BlockView

end ByteTower
