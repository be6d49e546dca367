import ByteTower.Block.View
import ByteTower.Proofs.Memory

namespace ByteTower.BlockView

open StoreM

variable {κ σ : Type} [Meaning σ]

instance : Meaning (BlockView κ σ) := ⟨fun b => plain b.inner⟩

variable {f : Failures} {Good After : σ → Prop} {b : BlockView κ σ}

theorem follows_onInner {α : Type} {loss : Memory → Memory → Prop} {act : StoreM σ α}
    {models : StoreM Memory α → Prop} (h : Follows f Good After loss act models b.inner) :
    Follows f (fun c : BlockView κ σ => Good c.inner) (fun c => After c.inner) loss (onInner act)
      models b :=
  Meets.zoom h

variable [Storage σ]

theorem reading (h : Reading f Good) : Reading f fun b : BlockView κ σ => Good b.inner where
  length b hb := follows_onInner (h.length b.inner hb)
  cursor b hb := follows_onInner (h.cursor b.inner hb)
  seek pos b hb := follows_onInner (h.seek pos b.inner hb)
  read n b hb := follows_onInner (h.read n b.inner hb)
  flush b hb := follows_onInner (h.flush b.inner hb)
  close b hb := follows_onInner (h.close b.inner hb)
  isClosed b hb := h.isClosed b.inner hb
  bounded b hb := h.bounded b.inner hb

theorem writing (h : Writing f Good After) :
    Writing f (fun b : BlockView κ σ => Good b.inner) fun b => After b.inner where
  still b hb := h.still b.inner hb
  resize n b hb := follows_onInner (h.resize n b.inner hb)
  write data b hb := follows_onInner (h.write data b.inner hb)

theorem tracks {v : Nat → Bytes → Prop} {Good : Nat → σ → Prop} (h : Tracks f v Good) :
    Tracks f v fun i (b : BlockView κ σ) => Good i b.inner where
  reading i := reading (h.reading i)
  writing i j hij := writing (h.writing i j hij)
  respects := h.respects

omit [Meaning σ] [Storage σ] in
theorem wrap_eq_ok {size : Nat} {s : σ} :
    wrap size s = .ok b ↔
      ∃ hsize : 0 < size, b = { inner := s, blockSize := size, blockSize_pos := hsize } := by
  unfold wrap
  constructor
  · intro hw
    split at hw
    case isTrue hsize => exact ⟨hsize, (Except.ok.inj hw).symm⟩
    case isFalse => cases hw
  · rintro ⟨hsize, rfl⟩
    rw [dif_pos hsize]

omit [Meaning σ] [Storage σ] in
theorem of_wrap {size : Nat} {s : σ} (hw : wrap size s = .ok b) : b.inner = s := by
  obtain ⟨_, rfl⟩ := wrap_eq_ok.1 hw
  rfl

omit [Meaning σ] [Storage σ] in
theorem blockSize_of_wrap {size : Nat} {s : σ} (hw : wrap size s = .ok b) : b.blockSize = size := by
  obtain ⟨_, rfl⟩ := wrap_eq_ok.1 hw
  rfl

end ByteTower.BlockView
