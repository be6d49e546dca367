import ByteTower.Layer.ReadAhead
import ByteTower.Proofs.Memory
import ByteTower.Proofs.Window

namespace ByteTower.ReadAhead

open StoreM

theorem wrap_eq_ok {σ : Type} [Storage σ] {size : Nat} {s : σ} {c : ReadAhead σ} :
    wrap size s = .ok c ↔ ∃ (hsize : 0 < size) (cursor : Nat) (t : σ),
      (Storage.cursor : StoreM σ Nat).run s = (.ok cursor, t) ∧
        c = { inner := t, windowSize := size, windowSize_pos := hsize, cursor } := by
  unfold wrap
  constructor
  · intro hw
    split at hw
    case isFalse => cases hw
    case isTrue hsize =>
      split at hw
      case h_1 cursor t hrun => exact ⟨hsize, cursor, t, hrun, (Except.ok.inj hw).symm⟩
      case h_2 => cases hw
  · rintro ⟨hsize, cursor, t, hrun, rfl⟩
    rw [dif_pos hsize, hrun]

variable {σ : Type} [Meaning σ]

instance : Meaning (ReadAhead σ) :=
  ⟨fun c => { bytes := (plain c.inner).bytes, cursor := c.cursor, closed := c.closed }⟩

/-- A layer of window size `size` over a good store, open or closed together with it, whose window
mirrors it. -/
structure Sound (Good : σ → Prop) (size : Nat) (c : ReadAhead σ) : Prop where
  inner : Good c.inner
  closed : (plain c.inner).closed = c.closed
  windowSize : c.windowSize = size
  mirrors : c.window.Mirrors (plain c.inner).bytes
  valid_le : c.window.valid ≤ size

variable {Good After : σ → Prop} {f : Failures} {size : Nat} {c : ReadAhead σ} {t : σ}

theorem Sound.of_inner (hc : Sound Good size c) (ht : After t)
    (hb : (plain t).bytes = (plain c.inner).bytes)
    (ho : (plain t).closed = (plain c.inner).closed) : Sound After size { c with inner := t } :=
  ⟨ht, ho.trans hc.closed, hc.windowSize, hb ▸ hc.mirrors, hc.valid_le⟩

theorem plain_of_inner (hb : (plain t).bytes = (plain c.inner).bytes) :
    plain { c with inner := t } = plain c :=
  congrArg (fun b : Bytes => ({ bytes := b, cursor := c.cursor, closed := c.closed } : Memory)) hb

theorem missed_of_inner (hc : Sound Good size c) (ht : Missed f Good c.inner t) :
    Missed f.steady (Sound Good size) c { c with inner := t } :=
  ⟨hc.of_inner ht.1 ht.2.2.1 ht.2.2.2.1, ht.2.1, plain_of_inner ht.2.2.1 ▸ Failures.Spares.rfl⟩

theorem meets_onInner {α : Type} {act : StoreM σ α} {good : α → σ → Prop} (hc : Sound Good size c)
    (h : act.Meets c.inner good fun _ t => Missed f Good c.inner t) :
    (onInner act).Meets c (fun a c' => ∃ t, c' = { c with inner := t } ∧ good a t)
      fun _ c' => Missed f.steady (Sound Good size) c c' :=
  Meets.zoom (h.imp (fun _ t ht => ⟨t, rfl, ht⟩) fun _ _ ht => missed_of_inner hc ht)

theorem Sound.adopt (hc : Sound Good size c) {pos : Nat} {data : Bytes}
    (hd : data = (plain c).bytes.slice pos data.size) (hsize : data.size ≤ size) :
    Sound Good size (c.adopt pos data) :=
  { hc with mirrors := Window.mirrors_fetched c.spare hd, valid_le := hsize }

theorem Sound.invalidate (hc : Sound Good size c) : Sound Good size c.invalidate :=
  { hc with mirrors := Window.mirrors_invalidate _ _, valid_le := Nat.zero_le _ }

variable [Storage σ] (h : Reading f Good) (hc : Sound Good size c)

section Open

variable (ho : c.closed = false)

include h hc ho

theorem meets_inner_length :
    (onInner Storage.length).Meets c
      (fun n c' => Sound Good size c' ∧ n = (plain c).bytes.size ∧ plain c' = plain c)
      fun _ c' => Missed f.steady (Sound Good size) c c' := by
  apply (meets_onInner hc (h.meets_length hc.inner (hc.closed.trans ho))).imp_ok
  rintro n _ ⟨t, rfl, ht, rfl, hp⟩
  exact ⟨hc.of_inner ht (by rw [hp]) (by rw [hp]), rfl, plain_of_inner (by rw [hp])⟩

theorem meets_length :
    (Storage.length : StoreM (ReadAhead σ) Nat).Meets c
      (fun n c' => Sound Good size c' ∧ n = (plain c).bytes.size ∧ plain c' = plain c)
      fun _ c' => Missed f.steady (Sound Good size) c c' :=
  meets_get_bind (meets_requireOpen_bind ho (meets_inner_length h hc ho))

/-- A fetch changes nothing of what the layer stands for. If bytes come, they are the window. -/
theorem meets_refill (hcur : c.cursor < (plain c).bytes.size) :
    (refill c.cursor (plain c).bytes.size).Meets c
      (fun _ c' => Sound Good size c' ∧ plain c' = plain c ∧ c'.window.start = c'.cursor ∧
        0 < c'.window.valid)
      fun _ c' => Missed f.steady (Sound Good size) c c' := by
  have hw := c.windowSize_pos
  have hfit : f.occur ∨ c.cursor ≤ maxPosition :=
    (h.bounded c.inner hc.inner).imp id fun hb => Nat.le_trans (Nat.le_of_lt hcur) hb
  refine meets_get_bind (meets_modify_bind ?_)
  -- the buffer to fetch into is not the window, so nothing is lost where the fetch fails
  have hc₁ : Sound Good size { c with
      spare := c.spare.resize (min c.windowSize ((plain c).bytes.size - c.cursor)) } :=
    { hc with }
  apply (meets_onInner hc₁ (h.meets_seek hc.inner (hc.closed.trans ho) hfit)).bind
  rintro _ _ ⟨t, rfl, ht, hp⟩
  have hc₂ := hc₁.of_inner ht (by rw [hp]) (by rw [hp])
  have hp₂ := plain_of_inner (c := c) (t := t) (by rw [hp])
  have hread := (h.read (min c.windowSize ((plain c).bytes.size - c.cursor)) t ht).meets_read
    (by rw [hp]; exact hc.closed.trans ho) (by rw [hp]; exact hcur)
  refine ((meets_onInner hc₂ hread).imp_error fun _ _ hb =>
    hb.of_plain hp₂).bind ?_
  rintro _ _ ⟨t', rfl, ht', k, hk, hpos, rfl, hp'⟩
  simp only [hp] at hp' hpos
  have hc₃ := hc₂.of_inner ht' (by rw [hp', hp]) (by rw [hp', hp])
  have hp₃ := (plain_of_inner (c := { c with inner := t }) (t := t') (by rw [hp', hp])).trans hp₂
  have hsize : ((plain c.inner).bytes.slice c.cursor k).size =
    min k ((plain c.inner).bytes.size - c.cursor) := Bytes.size_slice _ _ _
  have hcur' : c.cursor < (plain c.inner).bytes.size := hcur
  simp only [ReadResult.data, hp]
  split
  case isTrue hz =>
    -- only where reads may fail can one come back empty before the end
    have hocc : f.occur := by
      rcases hpos with hocc | hzero | hpos
      · exact hocc
      · simp only [plain] at hzero
        omega
      · omega
    exact meets_throw ⟨hc₃, hocc, hp₃ ▸ Failures.Spares.rfl⟩
  case isFalse hz =>
    refine meets_modify ⟨hc₃.adopt ?_ ?_, hp₃, rfl, Nat.pos_of_ne_zero hz⟩
    · change _ = (plain t').bytes.slice c.cursor _
      rw [hp', Bytes.slice_size]
    · rw [hsize, ← hc.windowSize]
      exact Nat.le_trans (Nat.min_le_left _ _) (Nat.le_trans hk (Nat.min_le_left _ _))

omit [Storage σ] h in
theorem meets_serve {wanted n : Nat} (hwanted : wanted ≤ n) (hpos : 0 < wanted)
    (hstart : c.window.start ≤ c.cursor) (hstop : c.cursor < c.window.stop)
    (bad : StoreError → ReadAhead σ → Prop) :
    (serve wanted).Meets c
      (fun r c' => Sound Good size c' ∧ Answers (f.Shortened n) (plain c) (.ok r) (plain c')) bad := by
  have hdata := hc.mirrors.read (n := wanted) hstart
  have hend : c.window.stop ≤ (plain c).bytes.size :=
    hc.mirrors.stop_le (by unfold Window.stop at hstop; omega)
  have hrun := Memory.run_read ho (min wanted (c.window.stop - c.cursor))
    (Nat.lt_of_lt_of_le hstop hend)
  refine meets_get_bind (meets_set_bind (meets_pure
    ⟨{ hc with },
      answers_read (k := min wanted (c.window.stop - c.cursor)) (by omega) (by omega) ?_⟩))
  rw [hrun, hdata]
  rfl

/-- Whatever the wrapped store does, no read of the layer comes back empty before the end. -/
theorem meets_read (g : Failures) (n : Nat) :
    (Storage.read n : StoreM (ReadAhead σ) ReadResult).Meets c
      (fun r c' => Sound Good size c' ∧ Answers (g.Shortened n) (plain c) (.ok r) (plain c'))
      fun _ c' => Missed f.steady (Sound Good size) c c' := by
  refine meets_get_bind (meets_requireOpen_bind ho ((meets_inner_length h hc ho).bind ?_))
  rintro _ c₁ ⟨hc₁, rfl, hp₁⟩
  rw [← hp₁]
  have ho₁ : c₁.closed = false := (congrArg Memory.closed hp₁).trans ho
  apply meets_get_bind
  split
  case isTrue hle =>
    exact meets_pure ⟨hc₁, answers_read (Nat.le_refl n) (by omega) (Memory.run_read_eof ho₁ n hle)⟩
  case isFalse hlt =>
    have hcur : c₁.cursor < (plain c₁).bytes.size := Nat.lt_of_not_le hlt
    split
    case isTrue hn =>
      refine meets_pure ⟨hc₁, answers_read (Nat.zero_le n) (Or.inr (Or.inl hn)) ?_⟩
      rw [Memory.run_read ho₁ 0 hcur, Bytes.slice_zero]
      rfl
    case isFalse hn =>
      have hw : min n ((plain c₁).bytes.size - c₁.cursor) ≤ n := Nat.min_le_left _ _
      have hpos : 0 < min n ((plain c₁).bytes.size - c₁.cursor) := by omega
      dsimp only
      -- a hit and a miss both leave a window that has the cursor's position
      split
      case isTrue hcov =>
        rw [Region.Covers, if_neg (Nat.ne_of_gt hpos)] at hcov
        obtain ⟨hstart, hstop⟩ := hcov
        simp only [Window.region, Region.stop] at hstart hstop
        have hlt₁ : c₁.cursor < c₁.window.stop := by unfold Window.stop; omega
        exact meets_set_bind (meets_serve (c := { c₁ with hits := c₁.hits + 1 }) { hc₁ with } ho₁ hw
          hpos hstart hlt₁ _)
      case isFalse =>
        refine ((meets_refill h hc₁ ho₁ hcur).imp_error fun _ _ ht =>
          ht.of_plain hp₁).bind ?_
        rintro _ c₂ ⟨hc₂, hp₂, hstart, hvalid⟩
        have ho₂ : c₂.closed = false := (congrArg Memory.closed hp₂).trans ho₁
        have hlt₂ : c₂.cursor < c₂.window.stop := by unfold Window.stop; omega
        have hserve := meets_serve (f := g) hc₂ ho₂ hw hpos (Nat.le_of_eq hstart) hlt₂
        rw [hp₂] at hserve
        exact hserve _

omit h in
theorem meets_flush
    (hflush : Storage.flush.Meets c.inner (fun _ t => After t ∧ plain t = plain c.inner)
      fun _ t => Missed f Good c.inner t) :
    (Storage.flush : StoreM (ReadAhead σ) Unit).Meets c
      (fun _ c' => Sound After size c' ∧ plain c' = plain c)
      fun _ c' => Missed f.steady (Sound Good size) c c' := by
  refine meets_get_bind (meets_requireOpen_bind ho
    ((meets_onInner hc hflush).imp_ok ?_))
  rintro _ _ ⟨t, rfl, ht, hp⟩
  exact ⟨hc.of_inner ht (by rw [hp]) (by rw [hp]), plain_of_inner (by rw [hp])⟩

theorem meets_close :
    (Storage.close : StoreM (ReadAhead σ) Unit).Meets c
      (fun _ c' => Sound Good size c' ∧ plain c' = { plain c with closed := true })
      fun _ c' => Missed f.steady (Sound Good size) c c' := by
  apply meets_get_bind
  rw [ho, if_neg Bool.false_ne_true]
  apply (meets_onInner hc (h.meets_close hc.inner)).bind
  rintro _ _ ⟨t, rfl, ht, hp⟩
  refine meets_modify ⟨⟨ht, by rw [hp], hc.windowSize, ?_, Nat.zero_le _⟩, ?_⟩
  · exact Window.mirrors_of_valid_eq_zero rfl _
  · simp only [plain] at hp ⊢
    rw [hp]

omit h
variable (hw : Writing f Good After)
include hw

theorem meets_resize {n : Nat} (hn : n ≤ maxPosition) :
    (Storage.resize n : StoreM (ReadAhead σ) Unit).Meets c
      (fun _ c' => Sound After size c' ∧ plain c' = { plain c with
        bytes := (plain c).bytes.resize n, cursor := min (plain c).cursor n })
      fun _ c' => Missed f.steady (Sound Good size) c c' := by
  have hi := hw.meets_resize hc.inner (hc.closed.trans ho) hn
  refine meets_get_bind (meets_requireOpen_bind ho ((meets_onInner hc hi).bind ?_))
  rintro _ _ ⟨t, rfl, ht, hp⟩
  have hm : (if n < c.window.stop then c.window.invalidate else c.window).Mirrors
      (plain t).bytes := by
    rw [hp]
    exact hc.mirrors.resize n
  have hv : (if n < c.window.stop then c.window.invalidate else c.window).valid ≤ size := by
    split
    · exact Nat.zero_le _
    · exact hc.valid_le
  refine meets_modify ⟨⟨ht, by rw [hp]; exact hc.closed, hc.windowSize, hm, hv⟩, ?_⟩
  simp only [plain] at hp ⊢
  rw [hp]

/-- A write that fails may have changed the wrapped store, and the window is dropped for it. -/
theorem meets_inner_write (hcur : (plain c.inner).cursor = c.cursor) {data : Bytes}
    (hd : 0 < data.size) (hfit : c.cursor + data.size ≤ maxPosition) :
    (tryCatch (onInner (Storage.write data)) fun e => do
      modify invalidate
      throw e).Meets c
      (fun _ c' => ∃ t, c' = { c with inner := t } ∧ After t ∧ plain t = { plain c.inner with
        bytes := (plain c).bytes.overwrite c.cursor data
        cursor := c.cursor + data.size })
      fun _ c' => Sound Good size c' ∧ f.occur ∧ f.steady.Tears data (plain c) (plain c') := by
  have hwrite := hw.meets_write hc.inner (hc.closed.trans ho) hd (by rw [hcur]; exact hfit)
  rw [hcur] at hwrite
  have hcall : (onInner (Storage.write data)).Meets c
      (fun _ c' => ∃ t, c' = { c with inner := t } ∧ After t ∧ plain t = { plain c.inner with
        bytes := (plain c).bytes.overwrite c.cursor data
        cursor := c.cursor + data.size })
      fun _ c' => ∃ t, c' = { c with inner := t } ∧ Good t ∧ f.occur ∧
        f.Tears data (plain c.inner) (plain t) :=
    Meets.zoom (hwrite.imp (fun _ t ht => ⟨t, rfl, ht⟩) fun _ t ht => ⟨t, rfl, ht⟩)
  -- where the write has stopped halfway the window may be stale, and an empty one never is
  apply hcall.handle
  rintro e _ ⟨t, rfl, ht, hf, k, hk, hb, hclosed, -⟩
  rw [hcur] at hb
  refine meets_modify_bind (meets_throw ⟨⟨ht, hclosed.trans hc.closed, hc.windowSize, ?_, ?_⟩, hf,
    k, hk, hb, rfl, Or.inr rfl⟩)
  · exact Window.mirrors_invalidate _ _
  · exact Nat.zero_le _

include h in
theorem meets_write {data : Bytes} (hd : 0 < data.size)
    (hfit : c.cursor + data.size ≤ maxPosition) :
    (Storage.write data : StoreM (ReadAhead σ) Unit).Meets c
      (fun _ c' => Sound After size c' ∧ plain c' = { plain c with
        bytes := (plain c).bytes.overwrite (plain c).cursor data
        cursor := (plain c).cursor + data.size })
      fun _ c' => Sound Good size c' ∧ f.occur ∧ f.steady.Tears data (plain c) (plain c') := by
  refine meets_get_bind (meets_requireOpen_bind ho ?_)
  rw [if_neg (Nat.ne_of_gt hd)]
  apply meets_endOf_bind hfit
  have hle : c.cursor ≤ maxPosition := by omega
  have hseek := h.meets_seek hc.inner (hc.closed.trans ho) (Or.inr hle)
  refine ((meets_onInner hc hseek).imp_error fun _ _ ht =>
    ⟨ht.1, ht.2.1, ht.2.2.tears data⟩).bind ?_
  rintro _ _ ⟨t, rfl, ht, hp⟩
  have hc₁ := hc.of_inner ht (by rw [hp]) (by rw [hp])
  have hp₁ := plain_of_inner (c := c) (t := t) (by rw [hp])
  have hwrite := meets_inner_write hc₁ ho hw (by rw [hp]) hd hfit
  rw [hp₁] at hwrite
  apply hwrite.bind
  rintro _ _ ⟨t', rfl, ht', hp'⟩
  refine meets_modify ⟨⟨ht', ?_, hc.windowSize, ?_, ?_⟩, ?_⟩
  · rw [hp', hp]
    exact hc.closed
  · -- the window sees the write that the wrapped store has seen
    rw [hp']
    exact hc.mirrors.patch c.cursor data
  · rw [Window.valid_patch]
    exact hc.valid_le
  · simp only [plain] at hp' ⊢
    rw [hp']

end Open

include h

/-- Read-ahead keeps the contract and never loses the cursor. -/
theorem reading : Reading f.steady (Sound (σ := σ) Good size) where
  length c hc := by
    cases ho : c.closed with
    | false => exact Follows.of_meets (Memory.run_length ho) (meets_length h hc ho)
    | true => exact Follows.of_refused hc rfl (Memory.run_length_closed ho) (run_refused ho _)
  cursor c hc := by
    cases ho : c.closed with
    | false =>
      exact Follows.of_meets (Memory.run_cursor ho)
        (meets_get_bind (meets_requireOpen_bind ho (meets_pure ⟨hc, rfl, rfl⟩)))
    | true => exact Follows.of_refused hc rfl (Memory.run_cursor_closed ho) (run_refused ho _)
  seek pos c hc := by
    cases ho : c.closed with
    | false =>
      by_cases hp : pos ≤ maxPosition
      · refine Follows.of_meets (Memory.run_seek ho hp) (meets_get_bind (meets_requireOpen_bind ho
          (meets_checkPosition_bind hp (meets_set ⟨?_, rfl, rfl⟩))))
        exact { hc with }
      · apply Follows.of_refused hc rfl (Memory.run_seek_refused ho (Nat.lt_of_not_le hp))
        simp [Storage.seek, run_bind, requireOpen, ho, checkPosition, Nat.lt_of_not_le hp]
    | true => exact Follows.of_refused hc rfl (Memory.run_seek_closed ho pos) (run_refused ho _)
  read n c hc := by
    cases ho : c.closed with
    | false =>
      exact (meets_read h hc ho f n).imp_error fun _ _ ht => ⟨ht.1, Or.inr ht.2⟩
    | true =>
      exact Follows.of_refused hc ⟨n, Nat.le_refl n, by omega, rfl⟩ (Memory.run_read_closed ho n)
        (run_refused ho _)
  flush c hc := by
    cases ho : c.closed with
    | false =>
      exact Follows.of_meets (Memory.run_flush ho)
        ((meets_flush hc ho (h.meets_flush hc.inner (hc.closed.trans ho))).imp_ok
          fun _ _ ht => ⟨ht.1, rfl, ht.2⟩)
    | true => exact Follows.of_refused hc rfl (Memory.run_flush_closed ho) (run_refused ho _)
  close c hc := by
    cases ho : c.closed with
    | false =>
      exact Follows.of_meets Memory.run_close
        ((meets_close h hc ho).imp_ok fun _ _ ht => ⟨ht.1, rfl, ht.2⟩)
    | true =>
      have hrun : (Storage.close : StoreM (ReadAhead σ) Unit).run c = (.ok (), c) := by
        simp [Storage.close, close, run_bind, ho]
      refine Follows.of_meets Memory.run_close (meets_of_ok hrun ⟨hc, rfl, ?_⟩)
      simp only [plain]
      rw [ho]
  isClosed c _ := rfl
  bounded c hc := h.bounded c.inner hc.inner

theorem writing (hw : Writing f Good After) :
    Writing f.steady (Sound (σ := σ) Good size) (Sound After size) where
  still c hc := { hc with inner := hw.still c.inner hc.inner }
  resize n c hc := by
    cases ho : c.closed with
    | false =>
      by_cases hn : n ≤ maxPosition
      · exact Follows.of_meets (Memory.run_resize ho hn)
          ((meets_resize hc ho hw hn).imp_ok fun _ _ ht => ⟨ht.1, rfl, ht.2⟩)
      · -- the refusal is that of the wrapped store
        have hn := Nat.lt_of_not_le hn
        have hi := hw.meets_resize_refused hc.inner (hc.closed.trans ho) hn
        have hcall : (onInner (Storage.resize n)).Meets c (fun _ _ => False) fun e c' =>
            Sound Good size c' ∧ (Answers (Eq (Storage.resize n)) (plain c) (.error e) (plain c') ∨
              f.occur ∧ f.steady.Spares (plain c) (plain c')) := by
          refine Meets.zoom (hi.imp_error ?_)
          rintro _ t ⟨ht, ⟨rfl, hp⟩ | hmiss⟩
          · have hp₁ := plain_of_inner (c := c) (t := t) (by rw [hp])
            refine ⟨hc.of_inner ht (by rw [hp]) (by rw [hp]), Or.inl ⟨_, rfl, ?_⟩⟩
            rw [hp₁]
            exact Memory.run_resize_refused (m := plain c) ho hn
          · have hm := missed_of_inner hc ⟨ht, hmiss⟩
            exact ⟨hm.1, Or.inr hm.2⟩
        exact meets_get_bind (meets_requireOpen_bind ho (hcall.bind fun _ _ hf => hf.elim))
    | true => exact Follows.of_refused hc rfl (Memory.run_resize_closed ho n) (run_refused ho _)
  write data c hc := by
    cases ho : c.closed with
    | false =>
      by_cases hd : data.size = 0
      · have hrun : (Storage.write data : StoreM (ReadAhead σ) Unit).run c = (.ok (), c) := by
          simp [Storage.write, write, run_bind, requireOpen, ho, hd]
        exact Follows.of_meets (Memory.run_write_nothing ho hd)
          (meets_of_ok hrun ⟨{ hc with inner := hw.still c.inner hc.inner }, rfl, rfl⟩)
      · have hd := Nat.pos_of_ne_zero hd
        by_cases hfit : c.cursor + data.size ≤ maxPosition
        · exact Follows.of_meets (Memory.run_write ho hd hfit)
            ((meets_write h hc ho hw hd hfit).imp_ok fun _ _ ht => ⟨ht.1, rfl, ht.2⟩)
        · have hfit := Nat.lt_of_not_le hfit
          apply Follows.of_refused hc rfl (Memory.run_write_refused ho hd hfit)
          simp [Storage.write, write, run_bind, requireOpen, ho, Nat.ne_of_gt hd, endOf, hfit, plain]
    | true => exact Follows.of_refused hc rfl (Memory.run_write_closed ho data) (run_refused ho _)

/-- A layer just built is sound and shows what the store shows. -/
theorem of_wrap {s : σ} (hs : Good s) (hw : wrap size s = .ok c) :
    Sound Good size c ∧ plain c = plain s := by
  obtain ⟨hsize, cursor, t, hrun, rfl⟩ := wrap_eq_ok.1 hw
  obtain ⟨ht, ho, rfl, hp⟩ := h.of_run_cursor_ok hs hrun
  refine ⟨⟨ht, by rw [hp]; exact ho, rfl, ?_, Nat.zero_le _⟩, ?_⟩
  · exact Window.mirrors_of_valid_eq_zero rfl _
  · simp only [plain] at hp ho ⊢
    rw [hp, ← ho]

theorem exists_wrap (hf : ¬f.occur) {s : σ} (hs : Good s) (ho : (plain s).closed = false)
    (hsize : 0 < size) : ∃ c, wrap size s = .ok c := by
  obtain ⟨t, hrun⟩ := h.exists_run_cursor_ok hs ho hf
  exact ⟨_, wrap_eq_ok.2 ⟨hsize, _, t, hrun, rfl⟩⟩

theorem exists_wrap_closed (hf : ¬f.occur) {s : σ} (hs : Good s) (hc : (plain s).closed = true)
    (hsize : 0 < size) : ∃ t, wrap size s = .error ⟨.closed, t⟩ := by
  obtain ⟨t, hrun⟩ := h.exists_run_cursor_closed hs hc hf
  exact ⟨t, by rw [wrap, dif_pos hsize, hrun]⟩

omit h in
theorem tracks {v : Nat → Bytes → Prop} {Good : Nat → σ → Prop} (h : Tracks f v Good)
    (size : Nat) : Tracks f.steady v fun i => Sound (Good i) size where
  reading i := reading (h.reading i)
  writing i j hij := (writing (h.reading i) (h.writing i j hij)).imp fun _ hc hv =>
    { hc with inner := hc.inner hv }
  respects i := h.respects i

end ByteTower.ReadAhead
