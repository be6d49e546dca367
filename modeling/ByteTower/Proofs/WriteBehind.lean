import ByteTower.Layer.WriteBehind
import ByteTower.Proofs.Memory

namespace ByteTower

namespace Extent

/-- What is seen of `b` through pending bytes. This is what write-behind stands for, so it is settled by
one write, and a write that stops halfway is made good by the next attempt. -/
def seen (pending : Option Extent) (b : Bytes) : Bytes :=
  match pending with
  | none => b
  | some p => b.overwrite p.start p.bytes

variable {pending : Option Extent} {p : Extent} {pos n k : Nat}

theorem size_seen (pending : Option Extent) (b : Bytes) :
    (seen pending b).size =
      match pending with
      | none => b.size
      | some p => max b.size p.stop := by
  unfold seen
  split
  · rfl
  · exact Bytes.size_overwrite _ _ _

theorem read_eq_slice_seen (hp : p.start ≤ pos) (n : Nat) (b : Bytes) :
    p.read pos n = (seen (some p) b).slice pos (p.read pos n).size := by
  apply Bytes.ext_byte
  unfold read seen
  grind

theorem slice_eq_slice_seen (hk : k ≤ n) (b : Bytes)
    (hout : ∀ p, pending = some p → pos + n ≤ p.start ∨ p.stop ≤ pos) :
    b.slice pos k = (seen pending b).slice pos (b.slice pos k).size := by
  cases pending with
  | none => exact (Bytes.slice_size b pos k).symm
  | some p =>
    have hp := hout p rfl
    apply Bytes.ext_byte
    unfold seen stop at *
    grind

theorem zeros_eq_slice_seen {b : Bytes} (hb : b.size ≤ pos) (hend : pos < (seen pending b).size)
    (hout : ∀ p, pending = some p → pos + n ≤ p.start ∨ p.stop ≤ pos) :
    Bytes.zeros n = (seen pending b).slice pos n := by
  rw [size_seen] at hend
  cases pending with
  | none => exact absurd hend (Nat.not_lt.2 hb)
  | some p =>
    have hp := hout p rfl
    have hpos : pos + n ≤ p.start := by
      simp only at hend
      omega
    apply Bytes.ext_byte
    unfold seen stop at *
    grind

end Extent

namespace WriteBehind

open StoreM

theorem wrap_eq_ok {σ : Type} [Storage σ] {size : Nat} {s : σ} {c : WriteBehind σ} :
    wrap size s = .ok c ↔ ∃ (hsize : 0 < size) (cursor : Nat) (t : σ),
      (Storage.cursor : StoreM σ Nat).run s = (.ok cursor, t) ∧
        c = { inner := t, capacity := size, capacity_pos := hsize, cursor } := by
  unfold wrap
  constructor
  · intro hw
    split at hw
    case isFalse => cases hw
    case isTrue hsize =>
      split at hw
      case h_1 cursor t hrun => exact ⟨hsize, cursor, t, hrun, (Except.ok.inj hw).symm⟩
      case h_2 => cases hw
  · rintro ⟨hsize, cursor, t, hrun, rfl⟩
    rw [dif_pos hsize, hrun]

variable {σ : Type} [Meaning σ]

instance : Meaning (WriteBehind σ) :=
  ⟨fun c =>
    { bytes := Extent.seen c.pending (plain c.inner).bytes, cursor := c.cursor, closed := c.closed }⟩

structure Sound (Good : σ → Prop) (size : Nat) (c : WriteBehind σ) : Prop where
  inner : Good c.inner
  closed : (plain c.inner).closed = c.closed
  capacity : c.capacity = size
  pending : ∀ p, c.pending = some p →
    0 < p.bytes.size ∧ p.bytes.size ≤ size ∧ p.stop ≤ maxPosition

variable {Good After : σ → Prop} {f : Failures} {size : Nat} {c : WriteBehind σ} {t : σ}

theorem Sound.of_inner (hc : Sound Good size c) (ht : After t)
    (ho : (plain t).closed = (plain c.inner).closed) : Sound After size { c with inner := t } :=
  ⟨ht, ho.trans hc.closed, hc.capacity, hc.pending⟩

theorem plain_of_inner (hb : (plain t).bytes = (plain c.inner).bytes) :
    plain { c with inner := t } = plain c :=
  congrArg (fun b => (⟨Extent.seen c.pending b, c.cursor, c.closed⟩ : Memory)) hb

theorem size_plain : (plain c).bytes.size =
    match c.pending with
    | none => (plain c.inner).bytes.size
    | some p => max (plain c.inner).bytes.size p.stop :=
  Extent.size_seen _ _

omit [Meaning σ] in
theorem reach_le (c : WriteBehind σ) (pos n : Nat) : c.reach pos n ≤ n := by
  unfold reach
  split
  · exact Nat.le_refl n
  · split <;> omega

omit [Meaning σ] in
theorem reach_pos (c : WriteBehind σ) {pos n : Nat} (hn : 0 < n) : 0 < c.reach pos n := by
  unfold reach
  split
  · exact hn
  · split <;> omega

omit [Meaning σ] in
theorem reach_apart {pos n : Nat} (hout : ∀ p, c.pending = some p → pos ∉ p.region) :
    ∀ p, c.pending = some p → pos + c.reach pos n ≤ p.start ∨ p.stop ≤ pos := by
  intro p hp
  have hmem := hout p hp
  simp only [Region.mem_iff, Extent.region, Region.stop] at hmem
  simp only [reach, hp, Extent.stop]
  split <;> omega

theorem missed_of_inner (hc : Sound Good size c) (ht : Missed f Good c.inner t) :
    Missed f.steady (Sound Good size) c { c with inner := t } :=
  ⟨hc.of_inner ht.1 ht.2.2.2.1, ht.2.1, plain_of_inner ht.2.2.1 ▸ Failures.Spares.rfl⟩

theorem meets_onInner {α : Type} {act : StoreM σ α} {good : α → σ → Prop} (hc : Sound Good size c)
    (h : act.Meets c.inner good fun _ t => Missed f Good c.inner t) :
    (onInner act).Meets c (fun a c' => ∃ t, c' = { c with inner := t } ∧ good a t)
      fun _ c' => Missed f.steady (Sound Good size) c c' :=
  Meets.zoom (h.imp (fun _ t ht => ⟨t, rfl, ht⟩) fun _ _ ht => missed_of_inner hc ht)

variable [Storage σ]

section Reading

variable (h : Reading f Good) (hc : Sound Good size c) (ho : c.closed = false)

include h hc ho

theorem meets_length :
    length.Meets c (fun n c' => Sound Good size c' ∧ n = (plain c).bytes.size ∧ plain c' = plain c)
      fun _ c' => Missed f.steady (Sound Good size) c c' := by
  apply (meets_onInner hc (h.meets_length hc.inner (hc.closed.trans ho))).bind
  rintro n _ ⟨t, rfl, ht, rfl, hp⟩
  have hc' := hc.of_inner ht (by rw [hp])
  have hp' := plain_of_inner (c := c) (t := t) (by rw [hp])
  apply meets_get_bind
  dsimp only
  split
  case h_1 hnone => exact meets_pure ⟨hc', by rw [size_plain, hnone], hp'⟩
  case h_2 p hsome => exact meets_pure ⟨hc', by rw [size_plain, hsome], hp'⟩

variable {mute : Prop} (hmute : Progresses mute Good)

include hmute

theorem meets_below {pos count : Nat} (hcount : 0 < count) (hlt : pos < (plain c.inner).bytes.size)
    (hout : ∀ p, c.pending = some p → pos + count ≤ p.start ∨ p.stop ≤ pos) :
    (do
      onInner (Storage.seek pos)
      let result ← onInner (Storage.read count)
      return (result.data, decide (result.data.size < count))).Meets c
      (fun r c' => Sound Good size c' ∧ plain c' = plain c ∧ r.1.size ≤ count ∧
        r.1 = (plain c).bytes.slice pos r.1.size ∧ (mute ∨ 0 < r.1.size))
      fun _ c' => Missed f.steady (Sound Good size) c c' := by
  have hopen := hc.closed.trans ho
  have hfit : f.occur ∨ pos ≤ maxPosition :=
    (h.bounded c.inner hc.inner).imp id fun hb => Nat.le_trans (Nat.le_of_lt hlt) hb
  apply (meets_onInner hc (h.meets_seek hc.inner hopen hfit)).bind
  rintro _ _ ⟨t, rfl, ht, hp⟩
  have hb : (plain t).bytes = (plain c.inner).bytes := by rw [hp]
  have hcur : (plain t).cursor = pos := by rw [hp]
  have hc₁ := hc.of_inner ht (by rw [hp])
  have hp₁ := plain_of_inner (c := c) hb
  have hopen' : (plain t).closed = false := by
    rw [hp]
    exact hopen
  have hlt' : (plain t).cursor < (plain t).bytes.size := by
    rw [hp]
    exact hlt
  have hread := (((h.read count t ht).meets_read hopen' hlt').and
    (hmute count t ht hopen' hlt' hcount)).imp_error fun _ _ hm => hm.1
  apply ((meets_onInner hc₁ hread).imp_error fun _ _ hm => hm.of_plain hp₁).bind
  rintro _ _ ⟨t', rfl, ⟨ht', k, hk, -, rfl, hp'⟩, hsome⟩
  have hb' : (plain t').bytes = (plain c.inner).bytes := by rw [hp', hb]
  have hsize := Bytes.size_slice (plain c.inner).bytes pos k
  refine meets_pure ⟨hc₁.of_inner ht' (by rw [hp']), plain_of_inner (c := c) hb', ?_, ?_, ?_⟩
  · simp only [ReadResult.data, hb, hcur, hsize]
    omega
  · simp only [ReadResult.data, hb, hcur]
    exact Extent.slice_eq_slice_seen hk _ hout
  · exact hsome

theorem meets_segment {pos n : Nat} (hn : 0 < n) (hend : pos + n ≤ (plain c).bytes.size) :
    (segment pos n).Meets c
      (fun r c' => Sound Good size c' ∧ plain c' = plain c ∧ r.1.size ≤ n ∧
        r.1 = (plain c).bytes.slice pos r.1.size ∧ (mute ∨ 0 < r.1.size))
      fun _ c' => Missed f.steady (Sound Good size) c c' := by
  apply meets_get_bind
  split
  case h_1 p hfind =>
    obtain ⟨hp, hmem⟩ := Option.filter_eq_some_iff.1 hfind
    have hin := of_decide_eq_true hmem
    simp only [Region.mem_iff, Extent.region, Region.stop] at hin
    have hsize : (p.read pos n).size = min n (p.bytes.size - (pos - p.start)) := Bytes.size_slice _ _ _
    refine meets_pure ⟨hc, rfl, ?_, ?_, Or.inr ?_⟩
    · exact hsize ▸ Nat.min_le_left _ _
    · simp only [plain, hp]
      exact Extent.read_eq_slice_seen hin.1 n _
    · simp only [hsize]
      omega
  case h_2 hfind =>
    dsimp only
    have hpos : 0 < c.reach pos n := reach_pos c hn
    have hle := reach_le c pos n
    have hnone : ∀ p, c.pending = some p → pos ∉ p.region := fun p hp => by
      simpa using Option.filter_eq_none_iff.1 hfind p hp
    have hout := reach_apart (n := n) hnone
    -- from here on it matters only how far the reach goes
    generalize c.reach pos n = count at *
    apply (meets_onInner hc (h.meets_length hc.inner (hc.closed.trans ho))).bind
    rintro _ _ ⟨t, rfl, ht, rfl, hp⟩
    have hc₁ := hc.of_inner ht (by rw [hp])
    have hp₁ := plain_of_inner (c := c) (t := t) (by rw [hp])
    split
    case isTrue hend' =>
      -- the wrapped store has ended, so the pending bytes begin beyond a gap
      refine meets_pure ⟨hc₁, hp₁, ?_, ?_, Or.inr ?_⟩
      · exact (Bytes.size_zeros count).symm ▸ hle
      · rw [Bytes.size_zeros]
        exact Extent.zeros_eq_slice_seen hend' (by simp only [plain] at hend; omega) hout
      · exact (Bytes.size_zeros count).symm ▸ hpos
    case isFalse hlt =>
      have hlt : pos < (plain t).bytes.size := by
        rw [hp]
        exact Nat.lt_of_not_le hlt
      apply (meets_below h hc₁ ho hmute hpos hlt hout).imp
      · rintro r c' ⟨hc', hp', hsize, hdata, hsome⟩
        rw [hp₁] at hp' hdata
        exact ⟨hc', hp', Nat.le_trans hsize hle, hdata, hsome⟩
      · exact fun _ _ hm => hm.of_plain hp₁

omit hc ho in
/-- The segments gathered are always the bytes shown from the cursor on, and the first segment is not
empty unless reads may fail. -/
theorem meets_collect {wanted fuel : Nat} {got : Bytes} (hc : Sound Good size c)
    (ho : c.closed = false) (hgot : got = (plain c).bytes.slice c.cursor got.size)
    (hle : got.size ≤ wanted) (hend : c.cursor + wanted ≤ (plain c).bytes.size) :
    (collect wanted fuel got).Meets c
      (fun data c' => Sound Good size c' ∧ plain c' = plain c ∧
        data = (plain c).bytes.slice c.cursor data.size ∧ got.size ≤ data.size ∧
        data.size ≤ wanted ∧ (mute ∨ wanted = 0 ∨ fuel = 0 ∨ 0 < data.size))
      fun _ c' => Missed f.steady (Sound Good size) c c' := by
  -- the cursor does not move before all is gathered, so `got` starts at it all the time
  induction fuel generalizing c got with
  | zero =>
    exact meets_pure ⟨hc, rfl, hgot, Nat.le_refl _, hle, Or.inr (Or.inr (Or.inl rfl))⟩
  | succ fuel ih =>
    unfold collect
    split
    case isFalse hfull =>
      have hpos : wanted = 0 ∨ fuel + 1 = 0 ∨ 0 < got.size := by omega
      exact meets_pure ⟨hc, rfl, hgot, Nat.le_refl _, hle, Or.inr hpos⟩
    case isTrue hlt =>
      refine meets_get_bind ((meets_segment h hc ho hmute (by omega) (by omega)).bind ?_)
      rintro ⟨data, short⟩ c₁ ⟨hc₁, hp₁, hsize, hdata, hpos⟩
      dsimp only at hsize hdata hpos ⊢
      have ho₁ : c₁.closed = false := (congrArg Memory.closed hp₁).trans ho
      have hcur : c₁.cursor = c.cursor := congrArg Memory.cursor hp₁
      have happ := Bytes.append_eq_slice hgot hdata
      have hlen : (got ++ data).size = got.size + data.size := ByteArray.size_append
      have hsome : mute ∨ 0 < (got ++ data).size := hpos.imp id fun hd => by omega
      split
      · refine meets_pure ⟨hc₁, hp₁, happ, by omega, by omega, ?_⟩
        exact hsome.imp id fun hd => Or.inr (Or.inr hd)
      · rw [← hp₁, ← hcur] at happ
        refine ((ih hc₁ ho₁ happ (by omega) (by rw [hp₁, hcur]; exact hend)).imp ?_ fun _ _ ht =>
          ht.of_plain hp₁)
        rintro all c₂ ⟨hc₂, hp₂, hall, hge, hwanted, -⟩
        rw [hp₁, hcur] at hall
        refine ⟨hc₂, hp₂.trans hp₁, hall, by omega, hwanted, ?_⟩
        exact hsome.imp id fun hd => Or.inr (Or.inr (by omega))

omit hmute in
theorem meets_read {g : Failures} (hg : Progresses g.occur Good) (n : Nat) :
    (Storage.read n : StoreM (WriteBehind σ) ReadResult).Meets c
      (fun r c' => Sound Good size c' ∧ Answers (g.Shortened n) (plain c) (.ok r) (plain c'))
      fun _ c' => Missed f.steady (Sound Good size) c c' := by
  refine meets_get_bind (meets_requireOpen_bind ho ((meets_length h hc ho).bind ?_))
  rintro _ c₁ ⟨hc₁, rfl, hp₁⟩
  rw [← hp₁]
  have ho₁ : c₁.closed = false := (congrArg Memory.closed hp₁).trans ho
  apply meets_get_bind
  split
  case isTrue hle =>
    exact meets_pure ⟨hc₁, answers_read (Nat.le_refl n) (by omega) (Memory.run_read_eof ho₁ n hle)⟩
  case isFalse hlt =>
    have hcur : c₁.cursor < (plain c₁).bytes.size := Nat.lt_of_not_le hlt
    have hempty : ByteArray.empty = (plain c₁).bytes.slice c₁.cursor ByteArray.empty.size :=
      (Bytes.slice_zero _ _).symm
    dsimp only
    have hend : c₁.cursor + min n ((plain c₁).bytes.size - c₁.cursor) ≤
        (plain c₁).bytes.size := by omega
    apply ((meets_collect h hg hc₁ ho₁ hempty (Nat.zero_le _) hend).imp_error fun _ _ ht =>
      ht.of_plain hp₁).bind
    rintro data c₂ ⟨hc₂, hp₂, hdata, -, hwanted, hpos⟩
    refine meets_modify_bind (meets_pure ⟨{ hc₂ with },
      answers_read (k := data.size) (by omega) ?_ ?_⟩)
    · rcases hpos with hocc | hpos
      · exact Or.inl hocc
      · exact Or.inr (by omega)
    · have hslice : (plain c₁).bytes.slice (plain c₁).cursor data.size = data := hdata.symm
      rw [Memory.run_read ho₁ _ hcur, hslice, ← hp₂]
      rfl

end Reading

omit [Meaning σ] [Storage σ] in
theorem seen_merged {p : Extent} {pos : Nat} {data : Bytes} (hm : c.merged? pos data = some p)
    (b : Bytes) : Extent.seen (some p) b = (Extent.seen c.pending b).overwrite pos data := by
  unfold merged? at hm
  split at hm
  case h_1 => cases hm
  case h_2 q hq =>
    split at hm
    case isTrue hfit =>
      obtain rfl := Option.some.inj hm
      rw [hq]
      exact Bytes.overwrite_overwrite hfit.1 (by unfold Extent.stop at hfit; omega) b data
    case isFalse => cases hm

omit [Storage σ] in
theorem Sound.merged (hc : Sound Good size c) {p : Extent} {data : Bytes}
    (hm : c.merged? c.cursor data = some p) (hd : 0 < data.size)
    (hfit : c.cursor + data.size ≤ maxPosition) :
    Sound Good size { c with pending := some p, cursor := c.cursor + data.size } := by
  unfold merged? at hm
  split at hm
  case h_1 => cases hm
  case h_2 q hq =>
    have hpend := hc.pending q hq
    split at hm
    case isTrue hjoin =>
      obtain rfl := Option.some.inj hm
      -- the joined bytes end where the longer of the two ends
      refine ⟨hc.inner, hc.closed, hc.capacity, ?_⟩
      rintro _ ⟨⟩
      have hcap := hc.capacity
      simp only [Extent.absorb, Extent.stop, Bytes.size_overwrite] at hpend hjoin ⊢
      omega
    case isFalse => cases hm

/-- A layer that shows version `i` of the bytes, over a store that may still be behind. -/
def Behind (v : Nat → Bytes → Prop) (Good : Nat → σ → Prop) (size i : Nat) (c : WriteBehind σ) :
    Prop :=
  v i (plain c).bytes ∧ ∃ j ≤ i, Sound (Good j) size c

omit [Storage σ] in
/-- At the first version there is nothing to be behind of. -/
theorem Behind.sound {Good : Nat → σ → Prop} {v : Nat → Bytes → Prop}
    (hc : Behind v Good size 0 c) : Sound (Good 0) size c := by
  obtain ⟨_, j, hj, hsound⟩ := hc
  obtain rfl := Nat.le_zero.1 hj
  exact hsound

section Tracks

variable {v : Nat → Bytes → Prop} {Good : Nat → σ → Prop} {i j : Nat}

omit [Storage σ] in
theorem missed_behind {g : Failures} {c' : WriteBehind σ} (hv : v i (plain c).bytes) (hj : j ≤ i)
    (hm : Missed g (Sound (Good j) size) c c') : Missed g (Behind v Good size i) c c' :=
  ⟨⟨hm.2.2.1 ▸ hv, j, hj, hm.1⟩, hm.2⟩

variable (h : Tracks f v Good) (hc : Behind v Good size i c) (ho : c.closed = false)

include h ho

include hc in
/-- Settling brings the wrapped store to the version that the layer shows. Where it fails, a part of
the pending bytes may have been written, which does not show. -/
theorem meets_settle :
    settle.Meets c
      (fun _ c' => Sound (Good i) size c' ∧ c'.pending = none ∧ plain c' = plain c)
      fun _ c' => Missed f.steady (Behind v Good size i) c c' := by
  obtain ⟨hv, j, hj, hc⟩ := hc
  apply meets_get_bind
  split
  case h_1 hnone =>
    refine meets_pure ⟨⟨?_, hc.closed, hc.capacity, hc.pending⟩, hnone, rfl⟩
    apply (h.writing j i hj).still c.inner hc.inner
    simpa only [plain, Extent.seen, hnone] using hv
  case h_2 p hsome =>
    obtain ⟨hpos, -, hstop⟩ := hc.pending p hsome
    have hseek := (h.reading j).meets_seek hc.inner (hc.closed.trans ho)
      (Or.inr (Nat.le_trans (Nat.le_add_right p.start p.bytes.size) hstop))
    refine ((meets_onInner hc hseek).imp_error fun _ _ ht =>
      missed_behind hv hj ht).bind ?_
    rintro _ _ ⟨t, rfl, ht, hp⟩
    have hwrite := (h.writing j i hj).meets_write ht (by rw [hp]; exact hc.closed.trans ho) hpos
      (by rw [hp]; exact hstop)
    rw [hp] at hwrite
    have hshown : (plain c).bytes = (plain c.inner).bytes.overwrite p.start p.bytes := by
      simp only [plain, hsome, Extent.seen]
    have hcall : (onInner (Storage.write p.bytes)).Meets { c with inner := t }
        (fun _ c' => ∃ t', c' = { c with inner := t' } ∧ Good i t' ∧
          (plain t').bytes = (plain c).bytes ∧ (plain t').closed = c.closed)
        fun _ c' => Missed f.steady (Behind v Good size i) c c' := by
      refine Meets.zoom (hwrite.imp ?_ ?_)
      · rintro _ t' ⟨ht', hp'⟩
        have hb : (plain t').bytes = (plain c).bytes := by rw [hp', hshown]
        exact ⟨t', rfl, ht' (hb ▸ hv), hb, by rw [hp']; exact hc.closed⟩
      · rintro _ t' ⟨ht', hocc, k, -, hb, hclosed, -⟩
        -- what the torn write has left lies under the same bytes, which are still pending
        have hp' : plain { c with inner := t' } = plain c := by
          simp only [plain, hsome, Extent.seen] at hb ⊢
          rw [hb, Bytes.overwrite_put_slice]
        refine missed_behind hv hj ⟨⟨ht', hclosed.trans hc.closed, hc.capacity, hc.pending⟩, hocc, ?_⟩
        exact hp' ▸ Failures.Spares.rfl
    apply hcall.bind
    rintro _ _ ⟨t', rfl, ht', hb, hclosed⟩
    refine meets_modify ⟨⟨ht', hclosed, hc.capacity, ?_⟩, rfl, ?_⟩
    · exact fun p hp => absurd hp.symm (Option.some_ne_none p)
    · exact congrArg (fun b => (⟨b, c.cursor, c.closed⟩ : Memory)) hb

include hc in
theorem meets_flush :
    (Storage.flush : StoreM (WriteBehind σ) Unit).Meets c
      (fun _ c' => (Sound (Good i) size c' ∧ c'.pending = none) ∧ plain c' = plain c)
      fun _ c' => Missed f.steady (Behind v Good size i) c c' := by
  refine meets_get_bind (meets_requireOpen_bind ho ((meets_settle h hc ho).bind ?_))
  rintro _ c₁ ⟨hc₁, hnone, hp₁⟩
  have hv : v i (plain c₁).bytes := hp₁ ▸ hc.1
  have ho₁ : c₁.closed = false := (congrArg Memory.closed hp₁).trans ho
  have hi := (h.reading i).meets_flush hc₁.inner (hc₁.closed.trans ho₁)
  refine (meets_onInner hc₁ hi).imp ?_ fun _ _ ht =>
    (missed_behind hv (Nat.le_refl i) ht).of_plain hp₁
  rintro _ _ ⟨t, rfl, ht, hp⟩
  exact ⟨⟨hc₁.of_inner ht (by rw [hp]), hnone⟩, (plain_of_inner (by rw [hp])).trans hp₁⟩

include hc in
theorem meets_close :
    (Storage.close : StoreM (WriteBehind σ) Unit).Meets c
      (fun _ c' => Sound (Good i) size c' ∧ plain c' = { plain c with closed := true })
      fun _ c' => Missed f.steady (Behind v Good size i) c c' := by
  apply meets_get_bind
  rw [ho, if_neg Bool.false_ne_true]
  apply (meets_settle h hc ho).bind
  rintro _ c₁ ⟨hc₁, -, hp₁⟩
  have hv : v i (plain c₁).bytes := hp₁ ▸ hc.1
  apply ((meets_onInner hc₁ ((h.reading i).meets_close hc₁.inner)).imp_error fun _ _ ht =>
    (missed_behind hv (Nat.le_refl i) ht).of_plain hp₁).bind
  rintro _ _ ⟨t, rfl, ht, hp⟩
  have hp₂ := (plain_of_inner (c := c₁) (t := t) (by rw [hp])).trans hp₁
  refine meets_modify ⟨⟨ht, by rw [hp], hc₁.capacity, hc₁.pending⟩, ?_⟩
  exact congrArg (fun m : Memory => { m with closed := true }) hp₂

include hc in
theorem meets_resize (hij : i ≤ j) {n : Nat} (hn : n ≤ maxPosition) :
    (Storage.resize n : StoreM (WriteBehind σ) Unit).Meets c
      (fun _ c' => (v j (plain c').bytes → Behind v Good size j c') ∧
        plain c' = { plain c with
          bytes := (plain c).bytes.resize n, cursor := min (plain c).cursor n })
      fun _ c' => Missed f.steady (Behind v Good size i) c c' := by
  refine meets_get_bind (meets_requireOpen_bind ho (meets_checkPosition_bind hn
    ((meets_settle h hc ho).bind ?_)))
  rintro _ c₁ ⟨hc₁, hnone, hp₁⟩
  have hv : v i (plain c₁).bytes := hp₁ ▸ hc.1
  have ho₁ : c₁.closed = false := (congrArg Memory.closed hp₁).trans ho
  have hi := (h.writing i j hij).meets_resize hc₁.inner (hc₁.closed.trans ho₁) hn
  refine ((meets_onInner hc₁ hi).imp_error fun _ _ ht =>
    (missed_behind hv (Nat.le_refl i) ht).of_plain hp₁).bind ?_
  rintro _ _ ⟨t, rfl, ht, hp⟩
  have hshown : (plain c₁).bytes = (plain c₁.inner).bytes := by
    simp only [plain, hnone, Extent.seen]
  have hp₂ : plain { c₁ with inner := t, cursor := min c₁.cursor n } = { plain c with
      bytes := (plain c).bytes.resize n, cursor := min (plain c).cursor n } := by
    rw [← hp₁, hshown]
    simp only [plain, hnone, Extent.seen] at hp ⊢
    rw [hp]
  refine meets_modify ⟨fun hj => ⟨hj, j, Nat.le_refl j, ht ?_, ?_, hc₁.capacity, hc₁.pending⟩, hp₂⟩
  · simpa only [plain, hnone, Extent.seen] using hj
  · rw [hp]
    exact hc₁.closed

theorem meets_through (hc : Sound (Good i) size c) (hv : v i (plain c).bytes) (hij : i ≤ j)
    (hnone : c.pending = none) {data : Bytes} (hd : size < data.size)
    (hfit : c.cursor + data.size ≤ maxPosition) :
    (do
      onInner (Storage.seek c.cursor)
      onInner (Storage.write data)).Meets c
      (fun _ c' => ∃ t, c' = { c with inner := t } ∧ (v j (plain t).bytes → Good j t) ∧
        (plain t).bytes = (plain c).bytes.overwrite c.cursor data ∧ (plain t).closed = c.closed)
      fun _ c' => Behind v Good size i c' ∧ f.occur ∧
        (f.steady.sparing size).Tears data (plain c) (plain c') := by
  -- with nothing pending, what fails below fails in full view
  have hshown : (plain c).bytes = (plain c.inner).bytes := by
    simp only [plain, hnone, Extent.seen]
  have hle : c.cursor ≤ maxPosition := by omega
  have hseek := (h.reading i).meets_seek hc.inner (hc.closed.trans ho) (Or.inr hle)
  refine ((meets_onInner hc hseek).imp_error fun _ _ ht => ?_).bind ?_
  · have hm := missed_behind hv (Nat.le_refl i) ht
    exact ⟨hm.1, hm.2.1, (hm.2.2.sparing size).tears data⟩
  rintro _ _ ⟨t, rfl, ht, hp⟩
  have hwrite := (h.writing i j hij).meets_write ht (by rw [hp]; exact hc.closed.trans ho)
    (Nat.lt_of_le_of_lt (Nat.zero_le size) hd) (by rw [hp]; exact hfit)
  rw [hp] at hwrite
  refine Meets.zoom (hwrite.imp ?_ ?_)
  · rintro _ t' ⟨ht', hp'⟩
    exact ⟨t', rfl, ht', by rw [hp', hshown], by rw [hp']; exact hc.closed⟩
  · rintro _ t' ⟨ht', hocc, k, hk, hb, hclosed, -⟩
    have htears : (f.steady.sparing size).Tears data (plain c) (plain { c with inner := t' }) := by
      refine ⟨k, hk.imp (fun ht => ⟨hd, ht⟩) id, ?_, rfl, Or.inr rfl⟩
      rw [hshown]
      simpa only [plain, hnone, Extent.seen] using hb
    refine ⟨⟨?_, i, Nat.le_refl i, ht', hclosed.trans hc.closed, hc.capacity, hc.pending⟩, hocc,
      htears⟩
    exact ((h.respects i).mono (Failures.le_trans (Failures.sparing_le _ _)
      (Failures.steady_le f))).of_tears htears hv

include hc in
theorem meets_write (hij : i ≤ j) {data : Bytes} (hd : 0 < data.size)
    (hfit : c.cursor + data.size ≤ maxPosition) :
    (Storage.write data : StoreM (WriteBehind σ) Unit).Meets c
      (fun _ c' => (v j (plain c').bytes → Behind v Good size j c') ∧ plain c' = { plain c with
        bytes := (plain c).bytes.overwrite (plain c).cursor data
        cursor := (plain c).cursor + data.size })
      fun _ c' => Behind v Good size i c' ∧ f.occur ∧
        (f.steady.sparing size).Tears data (plain c) (plain c') := by
  refine meets_get_bind (meets_requireOpen_bind ho ?_)
  rw [if_neg (Nat.ne_of_gt hd)]
  apply meets_endOf_bind hfit
  split
  case h_1 p hmerged =>
    -- the wrapped store stays at the version it had
    obtain ⟨hv, m, hm, hc⟩ := hc
    refine meets_set ⟨fun hj => ⟨hj, m, Nat.le_trans hm hij, hc.merged hmerged hd hfit⟩, ?_⟩
    exact congrArg (fun b => (⟨b, c.cursor + data.size, c.closed⟩ : Memory)) (seen_merged hmerged _)
  case h_2 =>
    -- all earlier writes go below first, so that this one cannot overtake them
    have hcap : c.capacity = size := by
      obtain ⟨_, _, _, hc⟩ := hc
      exact hc.capacity
    refine ((meets_settle h hc ho).imp_error fun _ _ ht =>
      ⟨ht.1, ht.2.1, (ht.2.2.sparing size).tears data⟩).bind ?_
    rintro _ c₁ ⟨hc₁, hnone, hp₁⟩
    have hv : v i (plain c₁).bytes := hp₁ ▸ hc.1
    have ho₁ : c₁.closed = false := (congrArg Memory.closed hp₁).trans ho
    have hcur : c₁.cursor = c.cursor := congrArg Memory.cursor hp₁
    rw [← hcur] at hfit ⊢
    rw [← hp₁]
    by_cases hlong : c.capacity < data.size
    · rw [if_pos hlong]
      dsimp only
      rw [← bind_assoc]
      apply (meets_through h ho₁ hc₁ hv hij hnone (hcap ▸ hlong) hfit).bind
      rintro _ _ ⟨t, rfl, ht, hb, hclosed⟩
      have hp₂ : plain { c₁ with inner := t, cursor := c₁.cursor + data.size } =
          ⟨(plain c₁).bytes.overwrite c₁.cursor data, c₁.cursor + data.size, c₁.closed⟩ := by
        simp only [plain, hnone, Extent.seen] at hb ⊢
        rw [hb]
      refine meets_modify ⟨fun hj => ⟨hj, j, Nat.le_refl j, ht ?_, ?_, hc₁.capacity, hc₁.pending⟩, hp₂⟩
      · rw [hb]
        exact Eq.mp (congrArg (fun m : Memory => v j m.bytes) hp₂) hj
      · exact hclosed
    · rw [if_neg hlong]
      refine meets_modify_bind (meets_modify ⟨fun hj => ⟨hj, i, hij, ?_⟩, ?_⟩)
      · refine ⟨hc₁.inner, hc₁.closed, hc₁.capacity, ?_⟩
        rintro _ ⟨⟩
        exact ⟨hd, hcap ▸ Nat.le_of_not_lt hlong, hfit⟩
      · have hshown : (plain c₁).bytes = (plain c₁.inner).bytes := by
          simp only [plain, hnone, Extent.seen]
        rw [hshown]
        rfl

end Tracks

section Viewing

variable {v : Nat → Bytes → Prop} {Good : Nat → σ → Prop} {i : Nat} (h : Tracks f v Good)
variable (hc : Behind v Good size i c)

omit [Storage σ] in
include hc in
/-- A call that goes well on every sound layer and changes no byte of it keeps the version. -/
theorem follows_behind {α : Type} {act : StoreM (WriteBehind σ) α}
    {models : StoreM Memory α → Prop}
    (hact : ∀ j, Sound (Good j) size c → Follows (f.steady.sparing size) (Sound (Good j) size)
      (Sound (Good j) size) (f.steady.sparing size).Spares act models c)
    (hm : ∀ model, models model → model.Meets (plain c) (fun _ m => v i m.bytes)
      fun _ m => v i m.bytes) :
    Follows (f.steady.sparing size) (Behind v Good size i) (Behind v Good size i)
      (f.steady.sparing size).Spares act models c := by
  obtain ⟨hv, j, hj, hc⟩ := hc
  exact ((hact j hc).and_bytes hm fun m hm => hm.1 ▸ hv).imp (fun _ ht => ⟨ht.2, j, hj, ht.1⟩)
    fun _ ht => ⟨ht.2, j, hj, ht.1⟩

include h hc

theorem follows_length : Follows (f.steady.sparing size) (Behind v Good size i)
    (Behind v Good size i) (f.steady.sparing size).Spares Storage.length (Eq Storage.length) c := by
  refine follows_behind hc (fun j hc => ?_) (by rintro _ rfl; exact Memory.keeps_length hc.1)
  cases ho : c.closed with
  | false =>
    exact Follows.of_meets (Memory.run_length ho)
      (meets_get_bind (meets_requireOpen_bind ho (meets_length (f := f) (h.reading j) hc ho)))
  | true => exact Follows.of_refused hc rfl (Memory.run_length_closed ho) (run_refused ho _)

omit h in
theorem follows_cursor : Follows (f.steady.sparing size) (Behind v Good size i)
    (Behind v Good size i) (f.steady.sparing size).Spares Storage.cursor (Eq Storage.cursor) c := by
  refine follows_behind hc (fun j hc => ?_) (by rintro _ rfl; exact Memory.keeps_cursor hc.1)
  cases ho : c.closed with
  | false =>
    exact Follows.of_meets (Memory.run_cursor ho)
      (meets_get_bind (meets_requireOpen_bind ho (meets_pure ⟨hc, rfl, rfl⟩)))
  | true => exact Follows.of_refused hc rfl (Memory.run_cursor_closed ho) (run_refused ho _)

omit h in
theorem follows_seek (pos : Nat) : Follows (f.steady.sparing size) (Behind v Good size i)
    (Behind v Good size i) (f.steady.sparing size).Spares (Storage.seek pos)
    (Eq (Storage.seek pos)) c := by
  refine follows_behind hc (fun j hc => ?_) (by rintro _ rfl; exact Memory.keeps_seek hc.1 pos)
  cases ho : c.closed with
  | false =>
    by_cases hp : pos ≤ maxPosition
    · refine Follows.of_meets (Memory.run_seek ho hp) (meets_get_bind (meets_requireOpen_bind ho
        (meets_checkPosition_bind hp (meets_set ⟨?_, rfl, rfl⟩))))
      exact { hc with }
    · apply Follows.of_refused hc rfl (Memory.run_seek_refused ho (Nat.lt_of_not_le hp))
      simp [Storage.seek, run_bind, requireOpen, ho, checkPosition, Nat.lt_of_not_le hp]
  | true => exact Follows.of_refused hc rfl (Memory.run_seek_closed ho pos) (run_refused ho _)

theorem follows_read (n : Nat) : Follows (f.steady.sparing size) (Behind v Good size i)
    (Behind v Good size i) (f.steady.sparing size).Spares (Storage.read n)
    ((f.steady.sparing size).Shortened n) c := by
  refine follows_behind hc (fun j hc => ?_)
    (by rintro _ ⟨k, _, _, rfl⟩; exact Memory.keeps_read hc.1 k)
  cases ho : c.closed with
  | false =>
    exact (meets_read (h.reading j) hc ho (h.reading j).progresses n).imp_error fun _ _ ht => ⟨ht.1, Or.inr ht.2⟩
  | true =>
    exact Follows.of_refused hc ⟨n, Nat.le_refl n, by omega, rfl⟩ (Memory.run_read_closed ho n)
      (run_refused ho _)

end Viewing

variable {v : Nat → Bytes → Prop} {Good : Nat → σ → Prop}

theorem reading (h : Tracks f v Good) (size i : Nat) :
    Reading (f.steady.sparing size) (Behind (σ := σ) v Good size i) where
  length c hc := follows_length h hc
  cursor c hc := follows_cursor hc
  seek pos c hc := follows_seek hc pos
  read n c hc := follows_read h hc n
  flush c hc := by
    cases ho : c.closed with
    | false =>
      refine Follows.of_meets (Memory.run_flush ho)
        ((meets_flush h hc ho).imp_ok fun _ c' ht => ⟨⟨?_, i, Nat.le_refl i, ht.1.1⟩, rfl, ht.2⟩)
      exact ht.2 ▸ hc.1
    | true => exact Follows.of_refused hc rfl (Memory.run_flush_closed ho) (run_refused ho _)
  close c hc := by
    cases ho : c.closed with
    | false =>
      refine Follows.of_meets Memory.run_close
        ((meets_close h hc ho).imp_ok fun _ _ ht => ⟨⟨?_, i, Nat.le_refl i, ht.1⟩, rfl, ht.2⟩)
      rw [ht.2]
      exact hc.1
    | true =>
      have hrun : (Storage.close : StoreM (WriteBehind σ) Unit).run c = (.ok (), c) := by
        simp [Storage.close, close, run_bind, ho]
      refine Follows.of_meets Memory.run_close (meets_of_ok hrun ⟨hc, rfl, ?_⟩)
      simp only [plain]
      rw [ho]
  isClosed c _ := rfl
  bounded c hc := by
    obtain ⟨-, j, -, hc⟩ := hc
    apply ((h.reading j).bounded c.inner hc.inner).imp id
    intro hb
    rw [size_plain]
    split
    case h_1 => exact hb
    case h_2 p hp => exact Nat.max_le.2 ⟨hb, (hc.pending p hp).2.2⟩

theorem writing (h : Tracks f v Good) (size : Nat) {i j : Nat} (hij : i ≤ j) :
    Writing (f.steady.sparing size) (Behind (σ := σ) v Good size i)
      fun c => v j (plain c).bytes → Behind v Good size j c where
  still c hc hj := by
    obtain ⟨-, m, hm, hc⟩ := hc
    exact ⟨hj, m, Nat.le_trans hm hij, hc⟩
  resize n c hc := by
    cases ho : c.closed with
    | false =>
      by_cases hn : n ≤ maxPosition
      · exact Follows.of_meets (Memory.run_resize ho hn)
          ((meets_resize h hc ho hij hn).imp_ok fun _ _ ht => ⟨ht.1, rfl, ht.2⟩)
      · have hn := Nat.lt_of_not_le hn
        apply Follows.of_refused hc rfl (Memory.run_resize_refused ho hn)
        simp [Storage.resize, resize, run_bind, requireOpen, ho, checkPosition, hn]
    | true => exact Follows.of_refused hc rfl (Memory.run_resize_closed ho n) (run_refused ho _)
  write data c hc := by
    cases ho : c.closed with
    | false =>
      by_cases hd : data.size = 0
      · have hrun : (Storage.write data : StoreM (WriteBehind σ) Unit).run c = (.ok (), c) := by
          simp [Storage.write, write, run_bind, requireOpen, ho, hd]
        obtain ⟨hv, m, hm, hc⟩ := hc
        exact Follows.of_meets (Memory.run_write_nothing ho hd)
          (meets_of_ok hrun ⟨fun hj => ⟨hj, m, Nat.le_trans hm hij, hc⟩, rfl, rfl⟩)
      · have hd := Nat.pos_of_ne_zero hd
        by_cases hfit : c.cursor + data.size ≤ maxPosition
        · exact Follows.of_meets (Memory.run_write ho hd hfit)
            ((meets_write h hc ho hij hd hfit).imp_ok fun _ _ ht => ⟨ht.1, rfl, ht.2⟩)
        · have hfit := Nat.lt_of_not_le hfit
          apply Follows.of_refused hc rfl (Memory.run_write_refused ho hd hfit)
          simp [Storage.write, write, run_bind, requireOpen, ho, Nat.ne_of_gt hd, endOf, hfit, plain]
    | true => exact Follows.of_refused hc rfl (Memory.run_write_closed ho data) (run_refused ho _)

/-- Write-behind keeps the contract, never loses the cursor, and writes all or nothing of what it can
hold back. -/
theorem tracks (h : Tracks f v Good) (size : Nat) :
    Tracks (f.steady.sparing size) v (Behind v Good size) where
  reading := reading h size
  writing _ _ hij := writing h size hij
  respects i := (h.respects i).mono
    (Failures.le_trans (Failures.sparing_le _ _) (Failures.steady_le f))

theorem of_wrap (h : Tracks f v Good) {i : Nat} {s : σ} (hs : Good i s)
    (hv : v i (plain s).bytes) (hw : wrap size s = .ok c) :
    Behind v Good size i c ∧ plain c = plain s := by
  obtain ⟨hsize, cursor, t, hrun, rfl⟩ := wrap_eq_ok.1 hw
  obtain ⟨ht, ho, rfl, hp⟩ := (h.reading i).of_run_cursor_ok hs hrun
  refine ⟨⟨?_, i, Nat.le_refl i, ht, by rw [hp]; exact ho, rfl, ?_⟩, ?_⟩
  · simp only [plain, Extent.seen] at hp hv ⊢
    rw [hp]
    exact hv
  · exact fun p hp => absurd hp.symm (Option.some_ne_none p)
  · simp only [plain, Extent.seen] at hp ho ⊢
    rw [hp, ← ho]

theorem exists_wrap {Good : σ → Prop} (h : Reading f Good) (hf : ¬f.occur) {s : σ} (hs : Good s)
    (ho : (plain s).closed = false) (hsize : 0 < size) : ∃ c, wrap size s = .ok c := by
  obtain ⟨t, hrun⟩ := h.exists_run_cursor_ok hs ho hf
  exact ⟨_, wrap_eq_ok.2 ⟨hsize, _, t, hrun, rfl⟩⟩

theorem exists_wrap_closed {Good : σ → Prop} (h : Reading f Good) (hf : ¬f.occur) {s : σ}
    (hs : Good s) (hc : (plain s).closed = true) (hsize : 0 < size) :
    ∃ t, wrap size s = .error ⟨.closed, t⟩ := by
  obtain ⟨t, hrun⟩ := h.exists_run_cursor_closed hs hc hf
  exact ⟨t, by rw [wrap, dif_pos hsize, hrun]⟩

end WriteBehind

end ByteTower
