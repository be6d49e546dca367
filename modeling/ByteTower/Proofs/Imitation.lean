import ByteTower.Proofs.Handles
import ByteTower.Proofs.Run

namespace ByteTower

open StoreM

section Layers

variable {σ τ : Type} [Storage σ] [Storage τ] {Good : σ → Prop} {view : σ → τ}

namespace ReadAhead

omit [Storage σ] [Storage τ] in
def mapInner (g : σ → τ) (c : ReadAhead σ) : ReadAhead τ :=
  { inner := g c.inner, windowSize := c.windowSize, windowSize_pos := c.windowSize_pos,
    window := c.window, spare := c.spare, cursor := c.cursor, closed := c.closed, hits := c.hits,
    misses := c.misses }

def Over (Good : σ → Prop) (c : ReadAhead σ) : Prop := Good c.inner

variable {c : ReadAhead σ}

omit [Storage σ] [Storage τ] in
theorem mimics_onInner {α : Type} {act : StoreM σ α} {model : StoreM τ α}
    (h : Mimics Good view act model c.inner) :
    Mimics (Over Good) (mapInner view) (onInner act) (onInner model) c :=
  h.zoom (fun _ ht => ht) rfl fun _ => rfl

section Reading

variable (h : ReadsLike Good view)

include h

theorem mimics_refill (hc : Over Good c) (pos length : Nat) :
    Mimics (Over Good) (mapInner view) (refill pos length) (refill pos length) c := by
  apply mimics_get_bind
  apply Mimics.bind
  · exact mimics_modify hc rfl
  intro _ c₁ hc₁
  apply (mimics_onInner (h.seek pos c₁.inner hc₁)).bind
  intro _ c₂ hc₂
  apply (mimics_onInner (h.read _ c₂.inner hc₂)).bind
  intro result c₃ hc₃
  exact mimics_ite (fun _ => mimics_throw hc₃ _) fun _ => mimics_modify hc₃ rfl

omit h [Storage σ] [Storage τ] in
theorem mimics_serve (hc : Over Good c) (n : Nat) :
    Mimics (Over Good) (mapInner view) (serve n) (serve n) c := by
  apply mimics_get_bind
  exact Mimics.bind (mimics_set hc rfl) fun _ _ hd => mimics_pure hd _

theorem mimics_read (hc : Over Good c) (n : Nat) :
    Mimics (Over Good) (mapInner view) (read n) (read n) c := by
  apply mimics_get_bind
  apply (mimics_requireOpen hc _).bind
  intro _ c₁ hc₁
  apply (mimics_onInner (h.length c₁.inner hc₁)).bind
  intro length c₂ hc₂
  apply mimics_get_bind
  apply mimics_ite (fun _ => mimics_pure hc₂ _)
  intro _
  apply mimics_ite (fun _ => mimics_pure hc₂ _)
  intro _
  have hserve : ∀ n (d : ReadAhead σ), Over Good d →
      Mimics (Over Good) (mapInner view) (serve n) (serve n) d := fun n d hd => mimics_serve hd n
  apply mimics_ite
  · intro _
    exact Mimics.bind (mimics_set hc₂ rfl) fun _ d hd => hserve _ d hd
  · intro _
    exact (mimics_refill h hc₂ _ _).bind fun _ d hd => hserve _ d hd

theorem readsLike : ReadsLike (Over Good) (mapInner view) where
  length _ hc := mimics_get_bind <| (mimics_requireOpen hc _).bind
    fun _ d hd => mimics_onInner (h.length d.inner hd)
  cursor _ hc := mimics_get_bind <| (mimics_requireOpen hc _).bind fun _ _ hd => mimics_pure hd _
  seek pos _ hc := mimics_get_bind <| (mimics_requireOpen hc _).bind fun _ _ hd =>
    (mimics_checkPosition hd pos).bind fun _ _ _ => mimics_set hc rfl
  read n _ hc := mimics_read h hc n

end Reading

variable (h : Imitates Good view)

include h

theorem mimics_write (hc : Over Good c) (data : Bytes) :
    Mimics (Over Good) (mapInner view) (write data) (write data) c := by
  apply mimics_get_bind
  apply (mimics_requireOpen hc _).bind
  intro _ c₁ hc₁
  apply mimics_ite (fun _ => mimics_pure hc₁ ())
  intro _
  apply (mimics_endOf hc₁ _ _).bind
  intro stop c₂ hc₂
  apply (mimics_onInner (h.seek _ c₂.inner hc₂)).bind
  intro _ c₃ hc₃
  refine Mimics.bind ((mimics_onInner (h.write data c₃.inner hc₃)).handle ?_) ?_
  · intro e d hd
    exact Mimics.bind (mimics_modify hd rfl) fun _ _ hu => mimics_throw hu e
  · intro _ c₄ hc₄
    exact mimics_modify hc₄ rfl

theorem imitates : Imitates (Over Good) (mapInner view) where
  toReadsLike := readsLike h.toReadsLike
  resize n _ hc := mimics_get_bind <| (mimics_requireOpen hc _).bind fun _ d hd =>
    (mimics_onInner (h.resize n d.inner hd)).bind fun _ _ hu => mimics_modify hu rfl
  write data _ hc := mimics_write h hc data
  flush _ hc := mimics_get_bind <| (mimics_requireOpen hc _).bind
    fun _ d hd => mimics_onInner (h.flush d.inner hd)

end ReadAhead

namespace WriteBehind

def mapInner (g : σ → τ) (c : WriteBehind σ) : WriteBehind τ :=
  { inner := g c.inner, capacity := c.capacity, capacity_pos := c.capacity_pos, pending := c.pending,
    cursor := c.cursor, closed := c.closed }

def Over (Good : σ → Prop) (c : WriteBehind σ) : Prop := Good c.inner

variable {c : WriteBehind σ}

omit [Storage σ] [Storage τ] in
theorem mimics_onInner {α : Type} {act : StoreM σ α} {model : StoreM τ α}
    (h : Mimics Good view act model c.inner) :
    Mimics (Over Good) (mapInner view) (onInner act) (onInner model) c :=
  h.zoom (fun _ ht => ht) rfl fun _ => rfl

section Reading

variable (h : ReadsLike Good view)

include h

theorem mimics_length (hc : Over Good c) :
    Mimics (Over Good) (mapInner view) length length c := by
  apply (mimics_onInner (h.length c.inner hc)).bind
  intro n d hd
  apply mimics_get_bind
  obtain ⟨inner, capacity, hpos, pending, cursor, closed⟩ := d
  cases pending with
  | none => exact mimics_pure hd n
  | some p => exact mimics_pure hd _

theorem mimics_segment (hc : Over Good c) (pos n : Nat) :
    Mimics (Over Good) (mapInner view) (segment pos n) (segment pos n) c := by
  apply mimics_get_bind
  obtain ⟨inner, capacity, hpos, pending, cursor, closed⟩ := c
  dsimp only [mapInner]
  split
  · exact mimics_pure hc _
  · apply (mimics_onInner (h.length inner hc)).bind
    intro length d hd
    apply mimics_ite (fun _ => mimics_pure hd _)
    intro _
    apply (mimics_onInner (h.seek pos d.inner hd)).bind
    intro _ e he
    apply (mimics_onInner (h.read _ e.inner he)).bind
    intro result u hu
    exact mimics_pure hu _

theorem mimics_collect (hc : Over Good c) (wanted fuel : Nat) (got : Bytes) :
    Mimics (Over Good) (mapInner view) (collect wanted fuel got) (collect wanted fuel got) c := by
  induction fuel generalizing c got with
  | zero => exact mimics_pure hc got
  | succ fuel ih =>
    apply mimics_ite _ fun _ => mimics_pure hc got
    intro _
    apply mimics_get_bind
    apply (mimics_segment h hc _ _).bind
    intro r d hd
    exact mimics_ite (fun _ => mimics_pure hd _) fun _ => ih hd _

theorem mimics_read (hc : Over Good c) (n : Nat) :
    Mimics (Over Good) (mapInner view) (read n) (read n) c := by
  apply mimics_get_bind
  apply (mimics_requireOpen hc _).bind
  intro _ c₁ hc₁
  apply (mimics_length h hc₁).bind
  intro length c₂ hc₂
  apply mimics_get_bind
  apply mimics_ite (fun _ => mimics_pure hc₂ _)
  intro _
  apply (mimics_collect h hc₂ _ _ _).bind
  intro data c₃ hc₃
  exact Mimics.bind (mimics_modify hc₃ rfl) fun _ _ hd => mimics_pure hd _

theorem readsLike : ReadsLike (Over Good) (mapInner view) where
  length _ hc := mimics_get_bind <| (mimics_requireOpen hc _).bind fun _ _ hd => mimics_length h hd
  cursor _ hc := mimics_get_bind <| (mimics_requireOpen hc _).bind fun _ _ hd => mimics_pure hd _
  seek pos _ hc := mimics_get_bind <| (mimics_requireOpen hc _).bind fun _ _ hd =>
    (mimics_checkPosition hd pos).bind fun _ _ _ => mimics_set hc rfl
  read n _ hc := mimics_read h hc n

end Reading

variable (h : Imitates Good view)

include h

theorem mimics_settle (hc : Over Good c) :
    Mimics (Over Good) (mapInner view) settle settle c := by
  apply mimics_get_bind
  obtain ⟨inner, capacity, hpos, pending, cursor, closed⟩ := c
  cases pending with
  | none => exact mimics_pure hc ()
  | some p =>
    apply (mimics_onInner (h.seek p.start inner hc)).bind
    intro _ d hd
    apply (mimics_onInner (h.write p.bytes d.inner hd)).bind
    intro _ e he
    exact mimics_modify he rfl

theorem mimics_write (hc : Over Good c) (data : Bytes) :
    Mimics (Over Good) (mapInner view) (write data) (write data) c := by
  apply mimics_get_bind
  apply (mimics_requireOpen hc _).bind
  intro _ c₁ hc₁
  apply mimics_ite (fun _ => mimics_pure hc₁ ())
  intro _
  apply (mimics_endOf hc₁ _ _).bind
  intro stop c₂ hc₂
  have hmerged : (mapInner view c).merged? (mapInner view c).cursor data =
      c.merged? c.cursor data := rfl
  rw [hmerged]
  cases c.merged? c.cursor data with
  | some p => exact mimics_set hc rfl
  | none =>
    apply (mimics_settle h hc₂).bind
    intro _ c₃ hc₃
    apply mimics_ite
    · intro _
      apply (mimics_onInner (h.seek _ c₃.inner hc₃)).bind
      intro _ c₄ hc₄
      apply (mimics_onInner (h.write data c₄.inner hc₄)).bind
      intro _ c₅ hc₅
      exact mimics_modify hc₅ rfl
    · intro _
      apply Mimics.bind
      · exact mimics_modify hc₃ rfl
      intro _ c₄ hc₄
      exact mimics_modify hc₄ rfl

theorem imitates : Imitates (Over Good) (mapInner view) where
  toReadsLike := readsLike h.toReadsLike
  resize n _ hc := mimics_get_bind <| (mimics_requireOpen hc _).bind fun _ _ hd =>
    (mimics_checkPosition hd n).bind fun _ _ hd => (mimics_settle h hd).bind fun _ d hd =>
      (mimics_onInner (h.resize n d.inner hd)).bind fun _ _ hu => mimics_modify hu rfl
  write data _ hc := mimics_write h hc data
  flush _ hc := mimics_get_bind <| (mimics_requireOpen hc _).bind fun _ _ hd =>
    (mimics_settle h hd).bind fun _ d hd => mimics_onInner (h.flush d.inner hd)

end WriteBehind

end Layers

namespace Tower

variable {κ μ ν : Type}

def reseat (g : μ → ν) : {kinds : List LayerKind} → Tower κ μ kinds → Tower κ ν kinds
  | [], m => g m
  | .readAhead :: _, c => ReadAhead.mapInner (reseat g) c
  | .writeBehind :: _, c => WriteBehind.mapInner (reseat g) c
  | .blocks :: _, v => BlockView.mapInner (reseat g) v

theorem readsLike [Storage μ] [Storage ν] {Good : μ → Prop} {view : μ → ν}
    (h : ReadsLike Good view) :
    ∀ kinds, ReadsLike (fun t : Tower κ μ kinds => Good t.medium) (reseat view)
  | [] => h
  | .readAhead :: kinds => ReadAhead.readsLike (readsLike h kinds)
  | .writeBehind :: kinds => WriteBehind.readsLike (readsLike h kinds)
  | .blocks :: kinds => BlockView.readsLike (readsLike h kinds)

theorem imitates [Storage μ] [Storage ν] {Good : μ → Prop} {view : μ → ν} (h : Imitates Good view) :
    ∀ kinds, Imitates (fun t : Tower κ μ kinds => Good t.medium) (reseat view)
  | [] => h
  | .readAhead :: kinds => ReadAhead.imitates (imitates h kinds)
  | .writeBehind :: kinds => WriteBehind.imitates (imitates h kinds)
  | .blocks :: kinds => BlockView.imitates (imitates h kinds)

variable [Meaning μ] [Meaning ν] {Sane : μ → Prop} {Fine : ν → Prop} {view : μ → ν}

theorem plain_reseat : ∀ {kinds : List LayerKind} {t : Tower κ μ kinds},
    plain (view t.medium) = plain t.medium → plain (t.reseat view) = plain t
  | [], _, hp => hp
  | .readAhead :: _, c, hp =>
    congrArg (fun m : Memory => (⟨m.bytes, c.cursor, c.closed⟩ : Memory))
      (plain_reseat (t := c.inner) hp)
  | .writeBehind :: _, c, hp =>
    congrArg (fun m : Memory => (⟨Extent.seen c.pending m.bytes, c.cursor, c.closed⟩ : Memory))
      (plain_reseat (t := c.inner) hp)
  | .blocks :: _, v, hp => plain_reseat (t := v.inner) hp

/-- Layers that are sound over a medium are so over every other one with the same bytes. -/
theorem sound_reseat : ∀ {kinds : List LayerKind} {t : Tower κ μ kinds},
    Sound (fun _ _ => True) (fun _ => Sane) kinds 0 t → Fine (view t.medium) →
      plain (view t.medium) = plain t.medium →
        Sound (fun _ _ => True) (fun _ => Fine) kinds 0 (t.reseat view)
  | [], _, _, hfine, _ => hfine
  | .readAhead :: _, c, ⟨size, hc⟩, hfine, hp => by
    have hpt := plain_reseat (t := c.inner) hp
    refine ⟨size, sound_reseat (t := c.inner) hc.inner hfine hp, ?_, hc.windowSize, ?_, hc.valid_le⟩
    · exact (congrArg Memory.closed hpt).trans hc.closed
    · exact congrArg Memory.bytes hpt ▸ hc.mirrors
  | .writeBehind :: _, c, ⟨size, hc⟩, hfine, hp => by
    have hc := hc.sound
    have hpt := plain_reseat (t := c.inner) hp
    have ht := sound_reseat (t := c.inner) hc.inner hfine hp
    refine ⟨size, trivial, 0, Nat.le_refl 0, ht, ?_, hc.capacity, hc.pending⟩
    exact (congrArg Memory.closed hpt).trans hc.closed
  | .blocks :: _, v, hv, hfine, hp => sound_reseat (t := v.inner) hv hfine hp

end Tower

section Faultless

variable {μ : Type} [Storage μ]

theorem Kept.imitates {P : μ → Prop} (h : Kept P) : Imitates P id where
  length m hm := ⟨h.length m hm, rfl⟩
  resize n m hm := ⟨h.resize n m hm, rfl⟩
  cursor m hm := ⟨h.cursor m hm, rfl⟩
  seek pos m hm := ⟨h.seek pos m hm, rfl⟩
  read n m hm := ⟨h.read n m hm, rfl⟩
  write data m hm := ⟨h.write data m hm, rfl⟩
  flush m hm := ⟨h.flush m hm, rfl⟩

variable [Meaning μ] {Good : μ → Prop}

/-- A good medium cannot be told, as long as it is not closed, from one that never fails without a
reason. -/
def Faultless (Good : μ → Prop) : Prop :=
  ∃ (ν : Type) (_ : Storage ν) (_ : Meaning ν) (view : μ → ν) (Fine : ν → Prop),
    Contract .never Fine ∧ Imitates Good view ∧ ∀ m, Good m → Fine (view m) ∧ plain (view m) = plain m

def Legible (Good : μ → Prop) : Prop :=
  ∃ (ν : Type) (_ : Storage ν) (_ : Meaning ν) (view : μ → ν) (Fine : ν → Prop),
    Contract .never Fine ∧ ReadsLike Good view ∧ ∀ m, Good m → Fine (view m) ∧ plain (view m) = plain m

theorem Contract.faultless (h : Contract .never Good) : Faultless Good :=
  ⟨μ, _, _, id, Good, h, h.kept.imitates, fun _ hm => ⟨hm, rfl⟩⟩

theorem Faultless.legible (h : Faultless Good) : Legible Good := by
  obtain ⟨ν, _, _, view, Fine, hfine, himitates, hview⟩ := h
  exact ⟨ν, _, _, view, Fine, hfine, himitates.toReadsLike, hview⟩

end Faultless

namespace FileHandle

/-- An open handle that knows the length of its file, and may write to it if it has to. -/
structure Ready (writes : Prop) (h : FileHandle) : Prop where
  exact : h.Exact
  writable : writes → h.writable = true
  isOpen : h.closed = false

variable {h : FileHandle} {writes : Prop}

theorem Ready.mimics_resize (hh : h.Ready True) (n : Nat) :
    Mimics (Ready True) plain (Storage.resize n) (Storage.resize n) h := by
  by_cases hn : n ≤ maxPosition
  · have hrun : (Storage.resize n : StoreM FileHandle Unit).run h = (.ok (),
        { h with bytes := h.bytes.resize n, length := n, cursor := min h.cursor n }) := by
      simp [Storage.resize, resize, run_bind, checkPosition, Nat.not_lt.2 hn, requireOpen, hh.isOpen,
        hh.writable trivial]
    refine .of_run hrun ⟨?_, hh.writable, hh.isOpen⟩ (Memory.run_resize hh.isOpen hn)
    exact (Bytes.size_resize h.bytes n).symm
  · have hn := Nat.lt_of_not_le hn
    have hrun : (Storage.resize n : StoreM FileHandle Unit).run h =
        (.error (.argument (.positionTooLarge n)), h) := by
      simp [Storage.resize, resize, run_bind, checkPosition, hn]
    exact .of_run hrun hh (Memory.run_resize_refused hh.isOpen hn)

theorem Ready.mimics_read (hh : h.Ready writes) (n : Nat) :
    Mimics (Ready writes) plain (Storage.read n) (Storage.read n) h := by
  have hlen : h.length = h.bytes.size := hh.exact
  by_cases hc : h.cursor < h.bytes.size
  · have hdata : h.bytes.slice h.cursor (min n (h.length - h.cursor)) = h.bytes.slice h.cursor n := by
      rw [hlen]
      apply Bytes.ext_byte
      grind
    have hsize := Bytes.size_slice h.bytes h.cursor n
    have hsome : ¬((h.bytes.slice h.cursor n).size = 0 ∧ 0 < min n (h.length - h.cursor)) := by omega
    have hrun : (Storage.read n : StoreM FileHandle ReadResult).run h =
        (.ok (.bytes (h.bytes.slice h.cursor n)),
          { h with cursor := h.cursor + (h.bytes.slice h.cursor n).size }) := by
      simp only [Storage.read, read, run_bind, run_get, requireOpen, hh.isOpen, Bool.false_eq_true,
        if_false, run_pure, Nat.not_le.2 (hlen ▸ hc), hdata, if_neg hsome, run_set]
    exact .of_run hrun { hh with } (Memory.run_read hh.isOpen n hc)
  · have hle := Nat.le_of_not_lt hc
    have hrun : (Storage.read n : StoreM FileHandle ReadResult).run h = (.ok .eof, h) := by
      simp [Storage.read, read, run_bind, requireOpen, hh.isOpen, hlen, hle]
    exact .of_run hrun hh (Memory.run_read_eof hh.isOpen n hle)

theorem Ready.mimics_write (hh : h.Ready True) (data : Bytes) :
    Mimics (Ready True) plain (Storage.write data) (Storage.write data) h := by
  by_cases hd : data.size = 0
  · have hrun : (Storage.write data : StoreM FileHandle Unit).run h = (.ok (), h) := by
      simp [Storage.write, write, run_bind, requireOpen, hh.isOpen, hd]
    exact .of_run hrun hh (Memory.run_write_nothing hh.isOpen hd)
  · have hpos := Nat.pos_of_ne_zero hd
    by_cases hfit : h.cursor + data.size ≤ maxPosition
    · have hrun : (Storage.write data : StoreM FileHandle Unit).run h = (.ok (),
          { h with
            bytes := h.bytes.overwrite h.cursor data
            cursor := h.cursor + data.size
            length := max h.length (h.cursor + data.size) }) := by
        simp [Storage.write, write, run_bind, requireOpen, hh.isOpen, hd, endOf, Nat.not_lt.2 hfit,
          hh.writable trivial]
      refine .of_run hrun ⟨?_, hh.writable, hh.isOpen⟩ (Memory.run_write hh.isOpen hpos hfit)
      show max h.length (h.cursor + data.size) = (h.bytes.overwrite h.cursor data).size
      rw [Bytes.size_overwrite, hh.exact]
    · have hfit := Nat.lt_of_not_le hfit
      have hrun : (Storage.write data : StoreM FileHandle Unit).run h =
          (.error (.argument (.transferTooLong data.size h.cursor)), h) := by
        simp [Storage.write, write, run_bind, requireOpen, hh.isOpen, hd, endOf, hfit]
      exact .of_run hrun hh (Memory.run_write_refused hh.isOpen hpos hfit)

theorem ready_readsLike : ReadsLike (Ready writes) plain where
  length h hh := by
    have hlen : h.length = h.bytes.size := hh.exact
    have hrun : (Storage.length : StoreM FileHandle Nat).run h = (.ok h.bytes.size, h) := by
      simp [Storage.length, run_bind, requireOpen, hh.isOpen, hlen]
    exact .of_run hrun hh (Memory.run_length hh.isOpen)
  cursor _ hh := mimics_get_bind <| (mimics_requireOpen hh _).bind fun _ _ hd => mimics_pure hd _
  seek pos _ hh := mimics_get_bind <| (mimics_requireOpen hh _).bind fun _ _ hd =>
    (mimics_checkPosition hd pos).bind fun _ _ _ => mimics_set { hh with } rfl
  read n _ hh := hh.mimics_read n

theorem ready_imitates : Imitates (Ready True) plain where
  toReadsLike := ready_readsLike
  resize n _ hh := hh.mimics_resize n
  write data _ hh := hh.mimics_write data
  flush _ hh := mimics_get_bind (mimics_requireOpen hh _)

/-- An open handle that knows the length of its file, which is not too long, and may write to it if it
has to. -/
structure Serving (writes : Prop) (h : FileHandle) : Prop where
  exact : h.Exact
  writable : writes → h.writable = true
  isOpen : h.closed = false
  bounded : (plain h).Bounded

theorem serving_eq : Serving writes = fun h => h.Ready writes ∧ (plain h).Bounded := by
  funext h
  apply propext
  constructor
  · exact fun hh => ⟨⟨hh.exact, hh.writable, hh.isOpen⟩, hh.bounded⟩
  · exact fun ⟨hh, hb⟩ => ⟨hh.exact, hh.writable, hh.isOpen, hb⟩

theorem readsLike : ReadsLike (Serving writes) plain := by
  rw [serving_eq]
  exact ready_readsLike.and_view Memory.contract.kept

theorem imitates : Imitates (Serving True) plain := by
  rw [serving_eq]
  exact ready_imitates.and_view Memory.contract.kept

end FileHandle

namespace Medium

def Serving (writes : Prop) : Medium → Prop
  | memory m => m.Bounded
  | file h => h.Serving writes
  | directory _ => False
  | probe _ => False

variable {writes : Prop}

theorem mimics_perform {α : Type} {act : {σ : Type} → [Storage σ] → StoreM σ α}
    (hm : ∀ m, Memory.Bounded m → Mimics Memory.Bounded id act act m)
    (hh : ∀ h, FileHandle.Serving writes h → Mimics (FileHandle.Serving writes) plain act act h)
    (s : Medium) (hs : s.Serving writes) : Mimics (Serving writes) plain (perform act) act s := by
  cases s with
  | memory m =>
    obtain ⟨ht, hrun⟩ := hm m hs
    exact ⟨ht, hrun⟩
  | file h =>
    obtain ⟨ht, hrun⟩ := hh h hs
    exact ⟨ht, hrun⟩
  | directory | probe => exact hs.elim

theorem readsLike : ReadsLike (Serving writes) plain where
  length := mimics_perform Memory.contract.kept.imitates.length FileHandle.readsLike.length
  cursor := mimics_perform Memory.contract.kept.imitates.cursor FileHandle.readsLike.cursor
  seek pos :=
    mimics_perform (Memory.contract.kept.imitates.seek pos) (FileHandle.readsLike.seek pos)
  read n := mimics_perform (Memory.contract.kept.imitates.read n) (FileHandle.readsLike.read n)

theorem imitates : Imitates (Serving True) plain where
  toReadsLike := readsLike
  resize n :=
    mimics_perform (Memory.contract.kept.imitates.resize n) (FileHandle.imitates.resize n)
  write data :=
    mimics_perform (Memory.contract.kept.imitates.write data) (FileHandle.imitates.write data)
  flush := mimics_perform Memory.contract.kept.imitates.flush FileHandle.imitates.flush

theorem Serving.plain_bounded {s : Medium} (hs : s.Serving writes) :
    (plain s).Bounded ∧ plain (plain s) = plain s := by
  cases s with
  | memory m => exact ⟨hs, rfl⟩
  | file h => exact ⟨hs.bounded, rfl⟩
  | directory | probe => exact hs.elim

theorem faultless : Faultless (Serving True) :=
  ⟨Memory, _, _, plain, Memory.Bounded, Memory.contract, imitates, fun _ hs => hs.plain_bounded⟩

end Medium

end ByteTower
