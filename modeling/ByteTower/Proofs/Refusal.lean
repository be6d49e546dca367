import ByteTower.Proofs.Splicing

namespace ByteTower

open StoreM

section Reasons

/-- Why a transfer of `count` bytes at byte `offset` of a block is refused, in a store of `length`
bytes with blocks of `size` bytes. -/
def BlockView.refusal? (size length block offset count : Nat) : Option StoreError :=
  if length / size ≤ block then some (.range (.noSuchBlock block (length / size)))
  else if size ≤ offset then some (.range (.outsideBlock offset size))
  else if size < offset + count then some (.range (.crossesBlock count offset size))
  else none

namespace Edit

/-- Why an edit is refused, in a store of `length` bytes with blocks of `size` bytes. Blocks that
are too many by themselves are told from blocks that only leave no room for what lies behind the
last one. -/
def refusal? (size length : Nat) : Edit → Option StoreError
  | insert index count =>
    if count = 0 then some (.argument .insertsNothing)
    else if length / size < index then some (.range (.insertBeyond index (length / size)))
    else if maxPosition < length + count * size then
      if maxPosition < (length / size + count) * size then
        some (.argument (.tooManyBlocks count (length / size) (maxPosition / size)))
      else some (.argument (.positionTooLarge (length + count * size)))
    else none
  | delete index count =>
    if count = 0 then some (.argument .deletesNothing)
    else if length / size < index + count then
      some (.range (.deleteBeyond count index (length / size)))
    else none
  | write block offset data => BlockView.refusal? size length block offset data.size

end Edit

theorem BlockView.refusal?_eq_none_iff {size length block offset count : Nat} :
    refusal? size length block offset count = none ↔ Inside size length block offset count := by
  unfold refusal? Inside
  grind

theorem Edit.refusal?_eq_none_iff {κ σ : Type} {v : BlockView κ σ} {b : Bytes}
    (hmax : b.size ≤ maxPosition) {edit : Edit} :
    edit.refusal? v.blockSize b.size = none ↔ edit.Allowed v.blockSize b := by
  cases edit with
  | insert index count =>
    rw [BlockView.allowed_insert_iff]
    unfold refusal?
    grind
  | delete index count =>
    rw [BlockView.allowed_delete_iff hmax]
    unfold refusal?
    grind
  | write block offset data =>
    rw [BlockView.allowed_write_iff hmax]
    exact BlockView.refusal?_eq_none_iff

end Reasons

namespace StoreM

variable {σ α β : Type} {act : StoreM σ α} {e : StoreError} {s : σ} {Q : σ → Prop}

def Refuses (act : StoreM σ α) (e : StoreError) (s : σ) (Q : σ → Prop) : Prop :=
  act.Meets s (fun _ _ => False) fun e' t => e' = e ∧ Q t

theorem Refuses.exists_run (h : act.Refuses e s Q) : ∃ t, act.run s = (.error e, t) ∧ Q t := by
  rcases hr : act.run s with ⟨_ | _, t⟩
  · obtain ⟨rfl, ht⟩ := h.of_run_error hr
    exact ⟨t, rfl, ht⟩
  · exact (h.of_run_ok hr).elim

theorem Refuses.bind (h : act.Refuses e s Q) (next : α → StoreM σ β) :
    (act >>= next).Refuses e s Q := Meets.bind h fun _ _ hf => hf.elim

theorem refuses_ite {p : Prop} [Decidable p] {e' : StoreError} {reason : Option StoreError}
    (he : (if p then some e' else reason) = some e) (hs : Q s)
    (hrest : ¬p → reason = some e → act.Refuses e s Q) :
    (if p then throw e' else act).Refuses e s Q := by
  by_cases hp : p
  · rw [if_pos hp] at he ⊢
    exact meets_throw ⟨Option.some.inj he, hs⟩
  · rw [if_neg hp] at he ⊢
    exact hrest hp he

end StoreM

section Candid

variable {κ σ : Type} [Storage σ]

/-- A store of which `Q` holds says that it has `size` bytes, and refuses to get longer than a store
may be. Either leaves it such that `Q` holds. -/
structure Candid (Q : σ → Prop) (size : Nat) : Prop where
  length : ∀ s, Q s → Storage.length.Meets s (fun n t => n = size ∧ Q t) fun _ _ => False
  resize : ∀ n s, Q s → maxPosition < n →
    (Storage.resize n).Refuses (.argument (.positionTooLarge n)) s Q

namespace BlockView

def Stays (Q : σ → Prop) (v w : BlockView κ σ) : Prop := ∃ s, Q s ∧ w = { v with inner := s }

variable {Q : σ → Prop} {v w : BlockView κ σ}

omit [Storage σ] in
theorem Stays.blockSize (hw : Stays Q v w) : w.blockSize = v.blockSize := by
  obtain ⟨_, _, rfl⟩ := hw
  rfl

variable {size : Nat} (h : Candid Q size) (hw : Stays Q v w) {e : StoreError}

include h hw

theorem candid_length : (onInner Storage.length).Meets w (fun n w' => n = size ∧ Stays Q v w')
    fun _ _ => False := by
  obtain ⟨s, hs, rfl⟩ := hw
  exact Meets.zoom ((h.length s hs).imp_ok fun n t ht => ⟨ht.1, t, ht.2, rfl⟩)

theorem candid_blockCount : blockCount.Meets w
    (fun n w' => n = size / v.blockSize ∧ Stays Q v w') fun _ _ => False := by
  apply (candid_length h hw).bind_unfailing
  rintro _ w' ⟨rfl, hw'⟩
  exact meets_get_bind (meets_pure ⟨by rw [hw'.blockSize], hw'⟩)

theorem candid_resize {n : Nat} (hn : maxPosition < n) :
    (onInner (Storage.resize n)).Refuses (.argument (.positionTooLarge n)) w (Stays Q v) := by
  obtain ⟨s, hs, rfl⟩ := hw
  exact Meets.zoom (Meets.imp_error (h.resize n s hs hn) fun e t ht => ⟨ht.1, t, ht.2, rfl⟩)

theorem candid_locate {block offset count : Nat}
    (he : refusal? v.blockSize size block offset count = some e) :
    (locate block offset count).Refuses e w (Stays Q v) := by
  apply (candid_blockCount h hw).bind_unfailing
  rintro _ w ⟨rfl, hw⟩
  apply meets_get_bind
  rw [hw.blockSize]
  refine refuses_ite he hw fun _ he => refuses_ite he hw fun _ he => ?_
  have hcross : v.blockSize < offset + count ↔ v.blockSize - offset < count := by omega
  simp only [hcross] at he
  exact refuses_ite he hw fun _ he => nomatch he

theorem candid_openGap {index count : Nat}
    (he : (Edit.insert index count).refusal? v.blockSize size = some e) :
    (openGap index count).Refuses e w (Stays Q v) := by
  apply (candid_blockCount h hw).bind_unfailing
  rintro _ w ⟨rfl, hw⟩
  apply meets_get_bind
  refine refuses_ite he hw fun hcount he => refuses_ite he hw fun _ he => ?_
  -- blocks that are too many by themselves are too many with what lies behind them
  have htoo := maxBlockCount_sub_lt_iff (v := w) (size / v.blockSize) (Nat.pos_of_ne_zero hcount)
  have hle := Nat.div_mul_le_self size v.blockSize
  have hsum := Nat.add_mul (size / v.blockSize) count v.blockSize
  rw [hw.blockSize] at htoo
  split
  case isTrue hmany =>
    rw [htoo] at hmany
    rw [if_pos (by omega), if_pos hmany] at he
    refine meets_throw ⟨?_, hw⟩
    rw [maxBlockCount, hw.blockSize]
    exact Option.some.inj he
  case isFalse hfew =>
    rw [htoo] at hfew
    apply (candid_length h hw).bind_unfailing
    rintro n w' ⟨hn, hw'⟩
    rw [hn, hw.blockSize]
    by_cases hlong : maxPosition < size + count * v.blockSize
    · rw [if_pos hlong, if_neg hfew] at he
      obtain rfl := Option.some.inj he
      exact (candid_resize h hw' hlong).bind _
    · rw [if_neg hlong] at he
      cases he

theorem candid_closeGap {index count : Nat}
    (he : (Edit.delete index count).refusal? v.blockSize size = some e) :
    (closeGap index count).Refuses e w (Stays Q v) := by
  apply (candid_blockCount h hw).bind_unfailing
  rintro _ w ⟨rfl, hw⟩
  apply meets_get_bind
  exact refuses_ite he hw fun _ he => refuses_ite he hw fun _ he => nomatch he

/-- An edit that there is a reason to refuse fails for that reason. -/
theorem candid_act {edit : Edit} (he : edit.refusal? v.blockSize size = some e) :
    edit.act.Refuses e w (Stays Q v) := by
  cases edit with
  | insert index count => exact candid_openGap h hw he
  | delete index count => exact candid_closeGap h hw he
  | write block offset data => exact (candid_locate h hw he).bind _

end BlockView

end Candid

namespace Memory

theorem state_length (m : Memory) : ((Storage.length : StoreM Memory Nat).run m).2 = m := by
  cases hc : m.closed with
  | false => rw [run_length hc]
  | true => rw [run_length_closed hc]

theorem state_resize (m : Memory) {n : Nat} (hn : maxPosition < n) :
    ((Storage.resize n : StoreM Memory Unit).run m).2 = m := by
  cases hc : m.closed with
  | false => rw [run_resize_refused hc hn]
  | true => rw [run_resize_closed hc]

end Memory

section Unmoved

variable {μ : Type} [Storage μ]

/-- Nothing is left on a good medium of a question for its length, or of a request for a length that
no store may have. -/
structure Traceless (Good : μ → Prop) : Prop where
  length : ∀ m, Good m → (Storage.length.run m).2 = m
  resize : ∀ m n, Good m → maxPosition < n → ((Storage.resize n).run m).2 = m

/-- All that a medium stands for is as it was, and the medium too where such calls leave nothing. -/
structure Unmoved [Meaning μ] (Good : μ → Prop) (m m' : μ) : Prop where
  good : Good m'
  plain : plain m' = plain m
  same : Traceless Good → m' = m

variable [Meaning μ] {Good : μ → Prop} {m m' : μ}

theorem unmoved_self (hm : Good m) : Unmoved Good m m := ⟨hm, rfl, fun _ => rfl⟩

theorem Faultless.matches (h : Faultless Good) : Matches Good plain := by
  obtain ⟨ν, _, _, view, Fine, hfine, himitates, hview⟩ := h
  have hthrough := himitates.matches.through hfine.matches fun m hm => (hview m hm).2
  have heq : (fun m => Good m ∧ Fine (view m)) = Good :=
    funext fun m => propext ⟨And.left, fun hm => ⟨hm, (hview m hm).1⟩⟩
  rwa [heq] at hthrough

theorem Unmoved.length (h : Faultless Good) (hm : Unmoved Good m m') :
    Unmoved Good m (Storage.length.run m').2 := by
  obtain ⟨hgood, hrun⟩ := h.matches.length m' hm.good
  have hstate := (congrArg Prod.snd hrun).symm.trans (Memory.state_length _)
  exact ⟨hgood, hstate.trans hm.plain, fun hsame => (hsame.length m' hm.good).trans (hm.same hsame)⟩

theorem Unmoved.resize (h : Faultless Good) (hm : Unmoved Good m m') {n : Nat}
    (hn : maxPosition < n) : Unmoved Good m ((Storage.resize n).run m').2 := by
  obtain ⟨hgood, hrun⟩ := h.matches.resize n m' hm.good
  have hstate := (congrArg Prod.snd hrun).symm.trans (Memory.state_resize _ hn)
  exact ⟨hgood, hstate.trans hm.plain,
    fun hsame => (hsame.resize m' n hm.good hn).trans (hm.same hsame)⟩

end Unmoved

namespace FileHandle

theorem state_length (h : FileHandle) : ((Storage.length : StoreM FileHandle Nat).run h).2 = h := by
  cases hc : h.closed with
  | false => simp [Storage.length, run_bind, requireOpen, hc]
  | true => simp [Storage.length, run_bind, requireOpen, hc]

theorem state_resize (h : FileHandle) {n : Nat} (hn : maxPosition < n) :
    ((Storage.resize n : StoreM FileHandle Unit).run h).2 = h := by
  simp [Storage.resize, resize, run_bind, checkPosition, hn]

end FileHandle

theorem Medium.traceless {writes : Prop} : Traceless (Serving writes) where
  length s hs := by
    cases s with
    | memory m => exact congrArg Medium.memory m.state_length
    | file h => exact congrArg Medium.file h.state_length
    | directory | probe => exact hs.elim
  resize s n hs hn := by
    cases s with
    | memory m => exact congrArg Medium.memory (m.state_resize hn)
    | file h => exact congrArg Medium.file (h.state_resize hn)
    | directory | probe => exact hs.elim

section Layers

variable {κ σ : Type} [Storage σ] {P : σ → Prop} {n : Nat}

namespace ReadAhead

variable {c : ReadAhead σ} {Q : ReadAhead σ → Prop} (hc : Q c)
variable (hput : ∀ s, P s → Q { c with inner := s })

include hc hput

theorem ends_length (h : Storage.length.Ends P c.inner) :
    (Storage.length : StoreM (ReadAhead σ) Nat).Ends Q c := by
  apply meets_get_bind
  cases ho : c.closed with
  | true => exact meets_throw hc
  | false => exact meets_requireOpen_bind rfl (Meets.zoom (h.imp (fun _ => hput) fun _ => hput))

theorem meets_resize_error (h : (Storage.resize n).Meets c.inner (fun _ _ => True) fun _ => P) :
    (Storage.resize n : StoreM (ReadAhead σ) Unit).Meets c (fun _ _ => True) fun _ => Q := by
  apply meets_get_bind
  cases ho : c.closed with
  | true => exact meets_throw hc
  | false =>
    have hinner : (onInner (Storage.resize n)).Meets c (fun _ _ => True) fun _ => Q :=
      Meets.zoom (h.imp (fun _ _ _ => trivial) fun _ => hput)
    exact meets_requireOpen_bind rfl (hinner.bind fun _ _ _ => meets_modify trivial)

end ReadAhead

namespace WriteBehind

variable {c : WriteBehind σ} {Q : WriteBehind σ → Prop} (hc : Q c)

include hc

theorem ends_length (hput : ∀ s, P s → Q { c with inner := s })
    (h : Storage.length.Ends P c.inner) :
    (Storage.length : StoreM (WriteBehind σ) Nat).Ends Q c := by
  apply meets_get_bind
  cases ho : c.closed with
  | true => exact meets_throw hc
  | false =>
    have hinner : (onInner Storage.length).Ends Q c :=
      Meets.zoom (h.imp (fun _ => hput) fun _ => hput)
    refine meets_requireOpen_bind rfl (hinner.bind fun length d hd => meets_get_bind ?_)
    split
    · exact meets_pure hd
    · exact meets_pure hd

theorem meets_resize_error (hn : maxPosition < n) :
    (Storage.resize n : StoreM (WriteBehind σ) Unit).Meets c (fun _ _ => True) fun _ => Q := by
  apply meets_get_bind
  cases ho : c.closed with
  | true => exact meets_throw hc
  | false =>
    apply meets_requireOpen_bind rfl
    rw [checkPosition, if_pos hn]
    exact meets_throw hc

end WriteBehind

namespace BlockView

variable {v : BlockView κ σ} {Q : BlockView κ σ → Prop}
variable (hput : ∀ s, P s → Q { v with inner := s })

include hput

theorem ends_length (h : Storage.length.Ends P v.inner) :
    (Storage.length : StoreM (BlockView κ σ) Nat).Ends Q v := by
  have hinner : (onInner Storage.length).Ends Q v :=
    Meets.zoom (h.imp (fun _ => hput) fun _ => hput)
  exact hinner

theorem meets_resize_error (h : (Storage.resize n).Meets v.inner (fun _ _ => True) fun _ => P) :
    (Storage.resize n : StoreM (BlockView κ σ) Unit).Meets v (fun _ _ => True) fun _ => Q := by
  have hinner : (onInner (Storage.resize n)).Meets v (fun _ _ => True) fun _ => Q :=
    Meets.zoom (h.imp (fun _ _ _ => trivial) fun _ => hput)
  exact hinner

end BlockView

end Layers

namespace Tower

variable {κ μ : Type} {A : μ → Prop}

theorem mapMedium_medium : ∀ {kinds : List LayerKind} (t : Tower κ μ kinds),
    t.mapMedium (fun _ => t.medium) = t
  | [], _ => rfl
  | .readAhead :: _, c => congrArg (fun inner => { c with inner }) (mapMedium_medium c.inner)
  | .writeBehind :: _, c => congrArg (fun inner => { c with inner }) (mapMedium_medium c.inner)
  | .blocks :: _, v => congrArg (fun inner => { v with inner }) (mapMedium_medium v.inner)

theorem medium_mapMedium (g : μ → μ) : ∀ {kinds : List LayerKind} (t : Tower κ μ kinds),
    (t.mapMedium g).medium = g t.medium
  | [], _ => rfl
  | .readAhead :: _, c => medium_mapMedium g c.inner
  | .writeBehind :: _, c => medium_mapMedium g c.inner
  | .blocks :: _, v => medium_mapMedium g v.inner

theorem mapMedium_mapMedium (g g' : μ → μ) : ∀ {kinds : List LayerKind} (t : Tower κ μ kinds),
    (t.mapMedium g).mapMedium g' = t.mapMedium fun m => g' (g m)
  | [], _ => rfl
  | .readAhead :: _, c =>
    congrArg (fun inner => { c with inner }) (mapMedium_mapMedium g g' c.inner)
  | .writeBehind :: _, c =>
    congrArg (fun inner => { c with inner }) (mapMedium_mapMedium g g' c.inner)
  | .blocks :: _, v => congrArg (fun inner => { v with inner }) (mapMedium_mapMedium g g' v.inner)

variable {kinds : List LayerKind} {s t u : Tower κ μ kinds}

def Above (A : μ → Prop) (s t : Tower κ μ kinds) : Prop := ∃ m, A m ∧ t = s.mapMedium fun _ => m

theorem above_self (h : A t.medium) : Above A t t := ⟨t.medium, h, t.mapMedium_medium.symm⟩

theorem Above.medium (h : Above A s t) : A t.medium := by
  obtain ⟨m, hm, rfl⟩ := h
  rw [medium_mapMedium]
  exact hm

theorem Above.trans (h : Above A s t) (h' : Above A t u) : Above A s u := by
  obtain ⟨_, _, rfl⟩ := h
  obtain ⟨m, hm, rfl⟩ := h'
  exact ⟨m, hm, mapMedium_mapMedium _ _ s⟩

variable [Storage μ]

theorem above_length : ∀ {kinds : List LayerKind} {t : Tower κ μ kinds}, A t.medium →
    A (Storage.length.run t.medium).2 → Storage.length.Ends (Above A t) t
  | [], _, _, hafter => ends_iff.2 ⟨_, hafter, rfl⟩
  | .readAhead :: _, c, hself, hafter =>
    ReadAhead.ends_length (above_self hself) (fun _ ⟨m, hm, hs⟩ => ⟨m, hm, hs ▸ rfl⟩)
      (above_length (t := c.inner) hself hafter)
  | .writeBehind :: _, c, hself, hafter =>
    WriteBehind.ends_length (above_self hself) (fun _ ⟨m, hm, hs⟩ => ⟨m, hm, hs ▸ rfl⟩)
      (above_length (t := c.inner) hself hafter)
  | .blocks :: _, v, hself, hafter =>
    BlockView.ends_length (fun _ ⟨m, hm, hs⟩ => ⟨m, hm, hs ▸ rfl⟩)
      (above_length (t := v.inner) hself hafter)

theorem above_resize {n : Nat} (hn : maxPosition < n) : ∀ {kinds : List LayerKind}
    {t : Tower κ μ kinds}, A t.medium → A ((Storage.resize n).run t.medium).2 →
      (Storage.resize n).Meets t (fun _ _ => True) fun _ u => Above A t u
  | [], t, _, hafter => (ends_iff.2 ⟨_, hafter, rfl⟩ : (Storage.resize n).Ends (Above A t) t).imp
    (fun _ _ _ => trivial) fun _ _ hu => hu
  | .readAhead :: _, c, hself, hafter =>
    ReadAhead.meets_resize_error (above_self hself) (fun _ ⟨m, hm, hs⟩ => ⟨m, hm, hs ▸ rfl⟩)
      (above_resize hn (t := c.inner) hself hafter)
  | .writeBehind :: _, _, hself, _ => WriteBehind.meets_resize_error (above_self hself) hn
  | .blocks :: _, v, hself, hafter =>
    BlockView.meets_resize_error (fun _ ⟨m, hm, hs⟩ => ⟨m, hm, hs ▸ rfl⟩)
      (above_resize hn (t := v.inner) hself hafter)

variable [Meaning μ] {P : Tower κ μ kinds → Prop} {Good : μ → Prop}

/-- `u` is `t` after calls that have not touched it. -/
structure Untouched (P : Tower κ μ kinds → Prop) (Good : μ → Prop) (t u : Tower κ μ kinds) :
    Prop where
  good : P u
  plain : plain u = plain t
  layers : Above (Unmoved Good t.medium) t u

theorem untouched_self (ht : P t) (hgood : Good t.medium) : Untouched P Good t t :=
  ⟨ht, rfl, above_self (unmoved_self hgood)⟩

/-- An open tower over a medium without faults says how long it is and refuses to get too long, and
neither changes any layer of it. -/
theorem candid (h : Matches P plain) (hfaultless : Faultless Good) (ho : (plain t).closed = false) :
    Candid (Untouched P Good t) (plain t).bytes.size where
  length u := by
    rintro ⟨hu, hp, hbelow⟩
    have hplain : (Storage.length : StoreM Memory Nat).Meets (plain u)
        (fun n m => n = (plain t).bytes.size ∧ m = plain t) fun _ _ => False :=
      meets_of_ok (Memory.run_length (hp ▸ ho)) ⟨by rw [hp], hp⟩
    have hanswer := (h.length u hu).meets hplain
    have hlayers := above_length (A := Unmoved Good t.medium) hbelow.medium
      (hbelow.medium.length hfaultless)
    apply (hanswer.and hlayers).imp
    · rintro n s ⟨⟨hs, hn, hps⟩, habove⟩
      exact ⟨hn, hs, hps, hbelow.trans habove⟩
    · exact fun _ _ hf => hf.1.2
  resize n u := by
    rintro ⟨hu, hp, hbelow⟩ hn
    have hplain : (Storage.resize n : StoreM Memory Unit).Meets (plain u) (fun _ _ => False)
        fun e m => e = .argument (.positionTooLarge n) ∧ m = plain t :=
      meets_of_error (Memory.run_resize_refused (hp ▸ ho) hn) ⟨rfl, hp⟩
    have hanswer := (h.resize n u hu).meets hplain
    have hlayers := above_resize hn (A := Unmoved Good t.medium) hbelow.medium
      (hbelow.medium.resize hfaultless hn)
    apply (hanswer.and hlayers).imp
    · exact fun _ _ hf => hf.1.2
    · rintro e s ⟨⟨hs, he, hps⟩, habove⟩
      exact ⟨he, hs, hps, hbelow.trans habove⟩

end Tower

/-- Over a medium that fails no more, a call on blocks is refused, before a listener is told,
exactly where there is a reason to, and for that reason. No layer has changed then, nor has what the
medium stands for. -/
theorem refusal_exact {κ ω ς ρ μ : Type} [Audience κ ω] [Collector ς] [ByteSource ρ] [Storage μ]
    [Meaning μ] {f : Failures} {Sane Good : μ → Prop} (h : Contract f Sane)
    (hfaultless : Faultless Good) {m : μ} (hm : Sane m) (world : ω) (actions : List (Action κ ς ρ))
    {kinds : List LayerKind} {v : BlockView κ (Tower κ μ kinds)} {heard : ω}
    (hv : leave (actions.map Action.run) (AnyTower.ofMedium m, world) =
      (⟨.blocks :: kinds, v⟩, heard))
    (hgood : Good v.inner.medium) (hopen : Storage.isClosed v = false) :
    (∀ edit : Edit,
      (∀ e, edit.refusal? v.blockSize (plain v).bytes.size = some e →
        ∃ m, edit.run.run (v, heard) =
            (.error e, { v with inner := v.inner.mapMedium fun _ => m }, heard) ∧
          Unmoved Good v.inner.medium m) ∧
      (edit.refusal? v.blockSize (plain v).bytes.size = none → ∃ w, edit.act.run v = (.ok (), w))) ∧
    ∀ block offset count,
      (∀ e, BlockView.refusal? v.blockSize (plain v).bytes.size block offset count = some e →
        ∃ m, (BlockView.readBlock block offset count).run v =
            (.error e, { v with inner := v.inner.mapMedium fun _ => m }) ∧
          Unmoved Good v.inner.medium m) ∧
      (BlockView.refusal? v.blockSize (plain v).bytes.size block offset count = none →
        ∃ data w, (BlockView.readBlock block offset count).run v = (.ok data, w)) := by
  obtain ⟨P, hrel, hself⟩ :=
    AnyTower.exists_reliable_leave h hfaultless hm world actions hv hgood hopen
  have hcandid := Tower.candid hrel.matching hfaultless hself.isOpen
  have hstays : BlockView.Stays (Tower.Untouched P Good v.inner) v v :=
    ⟨v.inner, Tower.untouched_self hself.good hgood, rfl⟩
  constructor
  · intro edit
    constructor
    · intro e he
      obtain ⟨_, hrun, _, ⟨-, -, m, hunmoved, rfl⟩, rfl⟩ :=
        (BlockView.candid_act hcandid hstays he).exists_run
      exact ⟨m, Edit.run_of_error hrun, hunmoved⟩
    · intro hnone
      obtain ⟨w, hrun, -⟩ :=
        hrel.exists_act hself edit ((Edit.refusal?_eq_none_iff (hrel.bounded hself)).1 hnone)
      exact ⟨w, hrun⟩
  · intro block offset count
    constructor
    · intro e he
      obtain ⟨_, hrun, _, ⟨-, -, m, hunmoved, rfl⟩, rfl⟩ :=
        ((BlockView.candid_locate hcandid hstays he).bind _).exists_run
      exact ⟨m, hrun, hunmoved⟩
    · intro hnone
      have hin := BlockView.refusal?_eq_none_iff.1 hnone
      obtain ⟨w, hrun⟩ := (hrel.shows hself).readBlock block offset count hin
      exact ⟨_, w, hrun⟩

def eightBytes : Medium := .file { name := "disk.bin", bytes := .ofOctets [1, 2, 3, 4, 5, 6, 7, 8] }

def primed : List (Action String EndlessSink ThrottledSource) :=
  [.step (.wrap (.writeBehind 3)), .step (.store (.write (.ofOctets [9]))),
    .step (.wrap (.readAhead 4)), .step (.wrap (.blocks 3)), .step (.blocks (.addListener "log"))]

theorem primed_eightBytes :
    ∃ (v : BlockView String (Tower String Medium [.readAhead, .writeBehind])) (heard : Cast),
      leave (primed.map Action.run) (AnyTower.ofMedium eightBytes, ({} : Cast)) =
        (⟨[.blocks, .readAhead, .writeBehind], v⟩, heard) ∧
      v.inner.medium = eightBytes ∧ Storage.isClosed v = false ∧ v.blockSize = 3 ∧
      (plain v).bytes.size = 8 ∧
      v.inner.inner.pending.map (fun p => (p.start, p.bytes.octets)) = some (0, [9]) := by
  refine ⟨_, _, rfl, rfl, rfl, rfl, ?_, ?_⟩
  all_goals decide +kernel

/-- As many blocks are inserted as the store can hold, which leaves no room for the two bytes. -/
theorem refusal_exact_of_primed :
    ∃ (v : BlockView String (Tower String Medium [.readAhead, .writeBehind])) (heard : Cast),
      leave (primed.map Action.run) (AnyTower.ofMedium eightBytes, ({} : Cast)) =
        (⟨[.blocks, .readAhead, .writeBehind], v⟩, heard) ∧
      v.inner.inner.pending.map (fun p => (p.start, p.bytes.octets)) = some (0, [9]) ∧
      (2 + 3074457345618258600) * 3 ≤ maxPosition ∧
      (BlockView.insertBlocks 1 3074457345618258600).run (v, heard) =
        (.error (.argument (.positionTooLarge 9223372036854775808)), v, heard) ∧
      (∃ w, (BlockView.openGap 2 1).run v = (.ok (), w)) ∧
      (BlockView.readBlock 1 2 2).run v = (.error (.range (.crossesBlock 2 2 3)), v) := by
  have hserving : eightBytes.Serving True := by
    refine ⟨rfl, fun _ => rfl, rfl, ?_⟩
    show 8 ≤ maxPosition
    decide
  obtain ⟨v, heard, hv, hmedium, hopen, hsize, hlength, hpending⟩ := primed_eightBytes
  have hgood : v.inner.medium.Serving True := hmedium ▸ hserving
  obtain ⟨hedits, hreads⟩ :=
    refusal_exact (Medium.contract (f := .whole) trivial) Medium.faultless
      (show eightBytes.Genuine from rfl) ({} : Cast) primed hv hgood hopen
  have hself : ∀ m, Unmoved (Medium.Serving True) v.inner.medium m →
      { v with inner := v.inner.mapMedium fun _ => m } = v := by
    intro m hm
    rw [hm.same Medium.traceless, Tower.mapMedium_medium]
  rw [hlength] at hedits hreads
  obtain ⟨m, hinsert, hunmoved⟩ :=
    (hedits (.insert 1 3074457345618258600)).1 _ (by rw [hsize]; rfl)
  obtain ⟨m', hread, hunmoved'⟩ := (hreads 1 2 2).1 _ (by rw [hsize]; rfl)
  rw [hself m hunmoved] at hinsert
  rw [hself m' hunmoved'] at hread
  exact ⟨v, heard, hv, hpending, by decide, hinsert,
    (hedits (.insert 2 1)).2 (by rw [hsize]; rfl), hread⟩

end ByteTower
