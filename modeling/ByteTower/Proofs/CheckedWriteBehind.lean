import ByteTower.Proofs.Checked
import ByteTower.Proofs.WriteBehind

namespace ByteTower

open StoreM CheckedM

namespace WriteBehind

variable {σ : Type}

def checkedInner {α : Type} (act : CheckedM σ α) : CheckedM (WriteBehind σ) α :=
  act.zoom inner fun inner c => { c with inner }

def checkMerged (c : WriteBehind σ) (pos : Nat) (data : Bytes) : CheckedM (WriteBehind σ) Unit :=
  match c.pending with
  | none => pure ()
  | some p => do
    require (IsOffset p.stop)
    if p.start ≤ pos ∧ pos ≤ p.stop then
      require (p.start ≤ max (pos + data.size) p.stop)
      if max (pos + data.size) p.stop - p.start ≤ c.capacity then
        require (p.start ≤ pos ∧ IsIndex (pos - p.start))
        require (Lies (pos - p.start) data.size (max p.bytes.size (pos - p.start + data.size)))

def checkReach (c : WriteBehind σ) (pos n : Nat) : CheckedM (WriteBehind σ) Unit := do
  match c.pending with
  | none => pure ()
  | some p => if pos < p.start then require (pos ≤ p.start)
  require (IsIndex (c.reach pos n))
  require (Lies 0 (c.reach pos n) n)

def checkStop (c : WriteBehind σ) : CheckedM (WriteBehind σ) Unit :=
  match c.pending with
  | none => pure ()
  | some p => require (IsOffset p.stop)

variable [CheckedStorage σ]

def checkedSettle : CheckedM (WriteBehind σ) Unit := do
  match (← get).pending with
  | none => return ()
  | some p =>
    checkedInner (CheckedStorage.seek p.start)
    checkedInner (CheckedStorage.write p.bytes)
    modify fun c => { c with pending := none }

def checkedLength : CheckedM (WriteBehind σ) Nat := do
  let length ← checkedInner CheckedStorage.length
  checkStop (← get)
  match (← get).pending with
  | none => return length
  | some p => return max length p.stop

def checkedSegment (pos n : Nat) : CheckedM (WriteBehind σ) (Bytes × Bool) := do
  let c ← get
  checkStop c
  match c.pending.filter fun p => pos ∈ p.region with
  | some p =>
    require (p.start ≤ pos ∧ IsIndex (pos - p.start))
    require (pos - p.start ≤ p.bytes.size)
    let count := min n (p.bytes.size - (pos - p.start))
    require (Lies 0 count n)
    require (Lies (pos - p.start) count p.bytes.size)
    return (p.read pos n, false)
  | none =>
    let count := c.reach pos n
    checkReach c pos n
    let length ← checkedInner CheckedStorage.length
    if length ≤ pos then return (Bytes.zeros count, false)
    else
      checkedInner (CheckedStorage.seek pos)
      let result ← checkedInner (CheckedStorage.read count)
      return (result.data, decide (result.data.size < count))

def checkedCollect (room wanted : Nat) : (fuel : Nat) → (got : Bytes) → CheckedM (WriteBehind σ) Bytes
  | 0, got => pure got
  | fuel + 1, got =>
    if got.size < wanted then do
      let c ← get
      require (IsOffset (c.cursor + got.size))
      require (got.size ≤ wanted ∧ Lies got.size (wanted - got.size) room)
      let (data, short) ← checkedSegment (c.cursor + got.size) (wanted - got.size)
      require (IsIndex (got.size + data.size))
      if short ∨ data.size = 0 then return got ++ data
      else checkedCollect room wanted fuel (got ++ data)
    else pure got

def checkedRead (n : Nat) : CheckedM (WriteBehind σ) ReadResult := do
  lift (requireOpen (← get).closed)
  let length ← checkedLength
  let c ← get
  if length ≤ c.cursor then return .eof
  else
    require (c.cursor ≤ length)
    let wanted := min n (length - c.cursor)
    require (IsIndex wanted)
    let data ← checkedCollect n wanted wanted ByteArray.empty
    require (IsOffset ((← get).cursor + data.size))
    modify fun c => { c with cursor := c.cursor + data.size }
    return .bytes data

def checkedWrite (data : Bytes) : CheckedM (WriteBehind σ) Unit := do
  let c ← get
  lift (requireOpen c.closed)
  if data.size = 0 then return ()
  else
    let stop ← lift (endOf c.cursor data.size)
    c.checkMerged c.cursor data
    match c.merged? c.cursor data with
    | some p => set { c with pending := some p, cursor := stop }
    | none =>
      checkedSettle
      if c.capacity < data.size then
        checkedInner (CheckedStorage.seek c.cursor)
        checkedInner (CheckedStorage.write data)
      else modify fun c => { c with pending := some ⟨c.cursor, data⟩ }
      modify fun c => { c with cursor := stop }

def checkedResize (length : Nat) : CheckedM (WriteBehind σ) Unit := do
  lift (requireOpen (← get).closed)
  lift (checkPosition length)
  checkedSettle
  checkedInner (CheckedStorage.resize length)
  modify fun c => { c with cursor := min c.cursor length }

def checkedClose : CheckedM (WriteBehind σ) Unit := do
  if (← get).closed then return ()
  else
    checkedSettle
    checkedInner CheckedStorage.close
    modify fun c => { c with closed := true }

instance : CheckedStorage (WriteBehind σ) where
  length := do
    lift (requireOpen (← get).closed)
    checkedLength
  resize := checkedResize
  cursor := do
    let c ← get
    lift (requireOpen c.closed)
    return c.cursor
  seek pos := do
    let c ← get
    lift (requireOpen c.closed)
    lift (checkPosition pos)
    set { c with cursor := pos }
  read := checkedRead
  write := checkedWrite
  flush := do
    lift (requireOpen (← get).closed)
    checkedSettle
    checkedInner CheckedStorage.flush
  close := checkedClose

instance [Counting σ] : Counting (WriteBehind σ) := ⟨fun c => Counting.counted c.inner⟩

structure InBounds (Good : σ → Prop) (c : WriteBehind σ) : Prop where
  inner : Good c.inner
  capacity : IsIndex c.capacity
  cursor_le : c.cursor ≤ maxPosition
  pending : ∀ p, c.pending = some p → p.stop ≤ maxPosition ∧ p.bytes.size ≤ c.capacity

def sizeOver (size : σ → Nat) (c : WriteBehind σ) : Nat :=
  match c.pending with
  | none => size c.inner
  | some p => max (size c.inner) p.stop

section Sure

variable [Storage σ] [Counting σ] {size place : σ → Nat} {Good : σ → Prop} {c : WriteBehind σ}

section Checks

omit [CheckedStorage σ] [Storage σ]

omit [Counting σ] in
theorem InBounds.of_inner (hc : InBounds Good c) {t : σ} (ht : Good t) :
    InBounds Good { c with inner := t } := { hc with inner := ht }

theorem sure_inner {α : Type} {act : CheckedM σ α} {model : StoreM σ α} {mid : α → σ → Prop}
    (hc : InBounds Good c) (h : Sure act model c.inner mid fun _ => Good) :
    Sure (checkedInner act) (onInner model) c (fun a d => ∃ t, d = { c with inner := t } ∧ mid a t)
      fun _ => InBounds Good :=
  Sure.zoom (h.imp (fun _ t ht => ⟨t, rfl, ht⟩) fun _ _ ht => hc.of_inner ht)
    (fun _ => Nat.le_refl _) fun _ hle => hle

omit [Counting σ] in
theorem InBounds.merged (hc : InBounds Good c) {pos stop : Nat} {data : Bytes} {p : Extent}
    (hmerged : c.merged? pos data = some p) (hdata : pos + data.size ≤ maxPosition)
    (hstop : stop ≤ maxPosition) : InBounds Good { c with pending := some p, cursor := stop } := by
  refine { hc with cursor_le := hstop, pending := ?_ }
  rintro _ hnew
  cases hnew
  unfold merged? at hmerged
  split at hmerged
  case h_1 => cases hmerged
  case h_2 q hsome =>
    split at hmerged
    case isFalse => cases hmerged
    case isTrue hfits =>
      cases hmerged
      have hq := (hc.pending q hsome).1
      unfold Extent.stop at hq hfits
      rw [Extent.stop, Extent.absorb, Bytes.size_overwrite]
      dsimp only
      omega

omit [Counting σ] in
theorem run_checkStop (hc : InBounds Good c) (limit : Nat) (d : WriteBehind σ) :
    c.checkStop.run limit d = some (.ok (), d) := by
  unfold checkStop
  split
  case h_1 => rfl
  case h_2 p hsome =>
    have hstop := (hc.pending p hsome).1
    exact run_require (isOffset_of_le (by omega)) limit d

omit [Counting σ] in
theorem run_checkMerged (hc : InBounds Good c) {pos : Nat} {data : Bytes} (limit : Nat)
    (d : WriteBehind σ) : (c.checkMerged pos data).run limit d = some (.ok (), d) := by
  unfold checkMerged
  split
  case h_1 => rfl
  case h_2 p hsome =>
    obtain ⟨hstop, hsize⟩ := hc.pending p hsome
    rw [run_require_bind (isOffset_of_le (by omega))]
    split
    case isFalse => rfl
    case isTrue hin =>
      unfold Extent.stop at hin
      rw [run_require_bind (by omega)]
      split
      case isFalse => rfl
      case isTrue hfits =>
        unfold Extent.stop at hfits
        rw [run_require_bind ⟨hin.1, hc.capacity.mono (by omega)⟩]
        exact run_require ⟨hc.capacity.mono (by omega), Nat.le_max_right _ _⟩ limit d

omit [Counting σ] in
theorem run_checkReach {pos n : Nat} (hn : IsIndex n) (limit : Nat) (d : WriteBehind σ) :
    (c.checkReach pos n).run limit d = some (.ok (), d) := by
  have hle := reach_le c pos n
  have hlast : (do
      require (IsIndex (c.reach pos n))
      require (Lies 0 (c.reach pos n) n)).run limit d = some (.ok (), d) := by
    rw [run_require_bind (hn.mono hle)]
    exact run_require (lies_of_le hn (by omega)) limit d
  unfold checkReach
  split
  case h_1 => exact hlast
  case h_2 p _ =>
    split
    case isFalse => exact hlast
    case isTrue hlt =>
      rw [run_require_bind (Nat.le_of_lt hlt)]
      exact hlast

end Checks

variable (h : Secure size place Good)

include h

theorem sure_settle (hc : InBounds Good c) :
    Sure checkedSettle settle c
      (fun _ d => InBounds Good d ∧ d.cursor = c.cursor ∧ d.capacity = c.capacity)
      fun _ => InBounds Good := by
  apply sure_get_bind
  cases hp : c.pending with
  | none => exact sure_pure ⟨hc, rfl, rfl⟩
  | some p =>
    have hsize := (hc.pending p hp).2
    apply (sure_inner hc (h.seek p.start c.inner hc.inner)).bind
    rintro _ _ ⟨t, rfl, ht⟩
    apply (sure_inner (hc.of_inner ht) (h.write p.bytes t ht (hc.capacity.mono hsize))).bind
    rintro _ _ ⟨u, rfl, hu, -⟩
    exact sure_modify ⟨{ hc.of_inner hu with pending := fun _ hnone => nomatch hnone }, rfl, rfl⟩
      (Nat.le_refl _)

theorem sure_length (hc : InBounds Good c) :
    Sure checkedLength length c
      (fun n d => InBounds Good d ∧ n = sizeOver size c ∧ sizeOver size d = sizeOver size c ∧
        d.cursor = c.cursor) fun _ => InBounds Good := by
  obtain ⟨inner, capacity, hpos, pending, cursor, closed⟩ := c
  apply (sure_inner hc (h.length inner hc.inner)).bind
  rintro n _ ⟨t, rfl, ht, rfl, hsize⟩
  have hd := hc.of_inner ht
  apply sure_look_bind
  apply sure_check_bind fun limit => run_checkStop hd limit _
  apply sure_get_bind
  unfold sizeOver
  cases pending with
  | none => exact sure_pure ⟨hd, rfl, hsize, rfl⟩
  | some p => exact sure_pure ⟨hd, rfl, congrArg (max · p.stop) hsize, rfl⟩

theorem sizeOver_le (hc : InBounds Good c) : sizeOver size c ≤ maxPosition := by
  have hle := h.size_le c.inner hc.inner
  unfold sizeOver
  split
  case h_1 => exact hle
  case h_2 p hsome => exact Nat.max_le.2 ⟨hle, (hc.pending p hsome).1⟩

theorem sure_segment (hc : InBounds Good c) {pos n : Nat} (hn : IsIndex n) :
    Sure (checkedSegment pos n) (segment pos n) c
      (fun r d => InBounds Good d ∧ d.cursor = c.cursor ∧ r.1.size ≤ n) fun _ => InBounds Good := by
  apply sure_get_bind
  apply sure_check_bind fun limit => run_checkStop hc limit _
  cases hfilter : c.pending.filter fun p => decide (pos ∈ p.region) with
  | some p =>
    obtain ⟨hp, hin⟩ := Option.filter_eq_some_iff.1 hfilter
    have hin : p.start ≤ pos ∧ pos < p.start + p.bytes.size :=
      Region.mem_iff.1 (of_decide_eq_true hin)
    have hsize : IsIndex p.bytes.size := hc.capacity.mono (hc.pending p hp).2
    apply sure_require_bind ⟨hin.1, hsize.mono (by omega)⟩
    apply sure_require_bind (by omega)
    apply sure_require_bind (lies_of_le hn (by omega))
    apply sure_require_bind (lies_of_le hsize (by omega))
    refine sure_pure ⟨hc, rfl, ?_⟩
    rw [Extent.read, Bytes.size_slice]
    exact Nat.min_le_left _ _
  | none =>
    have hle := reach_le c pos n
    apply sure_check_bind fun limit => run_checkReach hn limit _
    apply (sure_inner hc (h.length c.inner hc.inner)).bind
    rintro length _ ⟨t, rfl, ht, -⟩
    apply sure_ite
    · intro _
      exact sure_pure ⟨hc.of_inner ht, rfl, by rw [Bytes.size_zeros]; exact hle⟩
    intro _
    apply (sure_inner (hc.of_inner ht) (h.seek pos t ht)).bind
    rintro _ _ ⟨u, rfl, hu⟩
    apply (sure_inner (hc.of_inner hu) (h.read _ u hu (hn.mono hle))).bind
    rintro result _ ⟨w, rfl, hw, hdata, -⟩
    exact sure_pure ⟨hc.of_inner hw, rfl, Nat.le_trans hdata hle⟩

/-- Every round fills a part of what is left, so what is there never passes what is wanted. -/
theorem sure_collect {room wanted : Nat} (hroom : IsIndex room) (hwanted : wanted ≤ room) (fuel : Nat)
    {got : Bytes} (hgot : got.size ≤ wanted) (hc : InBounds Good c)
    (hfit : c.cursor + wanted ≤ maxPosition) :
    Sure (checkedCollect room wanted fuel got) (collect wanted fuel got) c
      (fun data d => InBounds Good d ∧ d.cursor = c.cursor ∧ data.size ≤ wanted)
      fun _ => InBounds Good := by
  induction fuel generalizing c got with
  | zero => exact sure_pure ⟨hc, rfl, hgot⟩
  | succ fuel ih =>
    apply sure_ite _ fun _ => sure_pure ⟨hc, rfl, hgot⟩
    intro hlt
    have hleft : IsIndex (wanted - got.size) := hroom.mono (by omega)
    apply sure_get_bind
    apply sure_require_bind (isOffset_of_le (by omega))
    apply sure_require_bind ⟨hgot, lies_of_le hroom (by omega)⟩
    apply (sure_segment h hc hleft).bind
    rintro ⟨data, short⟩ d ⟨hd, hcursor, hdata⟩
    dsimp only at hdata ⊢
    have hmore : (got ++ data).size ≤ wanted := by
      rw [ByteArray.size_append]
      omega
    apply sure_require_bind (hroom.mono (by omega))
    apply sure_ite (fun _ => sure_pure ⟨hd, hcursor, hmore⟩)
    intro _
    rw [← hcursor] at hfit ⊢
    exact ih hmore hd hfit

theorem sure_read (hc : InBounds Good c) {n : Nat} (hn : IsIndex n) :
    Sure (CheckedStorage.read n) (Storage.read n) c
      (fun result d => InBounds Good d ∧ result.data.size ≤ n ∧
        d.cursor = c.cursor + result.data.size) fun _ => InBounds Good := by
  apply sure_get_bind
  apply sure_requireOpen_bind fun _ => hc
  apply (sure_length h hc).bind
  rintro length d ⟨hd, hlength, -, hcursor⟩
  have hle : length ≤ maxPosition := hlength ▸ sizeOver_le h hc
  rw [← hcursor]
  apply sure_get_bind
  apply sure_ite (fun _ => sure_pure ⟨hd, Nat.zero_le n, rfl⟩)
  intro hlt
  have hwanted : min n (length - d.cursor) ≤ n := Nat.min_le_left _ _
  have hfit : d.cursor + min n (length - d.cursor) ≤ maxPosition := by omega
  apply sure_require_bind (Nat.le_of_not_le hlt)
  apply sure_require_bind (hn.mono hwanted)
  apply (sure_collect h hn hwanted _ (Nat.zero_le _) hd hfit).bind
  intro data u ⟨hu, hsame, hdata⟩
  apply sure_look_bind
  apply sure_require_bind (isOffset_of_le (by omega))
  refine sure_modify_bind (sure_pure ⟨{ hu with cursor_le := ?_ }, ?_, ?_⟩) (Nat.le_refl _)
  · dsimp only
    omega
  · exact Nat.le_trans hdata hwanted
  · exact congrArg (· + data.size) hsame

theorem sure_write (hc : InBounds Good c) {data : Bytes} (hdata : IsIndex data.size) :
    Sure (CheckedStorage.write data) (Storage.write data) c
      (fun _ d => InBounds Good d ∧ d.cursor = c.cursor + data.size) fun _ => InBounds Good := by
  apply sure_get_bind
  apply sure_requireOpen_bind fun _ => hc
  apply sure_ite
  · intro hzero
    exact sure_pure ⟨hc, by rw [hzero, Nat.add_zero]⟩
  intro _
  apply sure_endOf_bind fun _ => hc
  intro hstop
  apply sure_check_bind fun limit => run_checkMerged hc limit _
  cases hmerged : c.merged? c.cursor data with
  | some p => exact sure_set ⟨hc.merged hmerged hstop hstop, rfl⟩ (Nat.le_refl _)
  | none =>
    apply (sure_settle h hc).bind
    rintro _ d ⟨hd, hcursor, hcapacity⟩
    have hlast : ∀ u : WriteBehind σ, InBounds Good u →
        Sure (modify fun c' => { c' with cursor := c.cursor + data.size })
          (modify fun c' => { c' with cursor := c.cursor + data.size }) u
          (fun _ u => InBounds Good u ∧ u.cursor = c.cursor + data.size)
          fun _ => InBounds Good := by
      intro u hu
      exact sure_modify ⟨{ hu with cursor_le := hstop }, rfl⟩ (Nat.le_refl _)
    apply sure_ite
    · intro _
      apply (sure_inner hd (h.seek c.cursor d.inner hd.inner)).bind
      rintro _ _ ⟨t, rfl, ht⟩
      apply (sure_inner (hd.of_inner ht) (h.write data t ht hdata)).bind
      rintro _ _ ⟨u, rfl, hu, -⟩
      exact hlast _ (hd.of_inner hu)
    · intro hfits
      refine sure_modify_bind (hlast _ { hd with pending := ?_ }) (Nat.le_refl _)
      rintro _ hnew
      cases hnew
      exact ⟨hcursor ▸ hstop, hcapacity ▸ Nat.le_of_not_lt hfits⟩

theorem secure : Secure (sizeOver size) cursor (InBounds Good) where
  size_le _ hc := sizeOver_le h hc
  place_le _ hc := hc.cursor_le
  length c hc := by
    apply sure_get_bind
    apply sure_requireOpen_bind fun _ => hc
    exact (sure_length h hc).imp_ok fun _ _ hd => ⟨hd.1, hd.2.1, hd.2.2.1⟩
  resize n c hc := by
    apply sure_get_bind
    apply sure_requireOpen_bind fun _ => hc
    apply sure_checkPosition_bind fun _ => hc
    intro hn
    apply (sure_settle h hc).bind
    rintro _ d ⟨hd, -, -⟩
    apply (sure_inner hd (h.resize n d.inner hd.inner)).bind
    rintro _ _ ⟨t, rfl, ht⟩
    have hcursor := Nat.le_trans (Nat.min_le_right d.cursor n) hn
    exact sure_modify { hd.of_inner ht with cursor_le := hcursor } (Nat.le_refl _)
  cursor c hc := by
    apply sure_get_bind
    apply sure_requireOpen_bind fun _ => hc
    exact sure_pure ⟨hc, rfl⟩
  seek pos c hc := by
    apply sure_get_bind
    apply sure_requireOpen_bind fun _ => hc
    apply sure_checkPosition_bind fun _ => hc
    intro hpos
    exact sure_set { hc with cursor_le := hpos } (Nat.le_refl _)
  read n c hc hn := sure_read h hc hn
  write data c hc hd := sure_write h hc hd
  flush c hc := by
    apply sure_get_bind
    apply sure_requireOpen_bind fun _ => hc
    apply (sure_settle h hc).bind
    rintro _ d ⟨hd, -, -⟩
    apply (sure_inner hd (h.flush d.inner hd.inner)).imp_ok
    rintro _ _ ⟨t, rfl, ht⟩
    exact hd.of_inner ht
  close c hc := by
    apply sure_get_bind
    refine sure_ite (fun _ => sure_pure hc) ?_
    intro _
    apply (sure_settle h hc).bind
    rintro _ d ⟨hd, -, -⟩
    apply (sure_inner hd (h.close d.inner hd.inner)).bind
    rintro _ _ ⟨t, rfl, ht⟩
    exact sure_modify { hd.of_inner ht with } (Nat.le_refl _)

end Sure

end WriteBehind

end ByteTower
