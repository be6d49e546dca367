import ByteTower.Layer.ReadAhead
import ByteTower.Proofs.Checked
import ByteTower.Proofs.Window

namespace ByteTower

open StoreM CheckedM
open Counting (counted)

namespace Window

variable {σ : Type}

def checkPatch (w : Window) (written : Extent) : CheckedM σ Unit := do
  require (IsOffset w.stop)
  require (IsOffset written.stop)
  match w.region.overlap? written.region with
  | none => pure ()
  | some common =>
    require (common.start ≤ min w.stop written.stop)
    require (written.start ≤ common.start ∧ IsIndex (common.start - written.start))
    require (w.start ≤ common.start ∧ IsIndex (common.start - w.start))
    require (IsIndex common.size)
    require (Lies (common.start - w.start) common.size w.buffer.size)
    require (Lies (common.start - written.start) common.size written.bytes.size)

theorem run_checkPatch {w : Window} {written : Extent} (hstop : w.stop ≤ maxPosition)
    (hvalid : w.valid ≤ w.buffer.size) (hsize : IsIndex w.valid) (hwritten : written.stop ≤ maxPosition)
    (hbytes : IsIndex written.bytes.size) (limit : Nat) (s : σ) :
    (w.checkPatch written).run limit s = some (.ok (), s) := by
  rw [checkPatch, run_require_bind (isOffset_of_le (by omega)),
    run_require_bind (isOffset_of_le (by omega))]
  split
  case h_1 => rfl
  case h_2 common hsome =>
    obtain ⟨hstart, hfrom, hend, hto⟩ := Region.bounds_of_overlap? hsome
    change w.start ≤ common.start at hstart
    change written.start ≤ common.start at hfrom
    change common.start + common.size ≤ w.start + w.valid at hend
    change common.start + common.size ≤ written.start + written.bytes.size at hto
    have hlt : common.start ≤ min w.stop written.stop := by
      unfold Window.stop Extent.stop
      omega
    rw [run_require_bind hlt, run_require_bind ⟨hfrom, hbytes.mono (by omega)⟩,
      run_require_bind ⟨hstart, hsize.mono (by omega)⟩, run_require_bind (hsize.mono (by omega)),
      run_require_bind ⟨hsize.mono (by omega), by omega⟩]
    exact run_require (lies_of_le hbytes (by omega)) limit s

end Window

namespace ReadAhead

variable {σ : Type}

def checkedInner {α : Type} (act : CheckedM σ α) : CheckedM (ReadAhead σ) α :=
  act.zoom inner fun inner c => { c with inner }

def checkedServe (room n : Nat) : CheckedM (ReadAhead σ) ReadResult := do
  let c ← get
  require (c.window.start ≤ c.cursor ∧ IsIndex (c.cursor - c.window.start))
  require (c.cursor - c.window.start ≤ c.window.valid)
  let count := min n (c.window.valid - (c.cursor - c.window.start))
  require (Lies 0 count room)
  require (Lies (c.cursor - c.window.start) count c.window.buffer.size)
  require (IsOffset (c.cursor + count))
  let data := c.window.read c.cursor n
  set { c with cursor := c.cursor + data.size }
  return .bytes data

variable [CheckedStorage σ]

def checkedRefill (pos length : Nat) : CheckedM (ReadAhead σ) Unit := do
  require (pos ≤ length)
  let count := min (← get).windowSize (length - pos)
  require (IsIndex count)
  modify fun c => { c with spare := c.spare.resize count }
  checkedInner (CheckedStorage.seek pos)
  require (Lies 0 count (← get).spare.size)
  let result ← checkedInner (CheckedStorage.read count)
  if result.data.size = 0 then lift (throw (.io (.gaveNothing pos length)))
  else
    countTo ((← get).misses + 1)
    modify fun c => c.adopt pos result.data

def checkedRead (n : Nat) : CheckedM (ReadAhead σ) ReadResult := do
  lift (requireOpen (← get).closed)
  let length ← checkedInner CheckedStorage.length
  let c ← get
  if length ≤ c.cursor then return .eof
  else if n = 0 then return .bytes ByteArray.empty
  else
    require (c.cursor ≤ length)
    let wanted := min n (length - c.cursor)
    require (IsIndex wanted)
    require (IsOffset c.window.stop)
    require (IsOffset (c.cursor + wanted))
    if c.window.region.Covers ⟨c.cursor, wanted⟩ then
      countTo (c.hits + 1)
      set { c with hits := c.hits + 1 }
    else checkedRefill c.cursor length
    checkedServe n wanted

def checkedWrite (data : Bytes) : CheckedM (ReadAhead σ) Unit := do
  let c ← get
  lift (requireOpen c.closed)
  if data.size = 0 then return ()
  else
    let stop ← lift (endOf c.cursor data.size)
    checkedInner (CheckedStorage.seek c.cursor)
    (checkedInner (CheckedStorage.write data)).orElse fun e => do
      modify invalidate
      lift (throw e)
    (← get).window.checkPatch ⟨c.cursor, data⟩
    modify fun c =>
      { c with window := c.window.patch ⟨c.cursor, data⟩, cursor := stop }

def checkedResize (length : Nat) : CheckedM (ReadAhead σ) Unit := do
  lift (requireOpen (← get).closed)
  checkedInner (CheckedStorage.resize length)
  require (IsOffset (← get).window.stop)
  modify fun c =>
    { c with
      window := if length < c.window.stop then c.window.invalidate else c.window
      cursor := min c.cursor length }

def checkedClose : CheckedM (ReadAhead σ) Unit := do
  if (← get).closed then return ()
  else
    checkedInner CheckedStorage.close
    modify fun c => { c with closed := true, window := {}, spare := ByteArray.empty }

instance : CheckedStorage (ReadAhead σ) where
  length := do
    lift (requireOpen (← get).closed)
    checkedInner CheckedStorage.length
  resize := checkedResize
  cursor := do
    let c ← get
    lift (requireOpen c.closed)
    return c.cursor
  seek pos := do
    let c ← get
    lift (requireOpen c.closed)
    lift (checkPosition pos)
    set { c with cursor := pos }
  read := checkedRead
  write := checkedWrite
  flush := do
    lift (requireOpen (← get).closed)
    checkedInner CheckedStorage.flush
  close := checkedClose

instance [Counting σ] : Counting (ReadAhead σ) :=
  ⟨fun c => max (max c.hits c.misses) (counted c.inner)⟩

/-- The numbers of a layer are those of its window and its cursor over a good store. -/
structure InBounds (Good : σ → Prop) (c : ReadAhead σ) : Prop where
  inner : Good c.inner
  windowSize : IsIndex c.windowSize
  cursor_le : c.cursor ≤ maxPosition
  stop_le : c.window.stop ≤ maxPosition
  valid_le_size : c.window.valid ≤ c.windowSize
  valid_le : c.window.valid ≤ c.window.buffer.size

section Sure

omit [CheckedStorage σ] in
theorem counted_eq [Counting σ] (c : ReadAhead σ) :
    counted c = max (max c.hits c.misses) (counted c.inner) := rfl

omit [CheckedStorage σ] in
theorem hits_le_counted [Counting σ] (c : ReadAhead σ) : c.hits ≤ counted c := by
  rw [counted_eq]
  omega

omit [CheckedStorage σ] in
theorem misses_le_counted [Counting σ] (c : ReadAhead σ) : c.misses ≤ counted c := by
  rw [counted_eq]
  omega

omit [CheckedStorage σ] in
theorem counted_le_of_inner [Counting σ] {c : ReadAhead σ} {t : σ}
    (h : counted c.inner ≤ counted t) : counted c ≤ counted { c with inner := t } := by
  rw [counted_eq, counted_eq]
  dsimp only
  omega

omit [CheckedStorage σ] in
theorem counted_le_adopt [Counting σ] (c : ReadAhead σ) (pos : Nat) (data : Bytes) :
    counted c ≤ counted (c.adopt pos data) := by
  rw [counted_eq, counted_eq, adopt]
  dsimp only
  omega

variable [Storage σ] [Counting σ] {size place : σ → Nat} {Good : σ → Prop} {c : ReadAhead σ}

omit [Storage σ] [CheckedStorage σ] [Counting σ] in
theorem InBounds.of_inner (hc : InBounds Good c) {t : σ} (ht : Good t) :
    InBounds Good { c with inner := t } := { hc with inner := ht }

omit [Storage σ] [CheckedStorage σ] [Counting σ] in
theorem InBounds.invalidate (hc : InBounds Good c) : InBounds Good (ReadAhead.invalidate c) :=
  { hc with
    stop_le := Nat.le_trans (Nat.le_add_right c.window.start c.window.valid) hc.stop_le
    valid_le_size := Nat.zero_le _
    valid_le := Nat.zero_le _ }

omit [Storage σ] [CheckedStorage σ] [Counting σ] in
theorem InBounds.patch (hc : InBounds Good c) {written : Extent} {stop : Nat}
    (hstop : stop ≤ maxPosition) :
    InBounds Good { c with window := c.window.patch written, cursor := stop } where
  inner := hc.inner
  windowSize := hc.windowSize
  cursor_le := hstop
  stop_le := by
    rw [Window.stop, Window.start_patch, Window.valid_patch]
    exact hc.stop_le
  valid_le_size := by
    rw [Window.valid_patch]
    exact hc.valid_le_size
  valid_le := by
    rw [Window.valid_patch]
    exact Nat.le_trans hc.valid_le (Window.size_buffer_le_patch _ _)

omit [Storage σ] [CheckedStorage σ] [Counting σ] in
theorem InBounds.cut (hc : InBounds Good c) (length : Nat) :
    InBounds Good { c with
      window := if length < c.window.stop then c.window.invalidate else c.window
      cursor := min c.cursor length } := by
  have hcut : InBounds Good { c with cursor := min c.cursor length } :=
    { hc with cursor_le := Nat.le_trans (Nat.min_le_left _ _) hc.cursor_le }
  split
  case isTrue => exact hcut.invalidate
  case isFalse => exact hcut

omit [Storage σ] [CheckedStorage σ] in
theorem sure_inner {α : Type} {act : CheckedM σ α} {model : StoreM σ α} {mid : α → σ → Prop}
    (hc : InBounds Good c) (h : Sure act model c.inner mid fun _ => Good) :
    Sure (checkedInner act) (onInner model) c (fun a d => ∃ t, d = { c with inner := t } ∧ mid a t)
      fun _ => InBounds Good :=
  Sure.zoom (h.imp (fun _ t ht => ⟨t, rfl, ht⟩) fun _ _ ht => hc.of_inner ht)
    (fun _ => Nat.le_max_right _ _) fun _ hle => counted_le_of_inner hle

omit [Storage σ] [CheckedStorage σ] in
theorem sure_serve (hc : InBounds Good c) {room n : Nat} (hroom : IsIndex room) (hn : n ≤ room)
    (hstart : c.window.start ≤ c.cursor) (hvalid : c.cursor - c.window.start ≤ c.window.valid)
    (hfit : c.cursor + n ≤ maxPosition) :
    Sure (checkedServe room n) (serve n) c
      (fun result d => InBounds Good d ∧ result.data.size ≤ n ∧
        d.cursor = c.cursor + result.data.size) fun _ => InBounds Good := by
  have hle := hc.valid_le
  have hsize : IsIndex c.window.valid := hc.windowSize.mono hc.valid_le_size
  apply sure_get_bind
  apply sure_require_bind ⟨hstart, hsize.mono hvalid⟩
  apply sure_require_bind hvalid
  apply sure_require_bind (lies_of_le hroom (by omega))
  apply sure_require_bind ⟨hsize.mono (by omega), by omega⟩
  apply sure_require_bind (isOffset_of_le (by omega))
  have hdata : (c.window.read c.cursor n).size ≤ n := by
    rw [Window.read, Bytes.size_slice]
    omega
  refine sure_set_bind (sure_pure ⟨{ hc with cursor_le := ?_ }, hdata, rfl⟩) (Nat.le_refl _)
  exact Nat.le_trans (Nat.add_le_add_left hdata _) hfit

variable (h : Secure size place Good)

include h

theorem sure_refill (hc : InBounds Good c) {pos length : Nat} (hpos : pos < length)
    (hlength : length ≤ maxPosition) :
    Sure (checkedRefill pos length) (refill pos length) c
      (fun _ d => InBounds Good d ∧ d.cursor = c.cursor ∧ d.window.start = pos)
      fun _ => InBounds Good := by
  have hcount : IsIndex (min c.windowSize (length - pos)) := hc.windowSize.mono (Nat.min_le_left _ _)
  apply sure_require_bind (Nat.le_of_lt hpos)
  apply sure_get_bind
  apply sure_require_bind hcount
  refine sure_modify_bind ?_ (Nat.le_refl _)
  have hc₁ : InBounds Good { c with spare := c.spare.resize (min c.windowSize (length - pos)) } :=
    { hc with }
  apply (sure_inner hc₁ (h.seek pos c.inner hc.inner)).bind
  rintro _ _ ⟨t, rfl, ht⟩
  have hspare : (c.spare.resize (min c.windowSize (length - pos))).size =
      min c.windowSize (length - pos) := Bytes.size_resize _ _
  apply sure_look_bind
  have hroom : 0 + min c.windowSize (length - pos) ≤
      (c.spare.resize (min c.windowSize (length - pos))).size := by omega
  apply sure_require_bind (lies_of_le (hspare.symm ▸ hcount) hroom)
  apply (sure_inner (hc₁.of_inner ht) (h.read _ t ht hcount)).bind
  rintro result _ ⟨u, rfl, hu, hdata, -⟩
  apply sure_ite (fun _ => sure_throw (hc₁.of_inner hu))
  intro _
  apply sure_look_bind
  refine sure_countTo_bind (misses_le_counted (adopt _ pos result.data)) ?_
  refine sure_modify ⟨⟨hu, hc.windowSize, hc.cursor_le, ?_, ?_, ?_⟩, rfl, rfl⟩ ?_
  · show pos + result.data.size ≤ maxPosition
    omega
  · exact Nat.le_trans hdata (Nat.min_le_left _ _)
  · show result.data.size ≤ ((c.spare.resize _).overwrite 0 result.data).size
    rw [Bytes.size_overwrite, Nat.zero_add]
    exact Nat.le_max_right _ _
  · exact counted_le_adopt _ pos result.data

theorem sure_read (hc : InBounds Good c) {n : Nat} (hn : IsIndex n) :
    Sure (CheckedStorage.read n) (Storage.read n) c
      (fun result d => InBounds Good d ∧ result.data.size ≤ n ∧
        d.cursor = c.cursor + result.data.size) fun _ => InBounds Good := by
  apply sure_get_bind
  apply sure_requireOpen_bind fun _ => hc
  apply (sure_inner hc (h.length c.inner hc.inner)).bind
  rintro length _ ⟨t, rfl, ht, hsize, -⟩
  have hlength : length ≤ maxPosition := hsize ▸ h.size_le c.inner hc.inner
  have hd := hc.of_inner ht
  generalize hdc : ({ c with inner := t } : ReadAhead σ) = d at hd
  have hcursor : d.cursor = c.cursor := by rw [← hdc]
  rw [← hcursor]
  apply sure_get_bind
  apply sure_ite (fun _ => sure_pure ⟨hd, Nat.zero_le n, rfl⟩)
  intro hlt
  apply sure_ite (fun _ => sure_pure ⟨hd, Nat.zero_le n, rfl⟩)
  intro hpos
  have hstop := hd.stop_le
  have hwanted : min n (length - d.cursor) ≤ n := Nat.min_le_left _ _
  have hfit : d.cursor + min n (length - d.cursor) ≤ maxPosition := by omega
  have hserve : ∀ u : ReadAhead σ, InBounds Good u → u.cursor = d.cursor →
      u.window.start ≤ u.cursor → u.cursor - u.window.start ≤ u.window.valid →
      Sure (checkedServe n (min n (length - d.cursor))) (serve (min n (length - d.cursor))) u
        (fun result u => InBounds Good u ∧ result.data.size ≤ n ∧
          u.cursor = d.cursor + result.data.size) fun _ => InBounds Good := by
    intro u hu hcursor hstart hvalid
    apply (sure_serve hu hn hwanted hstart hvalid (by rw [hcursor]; exact hfit)).imp_ok
    intro result _ hend
    rw [hcursor] at hend
    exact ⟨hend.1, Nat.le_trans hend.2.1 hwanted, hend.2.2⟩
  apply sure_require_bind (Nat.le_of_not_le hlt)
  apply sure_require_bind (hn.mono hwanted)
  apply sure_require_bind (isOffset_of_le (by omega))
  apply sure_require_bind (isOffset_of_le (by omega))
  apply sure_ite
  · intro hcovers
    -- a request for at least one byte is covered if it begins and ends in the window
    have hin : d.window.start ≤ d.cursor ∧
        d.cursor + min n (length - d.cursor) ≤ d.window.stop := by
      rw [Region.Covers, if_neg (by dsimp only; omega)] at hcovers
      exact hcovers
    unfold Window.stop at hin
    have hhit := hserve { d with hits := d.hits + 1 } { hd with } rfl hin.1 (by dsimp only; omega)
    refine sure_countTo_bind ?_ (sure_set_bind hhit ?_)
    · exact Nat.le_trans (hits_le_counted { d with hits := d.hits + 1 }) hhit.counts
    · rw [counted_eq, counted_eq]
      dsimp only
      omega
  · intro _
    apply (sure_refill h hd (Nat.lt_of_not_le hlt) hlength).bind
    intro _ u ⟨hu, hcursor, hstart⟩
    exact hserve u hu hcursor (by omega) (by omega)

theorem sure_write (hc : InBounds Good c) {data : Bytes} (hdata : IsIndex data.size) :
    Sure (CheckedStorage.write data) (Storage.write data) c
      (fun _ d => InBounds Good d ∧ d.cursor = c.cursor + data.size) fun _ => InBounds Good := by
  apply sure_get_bind
  apply sure_requireOpen_bind fun _ => hc
  apply sure_ite
  · intro hzero
    exact sure_pure ⟨hc, by rw [hzero, Nat.add_zero]⟩
  intro _
  apply sure_endOf_bind fun _ => hc
  intro hstop
  apply (sure_inner hc (h.seek c.cursor c.inner hc.inner)).bind
  rintro _ _ ⟨t, rfl, ht⟩
  have hwrite : Sure ((checkedInner (CheckedStorage.write data)).orElse fun e => do
        modify invalidate
        lift (throw e))
      (tryCatch (onInner (Storage.write data)) fun e => do
        modify invalidate
        throw e) { c with inner := t }
      (fun _ d => ∃ u, d = { c with inner := u } ∧ Good u) fun _ => InBounds Good := by
    have hcall : Sure (checkedInner (CheckedStorage.write data)) (onInner (Storage.write data))
        { c with inner := t } (fun _ d => ∃ u, d = { c with inner := u } ∧ Good u)
        fun _ => InBounds Good :=
      (sure_inner (hc.of_inner ht) (h.write data t ht hdata)).imp_ok
        fun _ _ ⟨u, hd, hu, _⟩ => ⟨u, hd, hu⟩
    apply hcall.orElse
    intro e d hd
    exact sure_modify_bind (sure_throw hd.invalidate) (Nat.le_refl _)
  apply hwrite.bind
  rintro _ _ ⟨u, rfl, hu⟩
  have hvalid : IsIndex c.window.valid := hc.windowSize.mono hc.valid_le_size
  have hpatch : ∀ limit (d : ReadAhead σ),
      (c.window.checkPatch ⟨c.cursor, data⟩).run limit d = some (.ok (), d) :=
    Window.run_checkPatch hc.stop_le hc.valid_le hvalid hstop hdata
  apply sure_look_bind
  apply sure_check_bind fun limit => hpatch limit _
  exact sure_modify ⟨(hc.of_inner hu).patch hstop, rfl⟩ (Nat.le_refl _)

theorem secure : Secure (fun c : ReadAhead σ => size c.inner) cursor (InBounds Good) where
  size_le c hc := h.size_le c.inner hc.inner
  place_le _ hc := hc.cursor_le
  length c hc := by
    apply sure_get_bind
    apply sure_requireOpen_bind fun _ => hc
    apply (sure_inner hc (h.length c.inner hc.inner)).imp_ok
    rintro n _ ⟨t, rfl, ht, hn, hsize⟩
    exact ⟨hc.of_inner ht, hn, hsize⟩
  resize n c hc := by
    apply sure_get_bind
    apply sure_requireOpen_bind fun _ => hc
    apply (sure_inner hc (h.resize n c.inner hc.inner)).bind
    rintro _ _ ⟨t, rfl, ht⟩
    have hstop := hc.stop_le
    apply sure_look_bind
    apply sure_require_bind (isOffset_of_le (by dsimp only; omega))
    exact sure_modify ((hc.of_inner ht).cut n) (Nat.le_refl _)
  cursor c hc := by
    apply sure_get_bind
    apply sure_requireOpen_bind fun _ => hc
    exact sure_pure ⟨hc, rfl⟩
  seek pos c hc := by
    apply sure_get_bind
    apply sure_requireOpen_bind fun _ => hc
    apply sure_checkPosition_bind fun _ => hc
    intro hpos
    exact sure_set { hc with cursor_le := hpos } (Nat.le_refl _)
  read n c hc hn := sure_read h hc hn
  write data c hc hd := sure_write h hc hd
  flush c hc := by
    apply sure_get_bind
    apply sure_requireOpen_bind fun _ => hc
    apply (sure_inner hc (h.flush c.inner hc.inner)).imp_ok
    rintro _ _ ⟨t, rfl, ht⟩
    exact hc.of_inner ht
  close c hc := by
    apply sure_get_bind
    refine sure_ite (fun _ => sure_pure hc) ?_
    intro _
    apply (sure_inner hc (h.close c.inner hc.inner)).bind
    rintro _ _ ⟨t, rfl, ht⟩
    exact sure_modify
      ⟨ht, hc.windowSize, hc.cursor_le, Nat.zero_le _, Nat.zero_le _, Nat.zero_le _⟩ (Nat.le_refl _)

end Sure

end ReadAhead

end ByteTower
