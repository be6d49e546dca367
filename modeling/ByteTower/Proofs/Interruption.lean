import ByteTower.Proofs.Tracking

namespace ByteTower

open StoreM

namespace Bytes

variable {b b' : Bytes} {start distance p n : Nat}

/-- `b'` is `b` with a gap of `distance` bytes, opened from the end down to some place that is not
before `start`. What the gap holds is left open. -/
structure PartlyOpened (b : Bytes) (start distance : Nat) (b' : Bytes) : Prop where
  size : b'.size = b.size + distance
  split : ∃ p, start ≤ p ∧ p ≤ b.size ∧ b'.slice 0 p = b.slice 0 p ∧
    b'.slice (p + distance) (b.size - p) = b.slice p (b.size - p)

/-- `b'` is `b` with what lies between `start` and some place behind it moved down by `distance`. -/
structure PartlyClosed (b : Bytes) (start distance : Nat) (b' : Bytes) : Prop where
  size : b'.size = b.size
  below : b'.slice 0 (start - distance) = b.slice 0 (start - distance)
  split : ∃ p, start ≤ p ∧ p ≤ b.size ∧
    b'.slice (start - distance) (p - start) = b.slice start (p - start) ∧
    b'.slice p (b.size - p) = b.slice p (b.size - p)

theorem partlyOpened_opened (hs : start ≤ p) (hp : p ≤ b.size) :
    b.PartlyOpened start distance (b.opened distance p) where
  size := size_opened hp
  split := by
    refine ⟨p, hs, hp, ?_, ?_⟩
    · apply ext_byte
      intro i
      rw [byte?_slice, byte?_opened hp]
      grind
    · apply ext_byte
      intro i
      rw [byte?_slice, byte?_opened hp]
      grind

theorem partlyClosed_closing (hd : distance ≤ start) (hs : start ≤ p) (hp : p ≤ b.size) :
    b.PartlyClosed start distance (b.closing distance start p) where
  size := size_closing hd hs hp
  below := by
    apply ext_byte
    intro i
    rw [byte?_slice, byte?_closing hd hs hp]
    grind
  split := by
    refine ⟨p, hs, hp, ?_, ?_⟩
    · apply ext_byte
      intro i
      rw [byte?_slice, byte?_closing hd hs hp]
      grind
    · apply ext_byte
      intro i
      rw [byte?_slice, byte?_closing hd hs hp]
      grind

theorem partlyClosed_self (hd : distance ≤ start) (hs : start ≤ b.size) :
    b.PartlyClosed start distance b := by
  have hfirst := partlyClosed_closing hd (Nat.le_refl start) hs
  rwa [closing_self hd hs] at hfirst

def Begins (b : Bytes) (n : Nat) (b' : Bytes) : Prop := n ≤ b'.size ∧ b'.slice 0 n = b.slice 0 n

theorem begins_self (hn : n ≤ b.size) : b.Begins n b := ⟨hn, rfl⟩

theorem Begins.put (h : b.Begins n b') (hp : n ≤ p) (data : Bytes) :
    b.Begins n (b'.put p data) := by
  obtain ⟨hn, hb⟩ := h
  constructor
  · unfold Bytes.put
    grind
  · rw [← hb]
    apply ext_byte
    unfold Bytes.put
    grind

theorem Begins.resize (h : b.Begins n b') (hp : n ≤ p) : b.Begins n (b'.resize p) := by
  obtain ⟨hn, hb⟩ := h
  constructor
  · rw [size_resize]
    exact hp
  · rw [← hb]
    apply ext_byte
    grind

end Bytes

section Rooted

variable {σ : Type} [Meaning σ]

def Rooted (Good : σ → Prop) (b : Bytes) (n : Nat) (s : σ) : Prop :=
  Good s ∧ b.Begins n (plain s).bytes

variable [Storage σ] {f : Failures} {Good : σ → Prop} {b : Bytes} {n : Nat} {s : σ}

theorem rooted_seek (h : Contract f Good) (hs : Rooted Good b n s) (pos : Nat) :
    (Storage.seek pos).Meets s (fun _ t => Rooted Good b n t ∧ (plain t).cursor = pos)
      fun _ t => Rooted Good b n t := by
  apply Meets.imp ((h.toReading.and_bytes (b.Begins n)).seek pos s hs)
  · rintro _ t ⟨ht, _, rfl, hrun⟩
    have hcur := (Memory.effect_seek (plain s) pos).of_run_ok hrun
    exact ⟨ht, congrArg Memory.cursor hcur⟩
  · exact fun _ _ ht => ht.1

theorem rooted_write (h : Contract f Good) (hs : Rooted Good b n s) (hcur : n ≤ (plain s).cursor)
    (data : Bytes) : (Storage.write data).Ends (Rooted Good b n) s := by
  apply Meets.imp (h.write data s hs.1)
  · rintro _ t ⟨ht, _, rfl, hrun⟩
    have hput := ((Memory.effect_write (plain s) data).of_run_ok hrun).1
    exact ⟨ht, hput ▸ hs.2.put hcur data⟩
  · rintro e t ⟨ht, ⟨_, rfl, hrun⟩ | ⟨-, k, -, hput, -⟩⟩
    · have hsame := (Memory.effect_write (plain s) data).of_run_error hrun
      exact ⟨ht, hsame ▸ hs.2⟩
    · exact ⟨ht, hput ▸ hs.2.put hcur _⟩

theorem rooted_resize (h : Contract f Good) (hs : Rooted Good b n s) {m : Nat} (hm : n ≤ m) :
    (Storage.resize m).Ends (Rooted Good b n) s := by
  apply Meets.imp (h.resize m s hs.1)
  · rintro _ t ⟨ht, _, rfl, hrun⟩
    have hcut := (Memory.effect_resize (plain s) m).of_run_ok hrun
    exact ⟨ht, hcut ▸ hs.2.resize hm⟩
  · rintro e t ⟨ht, ⟨_, rfl, hrun⟩ | ⟨-, hsame, -⟩⟩
    · have hsame := (Memory.effect_resize (plain s) m).of_run_error hrun
      exact ⟨ht, hsame ▸ hs.2⟩
    · exact ⟨ht, hsame ▸ hs.2⟩

end Rooted

namespace BlockView

variable {κ σ : Type} [Storage σ] [Meaning σ] {f : Failures} {Good : σ → Prop} (h : Contract f Good)
variable {v w : BlockView κ σ} {b : Bytes} {n : Nat}

omit [Storage σ] in
theorem Holds.over_rooted (hw : Holds Good v b w) {b' : Bytes} (hb : b'.Begins n b) :
    Over (Rooted Good b' n) w := ⟨hw.good, hw.bytes ▸ hb⟩

include h

theorem rooted_copyChunk (hw : Over (Rooted Good b n) w) (source count : Nat) {target : Nat}
    (ht : n ≤ target) : (copyChunk source count target).Ends (Over (Rooted Good b n)) w := by
  have hreading := h.toReading.and_bytes (b.Begins n)
  apply (ends_onInner ((rooted_seek h hw source).imp_ok fun _ _ hs => hs.1)).bind
  intro _ w₁ hw₁
  have hread : (Storage.readExactly count).Ends (Rooted Good b n) w₁.inner :=
    Meets.imp (hreading.readExactly hw₁ count) (fun _ _ hs => hs.1) fun _ _ hs => hs.1
  apply (ends_onInner hread).bind
  intro data w₂ hw₂
  have hseek : (onInner (Storage.seek target)).Meets w₂
      (fun _ w' => Over (Rooted Good b n) w' ∧ (plain w'.inner).cursor = target)
      fun _ w' => Over (Rooted Good b n) w' := Meets.zoom (rooted_seek h hw₂ target)
  apply hseek.bind
  intro _ w₃ ⟨hw₃, hcur⟩
  exact ends_onInner (rooted_write h hw₃ (hcur ▸ ht) data)

theorem rooted_shiftUp (hw : Over (Rooted Good b n) w) (chunks : Nat) {start distance stop : Nat}
    (hn : n ≤ start) : (shiftUp start distance chunks stop).Ends (Over (Rooted Good b n)) w := by
  induction chunks generalizing stop w with
  | zero => exact meets_pure hw
  | succ chunks ih =>
    apply (rooted_copyChunk h hw _ _ _).bind
    · exact fun _ w' hw' => ih hw'
    · omega

theorem rooted_shiftDown (hw : Over (Rooted Good b n) w) (chunks : Nat) {stop distance start : Nat}
    (hn : n + distance ≤ start) (hstop : start ≤ stop) :
    (shiftDown stop distance chunks start).Ends (Over (Rooted Good b n)) w := by
  induction chunks generalizing start w with
  | zero => exact meets_pure hw
  | succ chunks ih =>
    apply (rooted_copyChunk h hw _ _ _).bind
    · exact fun _ w' hw' => ih hw' (by omega) (by omega)
    · omega

/-- Whatever fails when a gap is opened, the bytes before it are as they were. -/
theorem rooted_openGap (hw : Holds Good v b w) (index count : Nat) :
    (openGap index count).Meets w (fun _ _ => True) fun _ w' =>
      (plain w'.inner).bytes.slice 0 (index * v.blockSize) = b.slice 0 (index * v.blockSize) := by
  apply meets_openGap_of_shiftUp h hw
  · intro _ w' hw' _
    rw [hw'.bytes]
  · intro hallowed w' hw'
    have hstart := mul_blockSize_le hallowed.2.1
    have hroot := hw'.over_rooted
      ((Bytes.begins_self hstart).resize (Nat.le_add_right_of_le hstart))
    apply (rooted_shiftUp h hroot _ (Nat.le_refl _)).imp
    · exact fun _ _ _ => trivial
    · exact fun _ _ hroot => hroot.2.2

theorem rooted_closeGap (hw : Holds Good v b w) (index count : Nat) :
    (closeGap index count).Meets w (fun _ _ => True) fun _ w' =>
      (plain w'.inner).bytes.slice 0 (index * v.blockSize) = b.slice 0 (index * v.blockSize) := by
  apply meets_closeGap_of_shiftDown h hw
  · intro _ w' hw' _
    rw [hw'.bytes]
  · intro hallowed w' hw'
    have hstart := mul_blockSize_le hallowed.2
    rw [Nat.add_mul] at hstart ⊢
    have hroot := hw'.over_rooted (Bytes.begins_self (n := index * v.blockSize) (by omega))
    have hshift := rooted_shiftDown h hroot
      (chunkCount (b.size - (index * v.blockSize + count * v.blockSize))) (Nat.le_refl _) hstart
    apply (hshift.imp_error fun _ _ hroot => hroot.2.2).bind
    intro _ w'' hroot
    apply (ends_onInner (rooted_resize h hroot (Nat.le_sub_of_add_le hstart))).imp
    · exact fun _ _ _ => trivial
    · exact fun _ _ hroot => hroot.2.2

end BlockView

/-- A call below that fails and so interrupts an insertion or a deletion leaves the bytes before it
as they were. Where no such call changes a byte, each byte is in its old place or in the new one, on
the right side of a border. The listeners are not told. -/
theorem interruption_loses_nothing {κ ω σ : Type} [Audience κ ω] [Storage σ] [Meaning σ]
    {f : Failures} {Good : σ → Prop} (h : Contract f Good) {v : BlockView κ σ} (hv : Good v.inner)
    (hopen : Storage.isClosed v = false) (world : ω) (index count : Nat) {e : StoreError}
    {w : BlockView κ σ} :
    ((BlockView.openGap index count).run v = (.error e, w) →
      (BlockView.insertBlocks index count).run (v, world) = (.error e, w, world) ∧
      (plain w).bytes.slice 0 (index * v.blockSize) =
        (plain v).bytes.slice 0 (index * v.blockSize) ∧
      ((∀ size, ¬f.tear size) → (plain w).bytes = (plain v).bytes ∨
        (plain v).bytes.PartlyOpened (index * v.blockSize) (count * v.blockSize)
          (plain w).bytes)) ∧
    ((BlockView.closeGap index count).run v = (.error e, w) →
      (BlockView.deleteBlocks index count).run (v, world) = (.error e, w, world) ∧
      (plain w).bytes.slice 0 (index * v.blockSize) =
        (plain v).bytes.slice 0 (index * v.blockSize) ∧
      ((∀ size, ¬f.tear size) → 0 < count →
        index + count ≤ (plain v).bytes.size / v.blockSize →
        (plain v).bytes.PartlyClosed ((index + count) * v.blockSize) (count * v.blockSize)
          (plain w).bytes)) := by
  have hself := BlockView.holds_self hv ((h.isClosed v.inner hv).symm.trans hopen)
  constructor
  · intro hr
    refine ⟨(Edit.insert index count).run_of_error hr,
      (BlockView.rooted_openGap h hself index count).of_run_error hr, fun hwhole => ?_⟩
    have hfail := (BlockView.meets_openGap h hwhole hself index count).of_run_error hr
    rcases hfail with ⟨hw, -⟩ | ⟨-, p, hs, hp, hw⟩
    · exact Or.inl hw.bytes
    · have hb : (plain w).bytes = _ := hw.bytes
      rw [hb]
      exact Or.inr (Bytes.partlyOpened_opened hs hp)
  · intro hr
    refine ⟨(Edit.delete index count).run_of_error hr,
      (BlockView.rooted_closeGap h hself index count).of_run_error hr, fun hwhole _ hend => ?_⟩
    have hd : count * v.blockSize ≤ (index + count) * v.blockSize :=
      Nat.mul_le_mul_right v.blockSize (Nat.le_add_left count index)
    have hstart := BlockView.mul_blockSize_le hend
    have hfail := (BlockView.meets_closeGap h hwhole hself index count).of_run_error hr
    rcases hfail with ⟨hw, -⟩ | ⟨-, p, hs, hp, hw⟩
    · have hb : (plain w).bytes = (plain v).bytes := hw.bytes
      rw [hb]
      exact Bytes.partlyClosed_self hd hstart
    · have hb : (plain w).bytes = _ := hw.bytes
      rw [hb]
      exact Bytes.partlyClosed_closing hd hs hp

def faulty (call : Call) (fault : Fault) : Probe :=
  { memory := .ofBytes (.ofOctets [1, 2, 3, 4, 5, 6, 7]), faults := [(call, fault)] }

/-- A deletion whose last call fails, and an insertion in which the second write, that of the chunk,
stops after two bytes. The first write is that of the byte held back. -/
theorem interrupted_overheard :
    ∃ (v u : BlockView String (Tower String Probe [.readAhead, .writeBehind])) (heard : Cast),
      leave (overheard.map Action.run) (AnyTower.ofMedium (faulty .resize {}), soured) =
        (⟨[.blocks, .readAhead, .writeBehind], v⟩, heard) ∧
      leave (overheard.map Action.run) (AnyTower.ofMedium (faulty .write { grace := 1, torn := 2 }),
        soured) = (⟨[.blocks, .readAhead, .writeBehind], u⟩, heard) ∧
      Storage.isClosed v = false ∧ Storage.isClosed u = false ∧ v.blockSize = 2 ∧ u.blockSize = 2 ∧
      (plain v).bytes.octets = [9, 2, 3, 4, 5, 6, 7] ∧
      ((BlockView.closeGap 0 1).run v).1.isOk = false ∧
      (plain ((BlockView.closeGap 0 1).run v).2).bytes.octets = [3, 4, 5, 6, 7, 6, 7] ∧
      ((BlockView.openGap 1 1).run u).1.isOk = false ∧
      (plain ((BlockView.openGap 1 1).run u).2).bytes.octets = [9, 2, 3, 4, 3, 4, 7, 0, 0] := by
  refine ⟨_, _, _, rfl, rfl, rfl, rfl, rfl, rfl, ?_, ?_, ?_, ?_, ?_⟩
  all_goals decide +kernel

theorem interruption_loses_nothing_of_overheard :
    (∃ (v w : BlockView String (Tower String Probe [.readAhead, .writeBehind])) (heard : Cast)
      (e : StoreError),
      leave (overheard.map Action.run) (AnyTower.ofMedium (faulty .resize {}), soured) =
        (⟨[.blocks, .readAhead, .writeBehind], v⟩, heard) ∧
      (BlockView.deleteBlocks 0 1).run (v, heard) = (.error e, w, heard) ∧
      (plain v).bytes.octets = [9, 2, 3, 4, 5, 6, 7] ∧
      (plain w).bytes.octets = [3, 4, 5, 6, 7, 6, 7] ∧
      (plain v).bytes.PartlyClosed 2 2 (plain w).bytes) ∧
    ∃ (v w : BlockView String (Tower String Probe [.readAhead, .writeBehind])) (heard : Cast)
      (e : StoreError),
      leave (overheard.map Action.run) (AnyTower.ofMedium (faulty .write { grace := 1, torn := 2 }),
        soured) = (⟨[.blocks, .readAhead, .writeBehind], v⟩, heard) ∧
      (BlockView.insertBlocks 1 1).run (v, heard) = (.error e, w, heard) ∧
      (plain w).bytes.octets = [9, 2, 3, 4, 3, 4, 7, 0, 0] ∧
      (plain w).bytes.slice 0 2 = (plain v).bytes.slice 0 2 := by
  obtain ⟨v, u, heard, hv, hu, hopen, hopen', hsize, hsize', hbytes, hfail, hleft, hfail',
    hleft'⟩ := interrupted_overheard
  constructor
  · have hintact := AnyTower.intact_leave (Probe.contract (f := .whole) trivial trivial)
      (m := faulty .resize {}) (Or.inr (by decide)) soured overheard
    rw [hv] at hintact
    have hlength : (plain v).bytes.size = 7 := (Bytes.length_octets _).symm.trans (hbytes ▸ rfl)
    rcases hr : (BlockView.closeGap 0 1).run v with ⟨e | _, w⟩
    · have hlast := (interruption_loses_nothing (AnyTower.contract_of_medium
        (Probe.contract (f := .whole) trivial trivial) _) (v := v) hintact hopen heard 0 1).2 hr
      rw [hr] at hleft
      rw [hsize, hlength] at hlast
      exact ⟨v, w, heard, e, hv, hlast.1, hbytes, hleft,
        hlast.2.2 (fun _ => id) (by decide) (by decide)⟩
    · rw [hr] at hfail
      cases hfail
  · have hintact := AnyTower.intact_leave (Probe.contract (f := .torn) trivial trivial)
      (m := faulty .write { grace := 1, torn := 2 }) (Or.inl fun _ => trivial) soured overheard
    rw [hu] at hintact
    rcases hr : (BlockView.openGap 1 1).run u with ⟨e | _, w⟩
    · have hlast := (interruption_loses_nothing (AnyTower.contract_of_medium
        (Probe.contract (f := .torn) trivial trivial) _) (v := u) hintact hopen' heard 1 1).1 hr
      rw [hr] at hleft'
      rw [hsize'] at hlast
      exact ⟨u, w, heard, e, hu, hlast.1, hleft', hlast.2.1⟩
    · rw [hr] at hfail'
      cases hfail'

end ByteTower
