import ByteTower.Proofs.Tracking

namespace ByteTower

open StoreM

namespace Bytes

variable {b : Bytes} {start distance : Nat}

/-- `b'` is `b` with `distance` bytes put in at `start`. They hold what stood there, and zeros
beyond the former end. -/
structure Inserted (b : Bytes) (start distance : Nat) (b' : Bytes) : Prop where
  eq_append : b' = b.resize (start + distance) ++ b.slice start b.size
  size : b'.size = b.size + distance
  below : ∀ i < start, b'.byte? i = b.byte? i
  gap : ∀ i, start ≤ i → i < start + distance →
    b'.byte? i = if i < b.size then b.byte? i else some 0
  moved : ∀ i, start ≤ i → b'.byte? (i + distance) = b.byte? i

theorem inserted_opened (hs : start ≤ b.size) (distance : Nat) :
    b.Inserted start distance (b.opened distance start) where
  eq_append := by
    apply ext_byte
    intro i
    rw [byte?_opened hs]
    grind
  size := size_opened hs
  below i hi := by
    rw [byte?_opened hs]
    grind
  gap i hi hlt := by
    rw [byte?_opened hs]
    grind
  moved i hi := by
    rw [byte?_opened hs]
    grind

theorem without_opened (hs : start ≤ b.size) (distance : Nat) :
    (b.opened distance start).without start distance = b := by
  have hsize : (b.opened distance start).size = b.size + distance := size_opened hs
  apply ext_byte
  intro i
  rw [byte?_without (by omega), byte?_opened hs, byte?_opened hs]
  grind

end Bytes

/-- Run on `s`, `act` succeeds and yields `a`. -/
def StoreM.Yields {σ α : Type} (act : StoreM σ α) (s : σ) (a : α) : Prop :=
  ∃ t, act.run s = (.ok a, t)

namespace BlockView

variable {κ ω σ : Type} [Storage σ] [Meaning σ]

/-- The store says what its bytes are: its length, the number of its blocks and what is read, of
blocks and from anywhere, are as in the bytes that it stands for. -/
structure Shows (w : BlockView κ σ) : Prop where
  length : Storage.length.Yields w (plain w).bytes.size
  blockCount : blockCount.Yields w ((plain w).bytes.size / w.blockSize)
  readBlock : ∀ block offset count, Inside w.blockSize (plain w).bytes.size block offset count →
    (readBlock block offset count).Yields w
      ((plain w).bytes.slice (block * w.blockSize + offset) count)
  read : ∀ pos count, pos + count ≤ (plain w).bytes.size →
    (do
      Storage.seek pos
      Storage.readExactly count).Yields w ((plain w).bytes.slice pos count)

omit [Meaning σ] in
theorem imitates_inner : Imitates (fun _ : BlockView κ σ => True) inner where
  length _ _ := ⟨trivial, rfl⟩
  resize _ _ _ := ⟨trivial, rfl⟩
  cursor _ _ := ⟨trivial, rfl⟩
  seek _ _ _ := ⟨trivial, rfl⟩
  read _ _ _ := ⟨trivial, rfl⟩
  write _ _ _ := ⟨trivial, rfl⟩
  flush _ _ := ⟨trivial, rfl⟩

variable {Good : σ → Prop} {v w : BlockView κ σ} {b : Bytes}

theorem Reliable.yields_read (h : Reliable κ Good) (hw : Holds Good v b w) {pos count : Nat}
    (hend : pos + count ≤ b.size) :
    (do
      Storage.seek pos
      Storage.readExactly count).Yields w (b.slice pos count) := by
  obtain rfl : (plain w).bytes = b := hw.bytes
  have ho : (plain w).closed = false := hw.isOpen
  have hmatch := imitates_inner (κ := κ).matches.through h.matching fun w _ => Eq.refl (plain w)
  obtain ⟨-, hrun⟩ := (hmatch.seek pos w ⟨trivial, hw.good⟩).bind
    fun _ u hu => hmatch.readExactly count u hu
  have hmax : pos ≤ maxPosition := by
    have hbound := h.bounded hw
    omega
  have hleft : count ≤ (plain w).bytes.size - pos := by omega
  have hseek := Memory.run_seek ho hmax
  have hread := Memory.run_readExactly (m := { plain w with cursor := pos }) ho hleft
  rw [run_bind_ok hseek, hread] at hrun
  exact ⟨_, Prod.ext (congrArg Prod.fst hrun).symm rfl⟩

theorem Reliable.shows (h : Reliable κ Good) (hw : Holds Good v b w) : w.Shows := by
  obtain rfl : (plain w).bytes = b := hw.bytes
  constructor
  · obtain ⟨_, u, hrun, rfl, -⟩ := (h.length hw).exists_run
    exact ⟨u, hrun⟩
  · obtain ⟨_, u, hrun, rfl, -⟩ := (h.blockCount hw).exists_run
    rw [hw.blockSize]
    exact ⟨u, hrun⟩
  · intro block offset count hin
    rw [hw.blockSize] at hin ⊢
    have hread := h.readBlock hw block offset count
    rcases hr : (BlockView.readBlock block offset count).run w with ⟨e | data, u⟩
    · exact absurd hin (hread.of_run_error hr).2
    · obtain ⟨-, rfl, -⟩ := hread.of_run_ok hr
      exact ⟨u, hr⟩
  · exact fun pos count hend => h.yields_read hw hend

theorem Reliable.exists_act (h : Reliable κ Good) (hw : Holds Good v b w) (edit : Edit)
    (hallowed : edit.Allowed v.blockSize b) :
    ∃ w', edit.act.run w = (.ok (), w') ∧ Holds Good v (edit.outcome v.blockSize b) w' := by
  have hedit := h.edit hw edit
  rcases hr : edit.act.run w with ⟨e | _, w'⟩
  · exact absurd hallowed (hedit.of_run_error hr).2
  · exact ⟨w', rfl, (hedit.of_run_ok hr).2⟩

/-- Where listeners are told of an edit, how they take it is its answer. -/
theorem Reliable.exists_run [Audience κ ω] (h : Reliable κ Good) (hw : Holds Good v b w)
    (edit : Edit) {change : Change} (hchange : edit.change? = some change)
    (hallowed : edit.Allowed v.blockSize b) (world : ω) :
    ∃ answer w' after, edit.run.run (w, world) = (answer, w', after) ∧
      (v.register.notify change).run world = (answer, after) ∧
      Holds Good v (edit.outcome v.blockSize b) w' := by
  obtain ⟨w', hact, hw'⟩ := h.exists_act hw edit hallowed
  refine ⟨_, w', _, Edit.run_of_change hchange hact, ?_, hw'⟩
  rw [hw'.register]

end BlockView

/-- A file of seven bytes, the first of which is still to be written. When blocks are inserted or
deleted, the last listener fails. -/
theorem spliced_overheard :
    ∃ (v : BlockView String (Tower String Medium [.readAhead, .writeBehind])) (heard : Cast),
      leave (overheard.map Action.run) (AnyTower.ofMedium sevenBytes, soured) =
        (⟨[.blocks, .readAhead, .writeBehind], v⟩, heard) ∧
      v.inner.medium = sevenBytes ∧ Storage.isClosed v = false ∧ v.blockSize = 2 ∧
      (plain v).bytes.octets = [9, 2, 3, 4, 5, 6, 7] ∧
      ((BlockView.insertBlocks 2 3).run (v, heard)).1.isOk = false ∧
      (plain ((BlockView.insertBlocks 2 3).run (v, heard)).2.1).bytes.octets =
        [9, 2, 3, 4, 5, 6, 7, 0, 0, 0, 5, 6, 7] ∧
      ((BlockView.deleteBlocks 0 2).run (v, heard)).1.isOk = false ∧
      (plain ((BlockView.deleteBlocks 0 2).run (v, heard)).2.1).bytes.octets = [5, 6, 7] := by
  refine ⟨_, _, rfl, rfl, rfl, rfl, ?_, ?_, ?_, ?_, ?_⟩
  all_goals decide +kernel

theorem serving_sevenBytes : sevenBytes.Serving True := by
  refine ⟨rfl, fun _ => rfl, rfl, ?_⟩
  show 7 ≤ maxPosition
  decide

section Tower

variable {κ ω ς ρ μ : Type} [Audience κ ω] [Collector ς] [ByteSource ρ] [Storage μ] [Meaning μ]
variable {f : Failures} {Sane Good : μ → Prop} (h : Contract f Sane) (hfaultless : Faultless Good)
variable {m : μ} (hm : Sane m) (world : ω) (actions : List (Action κ ς ρ)) {kinds : List LayerKind}
variable {v : BlockView κ (Tower κ μ kinds)} {heard : ω}
variable (hv : leave (actions.map Action.run) (AnyTower.ofMedium m, world) =
  (⟨.blocks :: kinds, v⟩, heard))
variable (hgood : Good v.inner.medium) (hopen : Storage.isClosed v = false)

include h hfaultless hm hv hgood hopen in
/-- Blocks that are inserted move all bytes behind them up by their size, and the listeners are
told, whatever they then answer. Before that anything may have been done to the tower, whose medium
fails no more. -/
theorem insertion_exact {index count : Nat} (hcount : 0 < count)
    (hindex : index ≤ (plain v).bytes.size / v.blockSize)
    (hmax : (plain v).bytes.size + count * v.blockSize ≤ maxPosition) :
    ∃ answer w after,
      (BlockView.insertBlocks index count).run (v, heard) = (answer, w, after) ∧
      (v.register.notify (.inserted index count)).run heard = (answer, after) ∧
      w.blockSize = v.blockSize ∧ w.register = v.register ∧ v.Shows ∧ w.Shows ∧
      (plain v).bytes.Inserted (index * v.blockSize) (count * v.blockSize) (plain w).bytes ∧
      Storage.length.Yields w ((plain v).bytes.size + count * v.blockSize) ∧
      BlockView.blockCount.Yields w ((plain v).bytes.size / v.blockSize + count) := by
  obtain ⟨P, hrel, hself⟩ :=
    AnyTower.exists_reliable_leave h hfaultless hm world actions hv hgood hopen
  obtain ⟨answer, w, after, hrun, hnotify, hw⟩ := hrel.exists_run hself
    (.insert index count) rfl (BlockView.allowed_insert_iff.2 ⟨hcount, hindex, hmax⟩) heard
  have hinserted := Bytes.inserted_opened (BlockView.mul_blockSize_le hindex) (count * v.blockSize)
  have hb : (plain w).bytes = (plain v).bytes.opened (count * v.blockSize) (index * v.blockSize) :=
    hw.bytes
  have hshows := hrel.shows hw
  refine ⟨answer, w, after, hrun, hnotify, hw.blockSize, hw.register, hrel.shows hself, hshows,
    hb ▸ hinserted, ?_, ?_⟩
  · rw [← hinserted.size, ← hb]
    exact hshows.length
  · rw [← Nat.add_mul_div_right _ _ v.blockSize_pos, ← hinserted.size, ← hb, ← hw.blockSize]
    exact hshows.blockCount

theorem insertion_exact_of_overheard :
    ∃ (v : BlockView String (Tower String Medium [.readAhead, .writeBehind])) (heard : Cast),
      leave (overheard.map Action.run) (AnyTower.ofMedium sevenBytes, soured) =
        (⟨[.blocks, .readAhead, .writeBehind], v⟩, heard) ∧
      ∃ answer w after,
        (BlockView.insertBlocks 2 3).run (v, heard) = (answer, w, after) ∧ answer.isOk = false ∧
        (plain w).bytes.octets = [9, 2, 3, 4, 5, 6, 7, 0, 0, 0, 5, 6, 7] ∧
        (plain v).bytes.Inserted 4 6 (plain w).bytes ∧ w.Shows ∧
        Storage.length.Yields w 13 ∧ BlockView.blockCount.Yields w 6 := by
  obtain ⟨v, heard, hv, hmedium, hopen, hsize, hbytes, hanswer, hafter, -⟩ := spliced_overheard
  have hlength : (plain v).bytes.size = 7 := (Bytes.length_octets _).symm.trans (hbytes ▸ rfl)
  have hindex : 2 ≤ (plain v).bytes.size / v.blockSize := by
    rw [hlength, hsize]
    decide
  have hmax : (plain v).bytes.size + 3 * v.blockSize ≤ maxPosition := by
    rw [hlength, hsize]
    decide
  obtain ⟨answer, w, after, hrun, -, -, -, -, hshows, hinserted, hyields, hcount⟩ :=
    insertion_exact (Medium.contract (f := .whole) trivial) Medium.faultless
      (show sevenBytes.Genuine from rfl) soured overheard hv (hmedium ▸ serving_sevenBytes) hopen
      (show 0 < 3 by decide) hindex hmax
  rw [hrun] at hanswer hafter
  rw [hsize] at hinserted hyields hcount
  rw [hlength] at hyields hcount
  exact ⟨v, heard, hv, answer, w, after, hrun, hanswer, hafter, hinserted, hshows, hyields, hcount⟩

include h hfaultless hm hv hgood hopen in
/-- Blocks that are deleted are cut out of the bytes, and no other byte is lost. Blocks that were
just inserted are cut out without a trace. Both hold whatever the listeners answer. -/
theorem deletion_exact :
    (∀ index count, 0 < count → index + count ≤ (plain v).bytes.size / v.blockSize →
      ∃ answer w after,
        (BlockView.deleteBlocks index count).run (v, heard) = (answer, w, after) ∧
        (v.register.notify (.deleted index count)).run heard = (answer, after) ∧
        w.blockSize = v.blockSize ∧ w.register = v.register ∧ v.Shows ∧ w.Shows ∧
        (plain w).bytes = (plain v).bytes.slice 0 (index * v.blockSize) ++
          (plain v).bytes.slice ((index + count) * v.blockSize) (plain v).bytes.size ∧
        Storage.length.Yields w ((plain v).bytes.size - count * v.blockSize) ∧
        BlockView.blockCount.Yields w ((plain v).bytes.size / v.blockSize - count)) ∧
    ∀ index count, 0 < count → index ≤ (plain v).bytes.size / v.blockSize →
      (plain v).bytes.size + count * v.blockSize ≤ maxPosition →
      ∃ inserted w between deleted u after,
        (BlockView.insertBlocks index count).run (v, heard) = (inserted, w, between) ∧
        (BlockView.deleteBlocks index count).run (w, between) = (deleted, u, after) ∧
        (v.register.notify (.deleted index count)).run between = (deleted, after) ∧
        u.blockSize = v.blockSize ∧ u.register = v.register ∧ v.Shows ∧ u.Shows ∧
        (plain u).bytes = (plain v).bytes := by
  obtain ⟨P, hrel, hself⟩ :=
    AnyTower.exists_reliable_leave h hfaultless hm world actions hv hgood hopen
  have hshown := hrel.shows hself
  constructor
  · intro index count hcount hend
    have hallowed := (BlockView.allowed_delete_iff (hrel.bounded hself)).2 ⟨hcount, hend⟩
    obtain ⟨answer, w, after, hrun, hnotify, hw⟩ :=
      hrel.exists_run hself (.delete index count) rfl hallowed heard
    have hcut : (index + count) * v.blockSize = index * v.blockSize + count * v.blockSize :=
      Nat.add_mul index count v.blockSize
    have hle := BlockView.mul_blockSize_le hend
    rw [hcut] at hle
    have hb : (plain w).bytes =
        (plain v).bytes.without (index * v.blockSize) (count * v.blockSize) := hw.bytes
    have hsize := Bytes.size_without hle
    have hshows := hrel.shows hw
    refine ⟨answer, w, after, hrun, hnotify, hw.blockSize, hw.register, hshown, hshows, ?_, ?_, ?_⟩
    · rw [hb, hcut, Bytes.without]
    · rw [← hsize, ← hb]
      exact hshows.length
    · rw [← Nat.sub_mul_div, Nat.mul_comm, ← hsize, ← hb, ← hw.blockSize]
      exact hshows.blockCount
  · intro index count hcount hindex hmax
    obtain ⟨inserted, w, between, hinsert, -, hw⟩ :=
      hrel.exists_run hself (.insert index count) rfl
        (BlockView.allowed_insert_iff.2 ⟨hcount, hindex, hmax⟩) heard
    have hle := BlockView.mul_blockSize_le hindex
    have hend : index + count ≤ ((plain v).bytes.opened (count * v.blockSize)
        (index * v.blockSize)).size / v.blockSize := by
      rw [Bytes.size_opened hle, Nat.add_mul_div_right _ _ v.blockSize_pos]
      exact Nat.add_le_add_right hindex count
    obtain ⟨deleted, u, after, hdelete, hnotify, hu⟩ :=
      hrel.exists_run hw (.delete index count) rfl
        ((BlockView.allowed_delete_iff (hrel.bounded hw)).2 ⟨hcount, hend⟩) between
    refine ⟨inserted, w, between, deleted, u, after, hinsert, hdelete, hnotify, hu.blockSize,
      hu.register, hshown, hrel.shows hu, ?_⟩
    have hb : (plain u).bytes = _ := hu.bytes
    rw [hb]
    exact Bytes.without_opened hle _

theorem deletion_exact_of_overheard :
    ∃ (v : BlockView String (Tower String Medium [.readAhead, .writeBehind])) (heard : Cast),
      leave (overheard.map Action.run) (AnyTower.ofMedium sevenBytes, soured) =
        (⟨[.blocks, .readAhead, .writeBehind], v⟩, heard) ∧
      (∃ answer w after,
        (BlockView.deleteBlocks 0 2).run (v, heard) = (answer, w, after) ∧ answer.isOk = false ∧
        (plain w).bytes.octets = [5, 6, 7] ∧
        (plain w).bytes = (plain v).bytes.slice 0 0 ++ (plain v).bytes.slice 4 7 ∧ w.Shows) ∧
      ∃ inserted w between deleted u after,
        (BlockView.insertBlocks 2 3).run (v, heard) = (inserted, w, between) ∧
        (BlockView.deleteBlocks 2 3).run (w, between) = (deleted, u, after) ∧
        (plain u).bytes = (plain v).bytes := by
  obtain ⟨v, heard, hv, hmedium, hopen, hsize, hbytes, -, -, hanswer, hafter⟩ := spliced_overheard
  have hlength : (plain v).bytes.size = 7 := (Bytes.length_octets _).symm.trans (hbytes ▸ rfl)
  obtain ⟨hdelete, hrestore⟩ :=
    deletion_exact (Medium.contract (f := .whole) trivial) Medium.faultless
      (show sevenBytes.Genuine from rfl) soured overheard hv (hmedium ▸ serving_sevenBytes) hopen
  rw [hlength, hsize] at hdelete hrestore
  obtain ⟨answer, w, after, hrun, -, -, -, -, hshows, hcut, -⟩ :=
    hdelete 0 2 (by decide) (by decide)
  rw [hrun] at hanswer hafter
  obtain ⟨inserted, w₁, between, deleted, u, after₁, hinsert, hback, -, -, -, -, -, hrestored⟩ :=
    hrestore 2 3 (by decide) (by decide) (by decide)
  exact ⟨v, heard, hv, ⟨answer, w, after, hrun, hanswer, hafter, hcut, hshows⟩, inserted, w₁,
    between, deleted, u, after₁, hinsert, hback, hrestored⟩

end Tower

end ByteTower
