import ByteTower.Proofs.Chart
import ByteTower.Proofs.ReadContract
import ByteTower.Proofs.Refusal

namespace ByteTower

open StoreM

namespace Bytes

/-- `b'` is `b` with `data` at byte `offset` of a block, and with everything else as it was. -/
structure Replaced (b : Bytes) (blockSize block offset : Nat) (data b' : Bytes) : Prop where
  size : b'.size = b.size
  inside : b'.slice (block * blockSize + offset) data.size = data
  outside : ∀ i, i < block * blockSize + offset ∨ block * blockSize + offset + data.size ≤ i →
    b'.byte? i = b.byte? i
  self : b'.block blockSize block = (b.block blockSize block).overwrite offset data
  others : ∀ j, j ≠ block → b'.block blockSize j = b.block blockSize j
  rest : b'.rest blockSize = b.rest blockSize

theorem replaced_put {b data : Bytes} {size block offset : Nat}
    (hin : BlockView.Inside size b.size block offset data.size) :
    b.Replaced size block offset data (b.put (block * size + offset) data) := by
  obtain ⟨hblock, -, hoffset⟩ := hin
  have hlast : block * size + size ≤ b.size / size * size := by
    rw [← Nat.succ_mul]
    exact Nat.mul_le_mul_right size hblock
  have hend : block * size + size ≤ b.size := Nat.le_trans hlast (Nat.div_mul_le_self b.size size)
  constructor
  case size => exact size_put (by omega)
  case inside =>
    apply ext_byte
    intro i
    unfold put
    generalize block * size = start at hend
    grind
  case outside =>
    intro i hi
    unfold put
    generalize block * size = start at hend hi
    grind
  case self => exact block_put_self hoffset hend
  case others => exact fun j hj => block_put_other hoffset hj hend
  case rest => exact rest_put (by omega)

end Bytes

namespace StoreM

variable {σ α : Type}

/-- Run on `s`, `act` fails. -/
def Fails (act : StoreM σ α) (s : σ) : Prop := ∃ e t, act.run s = (.error e, t)

theorem Yields.not_fails {act : StoreM σ α} {s : σ} {a : α} (h : act.Yields s a) : ¬act.Fails s := by
  rintro ⟨e, t, hfail⟩
  obtain ⟨u, hok⟩ := h
  rw [hok] at hfail
  cases (Prod.mk.inj hfail).1

theorem run_checkSlice_bind {size start count : Nat} (hfit : start + count ≤ size)
    (next : Unit → StoreM σ α) (s : σ) :
    (checkSlice size start count >>= next).run s = (next ()).run s := by
  rw [checkSlice, if_neg (Nat.not_lt.2 hfit)]
  rfl

theorem run_checkSlice_bind_refused {size start count : Nat} (hlong : size < start + count)
    (next : Unit → StoreM σ α) (s : σ) :
    (checkSlice size start count >>= next).run s =
      (.error (.range (.outsideBuffer start count size)), s) := by
  rw [checkSlice, if_pos hlong]
  rfl

end StoreM

namespace BlockView

section Outcome

variable {κ σ : Type} [Storage σ] [Meaning σ]

/-- `w` is what is left of `v` when `data` has been written at byte `offset` of a block. -/
structure Written (v : BlockView κ σ) (block offset : Nat) (data : Bytes) (w : BlockView κ σ) :
    Prop where
  blockSize : w.blockSize = v.blockSize
  register : w.register = v.register
  replaced : (plain v).bytes.Replaced v.blockSize block offset data (plain w).bytes
  length : Storage.length.Yields w (plain v).bytes.size
  blockCount : blockCount.Yields w ((plain v).bytes.size / v.blockSize)
  shows : w.Shows

/-- `data` is what a read of `count` bytes from byte `offset` of a block gives, and leaves `w`. -/
structure Given (v : BlockView κ σ) (block offset count : Nat) (data : Bytes) (w : BlockView κ σ) :
    Prop where
  eq_slice : data = (plain v).bytes.slice (block * v.blockSize + offset) count
  size : data.size = count
  blockSize : w.blockSize = v.blockSize
  register : w.register = v.register
  bytes : (plain w).bytes = (plain v).bytes
  shows : w.Shows

variable {Good : σ → Prop} {v w : BlockView κ σ} {block offset count : Nat}

theorem Reliable.written (h : Reliable κ Good) {data : Bytes}
    (hin : Inside v.blockSize (plain v).bytes.size block offset data.size)
    (hw : Holds Good v ((plain v).bytes.put (block * v.blockSize + offset) data) w) :
    v.Written block offset data w := by
  have hreplaced := Bytes.replaced_put hin
  have hb : (plain w).bytes = (plain v).bytes.put (block * v.blockSize + offset) data := hw.bytes
  rw [← hb] at hreplaced
  have hshows := h.shows hw
  refine ⟨hw.blockSize, hw.register, hreplaced, ?_, ?_, hshows⟩
  · rw [← hreplaced.size]
    exact hshows.length
  · rw [← hreplaced.size, ← hw.blockSize]
    exact hshows.blockCount

theorem Reliable.exists_written (h : Reliable κ Good) (hv : Holds Good v (plain v).bytes v)
    {data : Bytes} (hin : Inside v.blockSize (plain v).bytes.size block offset data.size) :
    ∃ w, (writeBlock block offset data).run v = (.ok (), w) ∧ v.Written block offset data w := by
  obtain ⟨w, hrun, hw⟩ :=
    h.exists_act hv (.write block offset data) ((allowed_write_iff (h.bounded hv)).2 hin)
  exact ⟨w, hrun, h.written hin hw⟩

theorem Reliable.exists_given (h : Reliable κ Good) (hv : Holds Good v (plain v).bytes v)
    (hin : Inside v.blockSize (plain v).bytes.size block offset count) :
    ∃ data w, (BlockView.readBlock block offset count).run v = (.ok data, w) ∧
      v.Given block offset count data w := by
  have hread := h.readBlock hv block offset count
  have hend := hin.le
  rcases hr : (BlockView.readBlock block offset count).run v with ⟨e | data, w⟩
  · exact absurd hin (hread.of_run_error hr).2
  · obtain ⟨-, rfl, hw⟩ := hread.of_run_ok hr
    refine ⟨_, w, rfl, rfl, ?_, hw.blockSize, hw.register, hw.bytes, h.shows hw⟩
    rw [Bytes.size_slice]
    omega

end Outcome

section Transfers

variable {κ μ α : Type} [Storage μ] [Meaning μ] {Good : μ → Prop} {kinds : List LayerKind}

/-- Run on `v`, `act` is refused as out of range, and no layer has changed then, nor has what the
medium stands for. -/
def OutOfRange (Good : μ → Prop) (v : BlockView κ (Tower κ μ kinds))
    (act : StoreM (BlockView κ (Tower κ μ kinds)) α) : Prop :=
  ∃ cause m, act.run v =
      (.error (.range cause), { v with inner := v.inner.mapMedium fun _ => m }) ∧
    Unmoved Good v.inner.medium m

/-- Run on `v`, `act` succeeds with `Done` where it is accepted, and is out of range elsewhere. -/
structure Transfers (Good : μ → Prop) (v : BlockView κ (Tower κ μ kinds))
    (act : StoreM (BlockView κ (Tower κ μ kinds)) α) (accepted : Prop)
    (Done : α → BlockView κ (Tower κ μ kinds) → Prop) : Prop where
  done : accepted → ∃ a w, act.run v = (.ok a, w) ∧ Done a w
  refused : ¬accepted → OutOfRange Good v act

variable {v : BlockView κ (Tower κ μ kinds)} {act : StoreM (BlockView κ (Tower κ μ kinds)) α}
variable {accepted : Prop} {Done : α → BlockView κ (Tower κ μ kinds) → Prop}

theorem Transfers.not_fails_iff (h : Transfers Good v act accepted Done) :
    ¬act.Fails v ↔ accepted := by
  constructor
  · intro hnot
    apply Classical.byContradiction
    intro hrefused
    obtain ⟨cause, m, hrun, -⟩ := h.refused hrefused
    exact hnot ⟨_, _, hrun⟩
  · intro haccepted
    obtain ⟨a, w, hrun, -⟩ := h.done haccepted
    exact Yields.not_fails ⟨w, hrun⟩

theorem exists_range_of_not_inside {size length block offset count : Nat}
    (hnot : ¬Inside size length block offset count) :
    ∃ cause, refusal? size length block offset count = some (.range cause) := by
  rw [← refusal?_eq_none_iff] at hnot
  unfold refusal? at hnot ⊢
  grind

theorem outOfRange_of_refuses {P : Tower κ μ kinds → Prop} {cause : RangeError}
    (h : act.Refuses (.range cause) v (Stays (Tower.Untouched P Good v.inner) v)) :
    OutOfRange Good v act := by
  obtain ⟨_, hrun, _, ⟨-, -, m, hunmoved, rfl⟩, rfl⟩ := h.exists_run
  exact ⟨cause, m, hrun, hunmoved⟩

/-- What does not fit into its part of a buffer is refused before the store is asked anything. -/
theorem Transfers.within {size start count : Nat}
    {next : Unit → StoreM (BlockView κ (Tower κ μ kinds)) α} (hgood : Good v.inner.medium)
    (h : start + count ≤ size → Transfers Good v (next ()) accepted Done) :
    Transfers Good v (checkSlice size start count >>= next) (start + count ≤ size ∧ accepted)
      Done where
  done := by
    rintro ⟨hfit, haccepted⟩
    rw [run_checkSlice_bind hfit]
    exact (h hfit).done haccepted
  refused := by
    intro hnot
    by_cases hfit : start + count ≤ size
    · obtain ⟨cause, m, hrun, hunmoved⟩ := (h hfit).refused fun haccepted => hnot ⟨hfit, haccepted⟩
      exact ⟨cause, m, (run_checkSlice_bind hfit next v).trans hrun, hunmoved⟩
    · refine ⟨.outsideBuffer start count size, v.inner.medium, ?_, unmoved_self hgood⟩
      rw [run_checkSlice_bind_refused (Nat.lt_of_not_le hfit), Tower.mapMedium_medium]

variable {P : Tower κ μ kinds → Prop} (hrel : Reliable κ P) (hfaultless : Faultless Good)
variable (hself : Holds P v (plain v).bytes v) (hgood : Good v.inner.medium)

include hrel hfaultless hself hgood

theorem outOfRange_locate_bind {block offset count : Nat}
    (hnot : ¬Inside v.blockSize (plain v).bytes.size block offset count)
    (next : Nat → StoreM (BlockView κ (Tower κ μ kinds)) α) :
    OutOfRange Good v (locate block offset count >>= next) := by
  obtain ⟨cause, hcause⟩ := exists_range_of_not_inside hnot
  have hcandid := Tower.candid hrel.matching hfaultless hself.isOpen
  have hstays : Stays (Tower.Untouched P Good v.inner) v v :=
    ⟨v.inner, Tower.untouched_self hself.good hgood, rfl⟩
  exact outOfRange_of_refuses ((candid_locate hcandid hstays hcause).bind next)

theorem transfers_writeBlock (block offset : Nat) (data : Bytes) :
    Transfers Good v (writeBlock block offset data)
      (Inside v.blockSize (plain v).bytes.size block offset data.size)
      fun _ w => v.Written block offset data w where
  done hin := by
    obtain ⟨w, hrun, hw⟩ := hrel.exists_written hself hin
    exact ⟨(), w, hrun, hw⟩
  refused hnot := outOfRange_locate_bind hrel hfaultless hself hgood hnot _

theorem transfers_readBlock (block offset count : Nat) :
    Transfers Good v (readBlock block offset count)
      (Inside v.blockSize (plain v).bytes.size block offset count)
      fun data w => v.Given block offset count data w where
  done hin := hrel.exists_given hself hin
  refused hnot := outOfRange_locate_bind hrel hfaultless hself hgood hnot _

theorem transfers_writeBlockWithin (block offset : Nat) (buffer : Bytes) (start count : Nat) :
    Transfers Good v (writeBlockWithin block offset buffer start count)
      (start + count ≤ buffer.size ∧ ¬(writeBlock block offset (buffer.slice start count)).Fails v)
      fun _ w => v.Written block offset (buffer.slice start count) w := by
  have hwrite := transfers_writeBlock hrel hfaultless hself hgood block offset
    (buffer.slice start count)
  rw [hwrite.not_fails_iff]
  exact Transfers.within hgood fun _ => hwrite

theorem transfers_readBlockWithin (block offset : Nat) (buffer : Bytes) (start count : Nat) :
    Transfers Good v (readBlockWithin block offset buffer start count)
      (start + count ≤ buffer.size ∧ ¬(readBlock block offset count).Fails v)
      fun after w => ∃ data, v.Given block offset count data w ∧
        (readBlock block offset count).run v = (.ok data, w) ∧ buffer.Filled start data after := by
  have hread := transfers_readBlock hrel hfaultless hself hgood block offset count
  rw [hread.not_fails_iff]
  refine Transfers.within hgood fun hfit => ⟨fun hin => ?_, fun hnot => ?_⟩
  · obtain ⟨data, w, hrun, hgiven⟩ := hread.done hin
    have hsize := hgiven.size
    exact ⟨_, w, run_bind_ok hrun _, data, hgiven, hrun, Bytes.filled_overwrite (by omega)⟩
  · obtain ⟨cause, m, hrun, hunmoved⟩ := hread.refused hnot
    exact ⟨cause, m, run_bind_error hrun _, hunmoved⟩

end Transfers

end BlockView

/-- Whatever was done before to a tower, whose medium fails no more: a write that lies inside a block
changes the bytes that it is for and no others, and a read that does gives all that it asks for and
changes none. Both are out of range elsewhere, and then change nothing at all. Made with a part of a
buffer they do the same with this part, unless it does not lie in the buffer. -/
theorem block_transfer_exact {κ ω ς ρ μ : Type} [Audience κ ω] [Collector ς] [ByteSource ρ]
    [Storage μ] [Meaning μ] {f : Failures} {Sane Good : μ → Prop} (h : Contract f Sane)
    (hfaultless : Faultless Good) {m : μ} (hm : Sane m) (world : ω) (actions : List (Action κ ς ρ))
    {kinds : List LayerKind} {v : BlockView κ (Tower κ μ kinds)} {heard : ω}
    (hv : leave (actions.map Action.run) (AnyTower.ofMedium m, world) =
      (⟨.blocks :: kinds, v⟩, heard))
    (hgood : Good v.inner.medium) (hopen : Storage.isClosed v = false) :
    v.Shows ∧
    (∀ block offset data,
      BlockView.Transfers Good v (BlockView.writeBlock block offset data)
        (BlockView.Inside v.blockSize (plain v).bytes.size block offset data.size)
        fun _ w => v.Written block offset data w) ∧
    (∀ block offset count,
      BlockView.Transfers Good v (BlockView.readBlock block offset count)
        (BlockView.Inside v.blockSize (plain v).bytes.size block offset count)
        fun data w => v.Given block offset count data w) ∧
    ∀ block offset buffer start count,
      BlockView.Transfers Good v (BlockView.writeBlockWithin block offset buffer start count)
        (start + count ≤ buffer.size ∧
          ¬(BlockView.writeBlock block offset (buffer.slice start count)).Fails v)
        (fun _ w => v.Written block offset (buffer.slice start count) w) ∧
      BlockView.Transfers Good v (BlockView.readBlockWithin block offset buffer start count)
        (start + count ≤ buffer.size ∧ ¬(BlockView.readBlock block offset count).Fails v)
        fun after w => ∃ data, v.Given block offset count data w ∧
          (BlockView.readBlock block offset count).run v = (.ok data, w) ∧
          buffer.Filled start data after := by
  obtain ⟨P, hrel, hself⟩ :=
    AnyTower.exists_reliable_leave h hfaultless hm world actions hv hgood hopen
  refine ⟨hrel.shows hself, BlockView.transfers_writeBlock hrel hfaultless hself hgood,
    BlockView.transfers_readBlock hrel hfaultless hself hgood, ?_⟩
  intro block offset buffer start count
  exact ⟨BlockView.transfers_writeBlockWithin hrel hfaultless hself hgood block offset buffer start
      count,
    BlockView.transfers_readBlockWithin hrel hfaultless hself hgood block offset buffer start count⟩

/-- Blocks of three bytes over bytes that come one or two at a time, the last two of which are held
back behind a gap. -/
def parcelled : List (Action String EndlessSink ThrottledSource) :=
  [.step (.wrap (.writeBehind 4)), .step (.store (.seek 6)),
    .step (.store (.write (.ofOctets [9, 9]))), .step (.wrap (.readAhead 3)),
    .step (.wrap (.blocks 3))]

theorem parcelled_sipping :
    ∃ (v : BlockView String (Tower String Dripping [.readAhead, .writeBehind])) (heard : Cast),
      leave (parcelled.map Action.run) (AnyTower.ofMedium sipping, ({} : Cast)) =
        (⟨[.blocks, .readAhead, .writeBehind], v⟩, heard) ∧
      Storage.isClosed v = false ∧ v.blockSize = 3 ∧
      (plain v).bytes.octets = [1, 2, 3, 0, 0, 0, 9, 9] ∧
      (plain ((BlockView.writeBlock 1 1 (.ofOctets [7, 8])).run v).2).bytes.octets =
        [1, 2, 3, 0, 7, 8, 9, 9] ∧
      ((BlockView.readBlockWithin 0 1 (.ofOctets [5, 5, 5, 5]) 1 2).run v).1.toOption.map
        Bytes.octets = some [5, 2, 3, 5] := by
  refine ⟨_, _, rfl, rfl, rfl, ?_, ?_, ?_⟩
  all_goals decide +kernel

/-- A write into the gap leaves what lies on both sides of it, a read puts what came in two parts into
the middle of a buffer, and a part that starts far behind the buffer is refused. -/
theorem block_transfer_exact_of_parcelled :
    ∃ (v : BlockView String (Tower String Dripping [.readAhead, .writeBehind])) (heard : Cast),
      leave (parcelled.map Action.run) (AnyTower.ofMedium sipping, ({} : Cast)) =
        (⟨[.blocks, .readAhead, .writeBehind], v⟩, heard) ∧ v.Shows ∧
      (∃ w, (BlockView.writeBlock 1 1 (.ofOctets [7, 8])).run v = (.ok (), w) ∧
        v.Written 1 1 (.ofOctets [7, 8]) w ∧
        (plain w).bytes.octets = [1, 2, 3, 0, 7, 8, 9, 9]) ∧
      (∃ after w, (BlockView.readBlockWithin 0 1 (.ofOctets [5, 5, 5, 5]) 1 2).run v =
        (.ok after, w) ∧ after.octets = [5, 2, 3, 5]) ∧
      BlockView.OutOfRange Dripping.Bounded v
        (BlockView.readBlockWithin 0 1 (.ofOctets [5, 5, 5, 5]) 18446744073709551615 2) := by
  have hbounded : sipping.Bounded := by
    constructor
    · unfold Memory.Bounded
      decide
    · exact fun i => Nat.succ_pos _
  obtain ⟨v, heard, hv, hopen, hsize, hbytes, hwritten, hread⟩ := parcelled_sipping
  have hlength : (plain v).bytes.size = 8 := (Bytes.length_octets _).symm.trans (hbytes ▸ rfl)
  have hgood : v.inner.medium.Bounded :=
    AnyTower.good_medium_leave Dripping.contract hbounded ({} : Cast) parcelled
      (congrArg Prod.fst hv).symm
  obtain ⟨hshows, hwrites, hreads, hwithin⟩ :=
    block_transfer_exact Dripping.contract Dripping.contract.faultless hbounded ({} : Cast) parcelled
      hv hgood hopen
  have hin : ∀ block, block < 2 → BlockView.Inside v.blockSize (plain v).bytes.size block 1 2 := by
    intro block hblock
    rw [hsize, hlength]
    exact ⟨hblock, by decide, by decide⟩
  obtain ⟨_, w, hwrite, hw⟩ := (hwrites 1 1 (.ofOctets [7, 8])).done (hin 1 (by decide))
  have hplain := (hreads 0 1 2).not_fails_iff.2 (hin 0 (by decide))
  obtain ⟨after, u, hafter, -⟩ := (hwithin 0 1 (.ofOctets [5, 5, 5, 5]) 1 2).2.done
    ⟨by decide, hplain⟩
  rw [hwrite] at hwritten
  rw [hafter] at hread
  refine ⟨v, heard, hv, hshows, ⟨w, hwrite, hw, hwritten⟩,
    ⟨after, u, hafter, Option.some.inj hread⟩, ?_⟩
  exact (hwithin 0 1 (.ofOctets [5, 5, 5, 5]) 18446744073709551615 2).2.refused
    fun haccepted => absurd haccepted.1 (by decide)

end ByteTower
