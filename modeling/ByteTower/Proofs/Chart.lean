import ByteTower.Proofs.Edits

namespace ByteTower

open StoreM

namespace Bytes

variable {b data : Bytes} {size count stop pos i : Nat}

/-- The bytes of block `i`. -/
def block (b : Bytes) (size i : Nat) : Bytes := b.slice (i * size) size

/-- The bytes behind the last block. -/
def rest (b : Bytes) (size : Nat) : Bytes := b.slice (b.size / size * size) (b.size % size)

theorem block_opened_below (hi : (i + 1) * size ≤ stop) (hstop : stop ≤ b.size) (distance : Nat) :
    (b.opened distance stop).block size i = b.block size i := by
  rw [Nat.add_mul, Nat.one_mul] at hi
  apply ext_byte
  intro k
  unfold block
  generalize i * size = start at hi
  grind [byte?_opened]

theorem block_opened_above (hi : stop ≤ i * size) (hstop : stop ≤ b.size) (count : Nat) :
    (b.opened (count * size) stop).block size (i + count) = b.block size i := by
  apply ext_byte
  intro k
  unfold block
  rw [Nat.add_mul]
  generalize i * size = start at hi
  generalize count * size = distance
  grind [byte?_opened]

theorem byte?_without {distance : Nat} (hpos : pos ≤ b.size) (k : Nat) :
    (b.without pos distance).byte? k = if k < pos then b.byte? k else b.byte? (k + distance) := by
  unfold without
  grind

theorem size_without {distance : Nat} (hpos : pos + distance ≤ b.size) :
    (b.without pos distance).size = b.size - distance := by
  unfold without
  grind

theorem block_without_below (hi : (i + 1) * size ≤ pos) (hpos : pos ≤ b.size) (distance : Nat) :
    (b.without pos distance).block size i = b.block size i := by
  rw [Nat.add_mul, Nat.one_mul] at hi
  apply ext_byte
  intro k
  unfold block
  generalize i * size = start at hi
  grind [byte?_without]

theorem block_without_above (hi : pos ≤ i * size) (hpos : pos ≤ b.size) (count : Nat) :
    (b.without pos (count * size)).block size i = b.block size (i + count) := by
  apply ext_byte
  intro k
  unfold block
  rw [Nat.add_mul]
  generalize i * size = start at hi
  generalize count * size = distance
  grind [byte?_without]

theorem block_put_self {offset : Nat} (hoffset : offset + data.size ≤ size)
    (hend : i * size + size ≤ b.size) :
    (b.put (i * size + offset) data).block size i = (b.block size i).overwrite offset data := by
  apply ext_byte
  intro k
  unfold block put
  generalize i * size = start at hend
  grind

theorem block_put_other {offset j : Nat} (hoffset : offset + data.size ≤ size) (hj : j ≠ i)
    (hend : i * size + size ≤ b.size) :
    (b.put (i * size + offset) data).block size j = b.block size j := by
  have hapart : j * size + size ≤ i * size ∨ i * size + size ≤ j * size := by
    rw [← Nat.succ_mul, ← Nat.succ_mul]
    exact (Nat.lt_or_gt_of_ne hj).imp (fun h => Nat.mul_le_mul_right size h)
      fun h => Nat.mul_le_mul_right size h
  apply ext_byte
  intro k
  unfold block put
  generalize i * size = start at hend hapart
  generalize j * size = start' at hapart
  grind

theorem size_put {offset : Nat} (hfit : offset + data.size ≤ b.size) :
    (b.put offset data).size = b.size := by
  unfold put
  grind

theorem rest_opened (hsize : 0 < size) (hstop : stop ≤ b.size / size) (count : Nat) :
    (b.opened (count * size) (stop * size)).rest size = b.rest size := by
  have hle : stop * size ≤ b.size / size * size := Nat.mul_le_mul_right size hstop
  have hdiv := Nat.div_mul_le_self b.size size
  have hall : (b.opened (count * size) (stop * size)).size = b.size + count * size :=
    size_opened (Nat.le_trans hle hdiv)
  unfold rest
  rw [hall, Nat.add_mul_div_right _ _ hsize, Nat.add_mul_mod_self_right, Nat.add_mul]
  apply ext_byte
  intro k
  generalize b.size / size * size = last at *
  generalize b.size % size = n at *
  grind [byte?_opened]

theorem rest_without {index : Nat} (hend : index + count ≤ b.size / size) :
    (b.without (index * size) (count * size)).rest size = b.rest size := by
  have hle : index * size + count * size ≤ b.size / size * size := by
    rw [← Nat.add_mul]
    exact Nat.mul_le_mul_right size hend
  have hdiv := Nat.div_mul_le_self b.size size
  have hcount : size * count ≤ b.size := by
    rw [Nat.mul_comm]
    omega
  unfold rest
  rw [size_without (Nat.le_trans hle hdiv), Nat.mul_comm count size, Nat.sub_mul_div,
    Nat.sub_mul_mod hcount, Nat.sub_mul, Nat.mul_comm size count]
  apply ext_byte
  intro k
  generalize b.size / size * size = last at *
  grind [byte?_without]

theorem rest_put {offset : Nat} (hfit : offset + data.size ≤ b.size / size * size) :
    (b.put offset data).rest size = b.rest size := by
  have hdiv := Nat.div_mul_le_self b.size size
  unfold rest
  rw [size_put (Nat.le_trans hfit hdiv)]
  apply ext_byte
  intro k
  unfold put
  generalize b.size / size * size = last at *
  grind

theorem rest_outcome (hsize : 0 < size) {edit : Edit} (hwithin : edit.Within size b) :
    (edit.outcome size b).rest size = b.rest size := by
  cases edit with
  | insert index count => exact rest_opened hsize hwithin.2 count
  | delete index count => exact rest_without hwithin.2
  | write block offset data =>
    obtain ⟨hblock, -, hoffset⟩ := hwithin
    have hend : block * size + size ≤ b.size / size * size := by
      rw [← Nat.succ_mul]
      exact Nat.mul_le_mul_right size hblock
    exact rest_put (by omega)

end Bytes

/-- An entry for each block, with its bytes where they are known. -/
abbrev Chart := List (Option Bytes)

namespace Chart

def start (b : Bytes) (size : Nat) : Chart :=
  (List.range (b.size / size)).map fun i => some (b.block size i)

/-- What is made of a change that is heard of. Of new blocks nothing is known. -/
def hear (chart : Chart) : Change → Chart
  | .inserted index count => chart.take index ++ List.replicate count none ++ chart.drop index
  | .deleted index count => chart.take index ++ chart.drop (index + count)

def write (chart : Chart) (block offset : Nat) (data : Bytes) : Chart :=
  chart.modify block (Option.map fun known => known.overwrite offset data)

/-- The chart has an entry for every block, and those that it knows are as it has them. -/
structure Fits (chart : Chart) (size : Nat) (b : Bytes) : Prop where
  length : chart.length = b.size / size
  known : ∀ i known, chart[i]? = some (some known) → known = b.block size i

variable {chart : Chart} {b : Bytes} {size index count block offset : Nat} {data : Bytes}

theorem fits_start (b : Bytes) (size : Nat) : (start b size).Fits size b where
  length := by rw [start, List.length_map, List.length_range]
  known i known h := by
    rw [start, List.getElem?_map] at h
    grind

theorem getElem?_inserted (hindex : index ≤ chart.length) (count i : Nat) :
    (chart.hear (.inserted index count))[i]? =
      if i < index then chart[i]? else if i < index + count then some none else chart[i - count]? := by
  simp only [hear]
  grind

theorem getElem?_deleted (hindex : index ≤ chart.length) (count i : Nat) :
    (chart.hear (.deleted index count))[i]? = if i < index then chart[i]? else chart[i + count]? := by
  simp only [hear]
  grind

theorem Fits.inserted (h : chart.Fits size b) (hsize : 0 < size) (hindex : index ≤ b.size / size)
    (count : Nat) :
    (chart.hear (.inserted index count)).Fits size (b.opened (count * size) (index * size)) := by
  have hlen := h.length
  have hle : index * size ≤ b.size :=
    Nat.le_trans (Nat.mul_le_mul_right size hindex) (Nat.div_mul_le_self b.size size)
  constructor
  · rw [Bytes.size_opened hle, Nat.add_mul_div_right _ _ hsize, ← hlen]
    simp only [hear, List.length_append, List.length_take, List.length_replicate, List.length_drop]
    omega
  · intro i known hi
    rw [getElem?_inserted (hlen ▸ hindex)] at hi
    split at hi
    case isTrue hbelow =>
      rw [Bytes.block_opened_below (Nat.mul_le_mul_right size hbelow) hle]
      exact h.known i known hi
    case isFalse hnot =>
      split at hi
      case isTrue => cases hi
      case isFalse habove =>
        obtain ⟨j, rfl⟩ : ∃ j, i = j + count := ⟨i - count, by omega⟩
        have hj : index * size ≤ j * size := Nat.mul_le_mul_right size (by omega)
        rw [Bytes.block_opened_above hj hle]
        exact h.known j known (Nat.add_sub_cancel j count ▸ hi)

theorem Fits.deleted (h : chart.Fits size b) (hend : index + count ≤ b.size / size) :
    (chart.hear (.deleted index count)).Fits size (b.without (index * size) (count * size)) := by
  have hlen := h.length
  have hle : index * size + count * size ≤ b.size := by
    rw [← Nat.add_mul]
    exact Nat.le_trans (Nat.mul_le_mul_right size hend) (Nat.div_mul_le_self b.size size)
  have hstart : index * size ≤ b.size := Nat.le_trans (Nat.le_add_right _ _) hle
  constructor
  · rw [Bytes.size_without hle, Nat.mul_comm count size, Nat.sub_mul_div, ← hlen]
    simp only [hear, List.length_append, List.length_take, List.length_drop]
    omega
  · intro i known hi
    have hindex : index ≤ chart.length := by omega
    rw [getElem?_deleted hindex] at hi
    split at hi
    case isTrue hbelow =>
      rw [Bytes.block_without_below (Nat.mul_le_mul_right size hbelow) hstart]
      exact h.known i known hi
    case isFalse hnot =>
      have hi' : index * size ≤ i * size := Nat.mul_le_mul_right size (Nat.le_of_not_lt hnot)
      rw [Bytes.block_without_above hi' hstart]
      exact h.known (i + count) known hi

theorem Fits.write (h : chart.Fits size b)
    (hin : BlockView.Inside size b.size block offset data.size) :
    (chart.write block offset data).Fits size (b.put (block * size + offset) data) := by
  obtain ⟨hblock, -, hoffset⟩ := hin
  have hend : block * size + size ≤ b.size := by
    rw [← Nat.succ_mul]
    exact Nat.le_trans (Nat.mul_le_mul_right size hblock) (Nat.div_mul_le_self b.size size)
  constructor
  · rw [Bytes.size_put (by omega), ← h.length]
    exact List.length_modify _ _ _
  · intro i known hi
    rw [Chart.write, List.getElem?_modify] at hi
    obtain ⟨entry, hentry, hknown⟩ := Option.map_eq_some_iff.1 hi
    by_cases hi' : block = i
    · obtain rfl := hi'
      rw [if_pos rfl] at hknown
      obtain ⟨former, rfl, rfl⟩ := Option.map_eq_some_iff.1 hknown
      rw [Bytes.block_put_self hoffset hend, ← h.known block former hentry]
    · rw [if_neg hi'] at hknown
      rw [Bytes.block_put_other hoffset (Ne.symm hi') hend]
      exact h.known i known (hknown ▸ hentry)

def note (chart : Chart) : Edit → Chart
  | .insert index count => chart.hear (.inserted index count)
  | .delete index count => chart.hear (.deleted index count)
  | .write block offset data => chart.write block offset data

theorem Fits.note (h : chart.Fits size b) (hsize : 0 < size) {edit : Edit}
    (hwithin : edit.Within size b) : (chart.note edit).Fits size (edit.outcome size b) := by
  cases edit with
  | insert index count => exact h.inserted hsize hwithin.2 count
  | delete index count => exact h.deleted hwithin.2
  | write block offset data => exact h.write hwithin

end Chart

end ByteTower
