import ByteTower.Bytes.Basic

namespace ByteTower.Bytes

def byte? (b : Bytes) (i : Nat) : Option UInt8 := (octets b)[i]?

/-- What a write of `data` at `pos` makes of `b`. A write of nothing changes nothing, even beyond
the end. -/
def put (b : Bytes) (pos : Nat) (data : Bytes) : Bytes :=
  if data.size = 0 then b else b.overwrite pos data

attribute [grind =] size_slice size_overwrite size_resize size_zeros

theorem ext_byte {a b : Bytes} (h : ∀ i, a.byte? i = b.byte? i) : a = b :=
  ext_octets (List.ext_getElem? h)

@[grind =] theorem byte?_eq_none {b : Bytes} {i : Nat} : b.byte? i = none ↔ b.size ≤ i := by
  simp [byte?]

theorem exists_byte {b : Bytes} {i : Nat} (h : i < b.size) : ∃ v, b.byte? i = some v := by
  rw [← Option.isSome_iff_exists, Option.isSome_iff_ne_none, ne_eq, byte?_eq_none]
  exact Nat.not_le.2 h

@[grind =] theorem byte?_slice (b : Bytes) (start n i : Nat) :
    (b.slice start n).byte? i = if i < n then b.byte? (start + i) else none := by
  simp only [byte?, octets_slice, List.getElem?_take, List.getElem?_drop]

@[grind =] theorem byte?_zeros (n i : Nat) :
    (zeros n).byte? i = if i < n then some 0 else none := by
  simp only [byte?, octets_zeros, List.getElem?_replicate]

@[grind =] theorem byte?_append (a b : Bytes) (i : Nat) :
    (a ++ b).byte? i = if i < a.size then a.byte? i else b.byte? (i - a.size) := by
  simp only [byte?, octets_append, List.getElem?_append, length_octets]

@[grind =] theorem byte?_resize (b : Bytes) (n i : Nat) :
    (b.resize n).byte? i =
      if i < n then (if i < b.size then b.byte? i else some 0) else none := by
  have hb := length_octets b
  simp only [byte?, octets_resize]
  grind

@[grind =] theorem byte?_overwrite (b : Bytes) (start : Nat) (data : Bytes) (i : Nat) :
    (b.overwrite start data).byte? i =
      if i < start then (if i < b.size then b.byte? i else some 0)
      else if i < start + data.size then data.byte? (i - start)
      else b.byte? i := by
  simp only [byte?, octets_overwrite, List.getElem?_append, List.getElem?_take,
    List.getElem?_replicate, List.getElem?_drop, List.length_append, List.length_take,
    List.length_replicate, length_octets]
  -- before the data, in it, and behind it
  by_cases h : i < start
  · by_cases hb : i < b.size
    · rw [if_pos (by omega), if_pos (by omega), if_pos (by omega), if_pos h, if_pos h, if_pos hb]
    · rw [if_pos (by omega), if_pos (by omega), if_neg (by omega), if_pos (by omega), if_pos h,
        if_neg hb]
  · by_cases hd : i < start + data.size
    · rw [if_pos (by omega), if_neg (by omega), if_neg h, if_pos hd]
      congr 1
      omega
    · rw [if_neg (by omega), if_neg h, if_neg hd]
      congr 1
      omega

theorem put_of_pos {data : Bytes} (h : 0 < data.size) (b : Bytes) (pos : Nat) :
    b.put pos data = b.overwrite pos data := if_neg (by omega)

theorem put_of_size_eq_zero {data : Bytes} (h : data.size = 0) (b : Bytes) (pos : Nat) :
    b.put pos data = b := if_pos h

@[simp] theorem put_slice_zero (b : Bytes) (pos : Nat) (data : Bytes) :
    b.put pos (data.slice 0 0) = b := put_of_size_eq_zero (by simp) b pos

theorem put_append (b first second : Bytes) (pos : Nat) :
    b.put pos (first ++ second) = (b.put pos first).put (pos + first.size) second := by
  apply ext_byte
  unfold put
  grind

/-- A write that is made again leaves no trace of a first attempt that stopped halfway. -/
theorem overwrite_put_slice (b : Bytes) (pos k : Nat) (data : Bytes) :
    (b.put pos (data.slice 0 k)).overwrite pos data = b.overwrite pos data := by
  apply ext_byte
  unfold put
  grind

/-- Two writes, of which the second starts inside the first or at its end, are one write. -/
theorem overwrite_overwrite {first : Bytes} {start pos : Nat} (hs : start ≤ pos)
    (hp : pos ≤ start + first.size) (b second : Bytes) :
    b.overwrite start (first.overwrite (pos - start) second) =
      (b.overwrite start first).overwrite pos second := by
  apply ext_byte
  grind

theorem overwrite_empty (buffer : Bytes) : buffer.overwrite 0 ByteArray.empty = buffer := by
  have hzero : ByteArray.empty.size = 0 := rfl
  apply ext_byte
  grind

theorem overwrite_append (buffer first second : Bytes) :
    buffer.overwrite 0 (first ++ second) = (buffer.overwrite 0 first).overwrite first.size second := by
  apply ext_byte
  grind

theorem overwrite_whole {buffer data : Bytes} (h : data.size = buffer.size) :
    buffer.overwrite 0 data = data := by
  apply ext_byte
  intro i
  by_cases hi : i < data.size
  · grind
  · have hle := Nat.le_of_not_lt hi
    rw [byte?_eq_none.2 hle, byte?_eq_none, size_overwrite]
    omega

theorem slice_size (b : Bytes) (start n : Nat) :
    b.slice start (b.slice start n).size = b.slice start n := by
  apply ext_byte
  grind

theorem append_eq_slice {first second b : Bytes} {start : Nat}
    (hf : first = b.slice start first.size)
    (hs : second = b.slice (start + first.size) second.size) :
    first ++ second = b.slice start (first ++ second).size := by
  have hsf := congrArg ByteArray.size hf
  have hss := congrArg ByteArray.size hs
  rw [size_slice] at hsf hss
  rw [ByteArray.size_append]
  apply ext_byte
  intro i
  rw [byte?_append, byte?_slice]
  split
  case isTrue hi =>
    rw [if_pos (by omega), hf, byte?_slice, if_pos hi]
  case isFalse hi =>
    by_cases hlt : i < first.size + second.size
    · rw [if_pos hlt, hs, byte?_slice, if_pos (by omega)]
      congr 1
      omega
    · rw [if_neg hlt, byte?_eq_none]
      omega

theorem slice_append_slice (b : Bytes) (start k : Nat) {n : Nat} (hk : k ≤ n)
    (hn : n ≤ b.size - start) :
    b.slice start k ++ b.slice (start + (b.slice start k).size) (n - (b.slice start k).size) =
      b.slice start n := by
  have hfirst := slice_size b start k
  have hsecond := slice_size b (start + (b.slice start k).size) (n - (b.slice start k).size)
  rw [append_eq_slice hfirst.symm hsecond.symm, ByteArray.size_append, size_slice, size_slice]
  congr 1
  omega

theorem slice_append_slice_size (b : Bytes) (start k : Nat) :
    b.slice start k ++ b.slice (start + (b.slice start k).size) b.size = b.slice start b.size := by
  apply ext_byte
  grind

theorem slice_append_rest (b : Bytes) (n : Nat) : b.slice 0 n ++ b.slice n b.size = b := by
  have hdrop : ((octets b).drop n).take b.size = (octets b).drop n := by
    apply List.take_of_length_le
    rw [List.length_drop, length_octets]
    exact Nat.sub_le _ _
  apply ext_octets
  rw [octets_append, octets_slice, octets_slice, hdrop, List.drop_zero, List.take_append_drop]

@[simp] theorem slice_zero (b : Bytes) (start : Nat) : b.slice start 0 = ByteArray.empty := by
  apply ext_octets
  simp

end ByteTower.Bytes
