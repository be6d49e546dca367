
namespace ByteTower

/-- What stores hold, and what moves between them and their callers. -/
abbrev Bytes := ByteArray

namespace Bytes

instance : DecidableEq Bytes := ByteArray.instDecidableEq

def octets (b : Bytes) : List UInt8 := b.data.toList

def ofOctets (l : List UInt8) : Bytes := ⟨l.toArray⟩

def fill (n : Nat) (v : UInt8) : Bytes := ⟨Array.replicate n v⟩

def zeros (n : Nat) : Bytes := fill n 0

/-- At most `n` bytes from `start` on, fewer where `b` ends before that. -/
def slice (b : Bytes) (start n : Nat) : Bytes := b.extract start (start + n)

def resize (b : Bytes) (n : Nat) : Bytes :=
  if b.size < n then b ++ zeros (n - b.size) else b.extract 0 n

/-- The bytes `data` laid over `b` at `start`. What lies between the end of `b` and `start` is
zero. -/
def overwrite (b : Bytes) (start : Nat) (data : Bytes) : Bytes :=
  data.copySlice 0 (if b.size < start then b.resize start else b) start data.size

/-- Byte strings are told by their octets, so nothing but the lemmas on these has to look inside them. -/
theorem ext_octets {a b : Bytes} (h : octets a = octets b) : a = b :=
  ByteArray.ext (Array.toList_inj.1 h)

@[simp] theorem octets_ofOctets (l : List UInt8) : octets (ofOctets l) = l := rfl

@[simp] theorem ofOctets_octets (b : Bytes) : ofOctets (octets b) = b := ext_octets rfl

@[simp] theorem length_octets (b : Bytes) : (octets b).length = b.size := Array.length_toList

@[simp] theorem octets_empty : octets ByteArray.empty = [] := rfl

@[simp] theorem octets_append (a b : Bytes) : octets (a ++ b) = octets a ++ octets b := by
  simp [octets]

@[simp] theorem octets_fill (n : Nat) (v : UInt8) : octets (fill n v) = List.replicate n v := by
  simp [octets, fill]

@[simp] theorem octets_zeros (n : Nat) : octets (zeros n) = List.replicate n 0 :=
  octets_fill n 0

@[simp] theorem octets_slice (b : Bytes) (start n : Nat) :
    octets (slice b start n) = ((octets b).drop start).take n := by
  simp [octets, slice, List.extract_eq_take_drop]

@[simp] theorem octets_resize (b : Bytes) (n : Nat) :
    octets (resize b n) = (octets b).take n ++ List.replicate (n - b.size) 0 := by
  unfold resize
  split
  case isTrue h =>
    rw [octets_append, octets_zeros, List.take_of_length_le]
    rw [length_octets]
    omega
  case isFalse h =>
    have hn : n - b.size = 0 := by omega
    simp [octets, hn, List.extract_eq_take_drop]

theorem octets_copySlice (b : Bytes) (start : Nat) (data : Bytes) :
    octets (data.copySlice 0 b start data.size) =
      (octets b).take start ++ octets data ++ (octets b).drop (start + data.size) := by
  simp [octets, ByteArray.copySlice, List.extract_eq_take_drop, List.take_of_length_le]

/-- What lies before `start` stays, zero-extended to it; then comes `data`; then what lay behind
it. -/
@[simp] theorem octets_overwrite (b : Bytes) (start : Nat) (data : Bytes) :
    octets (overwrite b start data) =
      (octets b).take start ++ List.replicate (start - b.size) 0 ++ octets data ++
        (octets b).drop (start + data.size) := by
  unfold overwrite
  rw [octets_copySlice]
  split
  case isTrue h =>
    have hb : (octets b).length = b.size := length_octets b
    rw [octets_resize, List.take_of_length_le (by simp; omega),
      List.drop_eq_nil_of_le (by simp; omega), List.drop_eq_nil_of_le (by omega)]
  case isFalse h =>
    have hz : start - b.size = 0 := by omega
    simp [hz]

@[simp] theorem size_ofOctets (l : List UInt8) : (ofOctets l).size = l.length := by
  rw [← length_octets, octets_ofOctets]

@[simp] theorem size_fill (n : Nat) (v : UInt8) : (fill n v).size = n := by
  rw [← length_octets, octets_fill, List.length_replicate]

@[simp] theorem size_zeros (n : Nat) : (zeros n).size = n := size_fill n 0

@[simp] theorem size_slice (b : Bytes) (start n : Nat) :
    (slice b start n).size = min n (b.size - start) := by
  rw [← length_octets, octets_slice, List.length_take, List.length_drop, length_octets]

@[simp] theorem size_resize (b : Bytes) (n : Nat) : (resize b n).size = n := by
  rw [← length_octets, octets_resize, List.length_append, List.length_take,
    List.length_replicate, length_octets]
  omega

@[simp] theorem size_overwrite (b : Bytes) (start : Nat) (data : Bytes) :
    (overwrite b start data).size = max b.size (start + data.size) := by
  rw [← length_octets, octets_overwrite]
  simp only [List.length_append, List.length_take, List.length_replicate, List.length_drop,
    length_octets]
  omega

end Bytes

end ByteTower
