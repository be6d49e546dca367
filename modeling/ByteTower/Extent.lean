import ByteTower.Bytes.Basic
import ByteTower.Region

namespace ByteTower

structure Extent where
  start : Nat
  bytes : Bytes
deriving DecidableEq

namespace Extent

def region (e : Extent) : Region := ⟨e.start, e.bytes.size⟩

def stop (e : Extent) : Nat := e.start + e.bytes.size

def read (e : Extent) (pos n : Nat) : Bytes := e.bytes.slice (pos - e.start) n

/-- Lays `data` over `e` at the position `pos`, which lies inside `e` or at its end, and lets `e`
grow where `data` ends later. -/
def absorb (e : Extent) (pos : Nat) (data : Bytes) : Extent :=
  { e with bytes := e.bytes.overwrite (pos - e.start) data }

end Extent

end ByteTower
