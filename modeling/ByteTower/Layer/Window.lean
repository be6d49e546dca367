import ByteTower.Extent

namespace ByteTower

/-- A buffer of which some bytes at the front are also held by the wrapped store. What lies behind them is
left from an earlier use of the buffer. -/
structure Window where
  /-- The position of the first byte of the buffer. -/
  start : Nat := 0
  buffer : Bytes := ByteArray.empty
  /-- The number of bytes at the front that the wrapped store also holds. -/
  valid : Nat := 0

namespace Window

def region (w : Window) : Region := ⟨w.start, w.valid⟩

def stop (w : Window) : Nat := w.start + w.valid

def region? (w : Window) : Option Region := if w.valid = 0 then none else some w.region

def invalidate (w : Window) : Window := { w with valid := 0 }

def read (w : Window) (pos n : Nat) : Bytes :=
  w.buffer.slice (pos - w.start) (min n (w.valid - (pos - w.start)))

/-- Replaces the valid bytes that `written` also has. -/
def patch (w : Window) (written : Extent) : Window :=
  match w.region.overlap? written.region with
  | none => w
  | some common =>
    { w with
      buffer :=
        w.buffer.overwrite (common.start - w.start) (written.read common.start common.size) }

end Window

end ByteTower
