import ByteTower.Extent
import ByteTower.Store.Basic

namespace ByteTower

/-- A store together with bytes that are still to be written to it. Reads see them as if they were
written. -/
structure WriteBehind (σ : Type) where
  inner : σ
  /-- The most bytes that may be held back. -/
  capacity : Nat
  capacity_pos : 0 < capacity
  /-- Bytes accepted and not yet written. -/
  pending : Option Extent := none
  cursor : Nat
  closed : Bool := false

namespace WriteBehind

variable {σ : Type}

def onInner {α : Type} (act : StoreM σ α) : StoreM (WriteBehind σ) α :=
  act.zoom inner fun inner c => { c with inner }

/-- The pending bytes after a write of `data` at `pos`, if it starts among them or right behind
them and they do not grow beyond the capacity. -/
def merged? (c : WriteBehind σ) (pos : Nat) (data : Bytes) : Option Extent :=
  match c.pending with
  | none => none
  | some p =>
    if p.start ≤ pos ∧ pos ≤ p.stop ∧ max (pos + data.size) p.stop - p.start ≤ c.capacity then
      some (p.absorb pos data)
    else none

/-- How many of the `n` bytes from `pos` on come before pending bytes. -/
def reach (c : WriteBehind σ) (pos n : Nat) : Nat :=
  match c.pending with
  | none => n
  | some p => if pos < p.start then min n (p.start - pos) else n

variable [Storage σ]

def wrap (capacity : Nat) (inner : σ) : Except (Refused σ) (WriteBehind σ) :=
  if h : 0 < capacity then
    match (Storage.cursor : StoreM σ Nat).run inner with
    | (.ok cursor, inner) => .ok { inner, capacity, capacity_pos := h, cursor }
    | (.error cause, inner) => .error ⟨cause, inner⟩
  else .error ⟨.argument (.zeroSize .buffer), inner⟩

/-- Writes the pending bytes to the wrapped store. They stay pending if that fails. -/
def settle : StoreM (WriteBehind σ) Unit := do
  match (← get).pending with
  | none => return ()
  | some p =>
    onInner (Storage.seek p.start)
    onInner (Storage.write p.bytes)
    modify fun c => { c with pending := none }

def length : StoreM (WriteBehind σ) Nat := do
  let length ← onInner Storage.length
  match (← get).pending with
  | none => return length
  | some p => return max length p.stop

/-- Bytes at `pos`, which lies before the length; at most `n`, and never across the start or the
end of the pending bytes. Between the end of the wrapped store and pending bytes beyond it all is
zero. The flag says that the wrapped store gave fewer bytes than it was asked for. -/
def segment (pos n : Nat) : StoreM (WriteBehind σ) (Bytes × Bool) := do
  let c ← get
  match c.pending.filter fun p => pos ∈ p.region with
  | some p => return (p.read pos n, false)
  | none =>
    let count := c.reach pos n
    let length ← onInner Storage.length
    if length ≤ pos then return (Bytes.zeros count, false)
    else
      onInner (Storage.seek pos)
      let result ← onInner (Storage.read count)
      return (result.data, decide (result.data.size < count))

/-- Adds segments to `got` until `wanted` bytes are there or a segment comes up short, in at most
`fuel` segments. -/
def collect (wanted : Nat) : (fuel : Nat) → (got : Bytes) → StoreM (WriteBehind σ) Bytes
  | 0, got => pure got
  | fuel + 1, got =>
    if got.size < wanted then do
      let (data, short) ← segment ((← get).cursor + got.size) (wanted - got.size)
      if short ∨ data.size = 0 then return got ++ data
      else collect wanted fuel (got ++ data)
    else pure got

def read (n : Nat) : StoreM (WriteBehind σ) ReadResult := do
  requireOpen (← get).closed
  let length ← length
  let c ← get
  if length ≤ c.cursor then return .eof
  else
    let wanted := min n (length - c.cursor)
    let data ← collect wanted wanted ByteArray.empty
    modify fun c => { c with cursor := c.cursor + data.size }
    return .bytes data

/-- A write that cannot join the pending bytes takes their place, unless it alone is more than the
capacity: then it goes straight through. -/
def write (data : Bytes) : StoreM (WriteBehind σ) Unit := do
  let c ← get
  requireOpen c.closed
  if data.size = 0 then return ()
  else
    let stop ← endOf c.cursor data.size
    match c.merged? c.cursor data with
    | some p => set { c with pending := some p, cursor := stop }
    | none =>
      settle
      if c.capacity < data.size then
        onInner (Storage.seek c.cursor)
        onInner (Storage.write data)
      else modify fun c => { c with pending := some ⟨c.cursor, data⟩ }
      modify fun c => { c with cursor := stop }

def resize (length : Nat) : StoreM (WriteBehind σ) Unit := do
  requireOpen (← get).closed
  checkPosition length
  settle
  onInner (Storage.resize length)
  modify fun c => { c with cursor := min c.cursor length }

def close : StoreM (WriteBehind σ) Unit := do
  if (← get).closed then return ()
  else
    settle
    onInner Storage.close
    modify fun c => { c with closed := true }

/-- Letting go of an open layer writes what is pending, and does not say whether that failed. -/
def release (c : WriteBehind σ) : WriteBehind σ :=
  let c := if c.closed then c else (settle.run c).2
  { c with inner := Storage.release c.inner }

instance : Storage (WriteBehind σ) where
  length := do
    requireOpen (← get).closed
    length
  resize := resize
  cursor := do
    let c ← get
    requireOpen c.closed
    return c.cursor
  seek pos := do
    let c ← get
    requireOpen c.closed
    checkPosition pos
    set { c with cursor := pos }
  read := read
  write := write
  flush := do
    requireOpen (← get).closed
    settle
    onInner Storage.flush
  close := close
  isClosed := closed
  release := release

end WriteBehind

end ByteTower
