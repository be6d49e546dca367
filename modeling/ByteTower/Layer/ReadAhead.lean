import ByteTower.Layer.Window
import ByteTower.Store.Basic

namespace ByteTower

/-- A store seen through a window of bytes fetched from it. Writes go through and are patched into the
window, so that a read never sees older bytes than the wrapped store holds. -/
structure ReadAhead (σ : Type) where
  inner : σ
  /-- The most bytes that one fetch asks for. -/
  windowSize : Nat
  windowSize_pos : 0 < windowSize
  window : Window := {}
  /-- The buffer that the next fetch goes to. It becomes the window's when bytes come, and the
  window's former buffer takes its place. -/
  spare : Bytes := ByteArray.empty
  cursor : Nat
  closed : Bool := false
  /-- Reads served from the window as it was. -/
  hits : Nat := 0
  /-- Reads for which the window was fetched anew. -/
  misses : Nat := 0

namespace ReadAhead

variable {σ : Type}

def onInner {α : Type} (act : StoreM σ α) : StoreM (ReadAhead σ) α :=
  act.zoom inner fun inner c => { c with inner }

def invalidate (c : ReadAhead σ) : ReadAhead σ := { c with window := c.window.invalidate }

/-- Makes the spare buffer, with `data` laid over its front, the window at `pos`. -/
def adopt (c : ReadAhead σ) (pos : Nat) (data : Bytes) : ReadAhead σ :=
  { c with
    window := { start := pos, buffer := c.spare.overwrite 0 data, valid := data.size }
    spare := c.window.buffer
    misses := c.misses + 1 }

/-- Moves the cursor past `n` bytes, which the window has from the cursor on, or past as many as
are there. Yields the bytes. -/
def serve (n : Nat) : StoreM (ReadAhead σ) ReadResult := do
  let c ← get
  let data := c.window.read c.cursor n
  set { c with cursor := c.cursor + data.size }
  return .bytes data

variable [Storage σ]

def wrap (windowSize : Nat) (inner : σ) : Except (Refused σ) (ReadAhead σ) :=
  if h : 0 < windowSize then
    match (Storage.cursor : StoreM σ Nat).run inner with
    | (.ok cursor, inner) => .ok { inner, windowSize, windowSize_pos := h, cursor }
    | (.error cause, inner) => .error ⟨cause, inner⟩
  else .error ⟨.argument (.zeroSize .window), inner⟩

/-- Fetches a window at `pos`, which lies before `length`. The old window stays unless bytes
come. -/
def refill (pos length : Nat) : StoreM (ReadAhead σ) Unit := do
  let count := min (← get).windowSize (length - pos)
  modify fun c => { c with spare := c.spare.resize count }
  onInner (Storage.seek pos)
  let result ← onInner (Storage.read count)
  if result.data.size = 0 then throw (.io (.gaveNothing pos length))
  else modify fun c => c.adopt pos result.data

def read (n : Nat) : StoreM (ReadAhead σ) ReadResult := do
  requireOpen (← get).closed
  let length ← onInner Storage.length
  let c ← get
  if length ≤ c.cursor then return .eof
  else if n = 0 then return .bytes ByteArray.empty
  else
    let wanted := min n (length - c.cursor)
    if c.window.region.Covers ⟨c.cursor, wanted⟩ then set { c with hits := c.hits + 1 }
    else refill c.cursor length
    serve wanted

/-- A write that fails may have reached the wrapped store in part, so it costs the window. -/
def write (data : Bytes) : StoreM (ReadAhead σ) Unit := do
  let c ← get
  requireOpen c.closed
  if data.size = 0 then return ()
  else
    let stop ← endOf c.cursor data.size
    onInner (Storage.seek c.cursor)
    tryCatch (onInner (Storage.write data)) fun e => do
      modify invalidate
      throw e
    modify fun c =>
      { c with window := c.window.patch ⟨c.cursor, data⟩, cursor := stop }

def resize (length : Nat) : StoreM (ReadAhead σ) Unit := do
  requireOpen (← get).closed
  onInner (Storage.resize length)
  modify fun c =>
    { c with
      window := if length < c.window.stop then c.window.invalidate else c.window
      cursor := min c.cursor length }

def close : StoreM (ReadAhead σ) Unit := do
  if (← get).closed then return ()
  else
    onInner Storage.close
    modify fun c => { c with closed := true, window := {}, spare := ByteArray.empty }

instance : Storage (ReadAhead σ) where
  length := do
    requireOpen (← get).closed
    onInner Storage.length
  resize := resize
  cursor := do
    let c ← get
    requireOpen c.closed
    return c.cursor
  seek pos := do
    let c ← get
    requireOpen c.closed
    checkPosition pos
    set { c with cursor := pos }
  read := read
  write := write
  flush := do
    requireOpen (← get).closed
    onInner Storage.flush
  close := close
  isClosed := closed
  release c := { c with inner := Storage.release c.inner }

end ReadAhead

end ByteTower
