import ByteTower.Block.Listener
import ByteTower.Store.Transfer

namespace ByteTower

/-- A store seen as blocks of one size, counted from zero, with listeners of type `κ`. A rest too short for
a block belongs to none. -/
structure BlockView (κ σ : Type) where
  inner : σ
  blockSize : Nat
  blockSize_pos : 0 < blockSize
  register : Register κ := {}

namespace BlockView

variable {κ σ ω : Type}

def onInner {α : Type} (act : StoreM σ α) : StoreM (BlockView κ σ) α :=
  act.zoom inner fun inner v => { v with inner }

def wrap (blockSize : Nat) (inner : σ) : Except (Refused σ) (BlockView κ σ) :=
  if h : 0 < blockSize then .ok { inner, blockSize, blockSize_pos := h }
  else .error ⟨.argument (.zeroSize .block), inner⟩

def maxBlockCount (v : BlockView κ σ) : Nat := maxPosition / v.blockSize

def addListener (listener : κ) (v : BlockView κ σ) : Nat × BlockView κ σ :=
  let (id, register) := v.register.add listener
  (id, { v with register })

def eraseListener (id : Nat) (v : BlockView κ σ) : BlockView κ σ :=
  { v with register := v.register.erase id }

def announce [Audience κ ω] (change : Change) : StoreM (BlockView κ σ × ω) Unit := do
  let (v, _) ← get
  StoreM.onSecond (v.register.notify change)

variable [Storage σ]

def blockCount : StoreM (BlockView κ σ) Nat := do
  let length ← onInner Storage.length
  return length / (← get).blockSize

/-- The position of byte `offset` of a block, if `count` bytes from there on lie inside it. -/
def locate (block offset count : Nat) : StoreM (BlockView κ σ) Nat := do
  let present ← blockCount
  let size := (← get).blockSize
  if present ≤ block then throw (.range (.noSuchBlock block present))
  else if size ≤ offset then throw (.range (.outsideBlock offset size))
  else if size - offset < count then throw (.range (.crossesBlock count offset size))
  else return block * size + offset

def readBlock (block offset count : Nat) : StoreM (BlockView κ σ) Bytes := do
  let pos ← locate block offset count
  onInner (Storage.seek pos)
  onInner (Storage.readExactly count)

def readBlockWithin (block offset : Nat) (buffer : Bytes) (start count : Nat) :
    StoreM (BlockView κ σ) Bytes := do
  checkSlice buffer.size start count
  let data ← readBlock block offset count
  return buffer.overwrite start data

def writeBlock (block offset : Nat) (data : Bytes) : StoreM (BlockView κ σ) Unit := do
  let pos ← locate block offset data.size
  onInner (Storage.seek pos)
  onInner (Storage.write data)

def writeBlockWithin (block offset : Nat) (buffer : Bytes) (start count : Nat) :
    StoreM (BlockView κ σ) Unit := do
  checkSlice buffer.size start count
  writeBlock block offset (buffer.slice start count)

/-- The most bytes that are moved at a time. -/
def chunkSize : Nat := 64 * 1024

def chunkCount (n : Nat) : Nat := (n + (chunkSize - 1)) / chunkSize

def copyChunk (source count target : Nat) : StoreM (BlockView κ σ) Unit := do
  onInner (Storage.seek source)
  let data ← onInner (Storage.readExactly count)
  onInner (Storage.seek target)
  onInner (Storage.write data)

/-- Moves the bytes from `start` up to `stop`, which make `chunks` chunks, up by `distance`. The
highest chunk goes first, so that no byte is lost before it has moved. -/
def shiftUp (start distance : Nat) : (chunks stop : Nat) → StoreM (BlockView κ σ) Unit
  | 0, _ => pure ()
  | chunks + 1, stop => do
    let source := max start (stop - chunkSize)
    copyChunk source (stop - source) (source + distance)
    shiftUp start distance chunks source

/-- Moves the bytes from `start` up to `stop`, which make `chunks` chunks, down by `distance`. The
lowest chunk goes first. -/
def shiftDown (stop distance : Nat) : (chunks start : Nat) → StoreM (BlockView κ σ) Unit
  | 0, _ => pure ()
  | chunks + 1, start => do
    let next := min stop (start + chunkSize)
    copyChunk start (next - start) (start - distance)
    shiftDown stop distance chunks next

/-- Moves block `index` and all behind it up by `count` blocks. What the new blocks hold is what
stood at their positions, zero beyond the former end. -/
def openGap (index count : Nat) : StoreM (BlockView κ σ) Unit := do
  let present ← blockCount
  let v ← get
  if count = 0 then throw (.argument .insertsNothing)
  else if present < index then throw (.range (.insertBeyond index present))
  else if v.maxBlockCount - present < count then
    throw (.argument (.tooManyBlocks count present v.maxBlockCount))
  else
    let length ← onInner Storage.length
    let distance := count * v.blockSize
    let start := index * v.blockSize
    onInner (Storage.resize (length + distance))
    shiftUp start distance (chunkCount (length - start)) length

/-- Moves all behind the `count` blocks from `index` on down into their place. -/
def closeGap (index count : Nat) : StoreM (BlockView κ σ) Unit := do
  let present ← blockCount
  let v ← get
  if count = 0 then throw (.argument .deletesNothing)
  else if present < index + count then throw (.range (.deleteBeyond count index present))
  else
    let length ← onInner Storage.length
    let distance := count * v.blockSize
    let start := (index + count) * v.blockSize
    shiftDown length distance (chunkCount (length - start)) start
    onInner (Storage.resize (length - distance))

def insertBlocks [Audience κ ω] (index count : Nat) : StoreM (BlockView κ σ × ω) Unit := do
  StoreM.onFirst (openGap index count)
  announce (.inserted index count)

def deleteBlocks [Audience κ ω] (index count : Nat) : StoreM (BlockView κ σ × ω) Unit := do
  StoreM.onFirst (closeGap index count)
  announce (.deleted index count)

instance : Storage (BlockView κ σ) where
  length := onInner Storage.length
  resize length := onInner (Storage.resize length)
  cursor := onInner Storage.cursor
  seek pos := onInner (Storage.seek pos)
  read n := onInner (Storage.read n)
  write data := onInner (Storage.write data)
  flush := onInner Storage.flush
  close := onInner Storage.close
  isClosed v := Storage.isClosed v.inner
  release v := { v with inner := Storage.release v.inner }

end BlockView

end ByteTower
