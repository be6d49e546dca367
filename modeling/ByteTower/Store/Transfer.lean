import ByteTower.Store.Basic

namespace ByteTower.Storage

variable {σ : Type} [Storage σ]

def isEmpty : StoreM σ Bool := do
  let length ← Storage.length
  return length == 0

def readAt (pos n : Nat) : StoreM σ ReadResult := do
  seek pos
  read n

def writeAt (pos : Nat) (data : Bytes) : StoreM σ Unit := do
  seek pos
  write data

/-- Reads into the `count` bytes of `buffer` from `start` on. Yields what was read, and the buffer
with it in place. -/
def readWithin (buffer : Bytes) (start count : Nat) : StoreM σ (ReadResult × Bytes) := do
  checkSlice buffer.size start count
  let result ← read count
  return (result, buffer.overwrite start result.data)

def writeWithin (buffer : Bytes) (start count : Nat) : StoreM σ Unit := do
  checkSlice buffer.size start count
  write (buffer.slice start count)

/-- Reads on until `wanted` bytes have been gathered, in at most `fuel` reads. What was gathered is
part of the state, so that it is there also when a read fails. -/
def gather (wanted : Nat) : (fuel : Nat) → StoreM (σ × Bytes) Unit
  | 0 => pure ()
  | fuel + 1 => do
    let (_, got) ← get
    if got.size < wanted then do
      let result ← StoreM.onFirst (read (wanted - got.size))
      if result.data.size = 0 then throw (.io (.endedEarly got.size wanted))
      else do
        modify fun (s, got) => (s, got ++ result.data)
        gather wanted fuel
    else pure ()

/-- Reads exactly `n` bytes, however many reads that takes. A read either gives
a byte or is the last one, so `n` reads are enough. -/
def readExactly (n : Nat) : StoreM σ Bytes :=
  .ofRun fun s =>
    match (gather n n).run (s, ByteArray.empty) with
    | (.ok (), s, got) => (.ok got, s)
    | (.error e, s, _) => (.error e, s)

end ByteTower.Storage
