import ByteTower.Store.Basic

namespace ByteTower

/-- A byte string with a cursor. Its contents outlive `close`. -/
structure Memory where
  bytes : Bytes := ByteArray.empty
  cursor : Nat := 0
  closed : Bool := false

namespace Memory

def ofBytes (bytes : Bytes) : Memory := { bytes }

def read (n : Nat) : StoreM Memory ReadResult := do
  let m ← get
  requireOpen m.closed
  if m.bytes.size ≤ m.cursor then return .eof
  else
    let data := m.bytes.slice m.cursor n
    set { m with cursor := m.cursor + data.size }
    return .bytes data

def write (data : Bytes) : StoreM Memory Unit := do
  let m ← get
  requireOpen m.closed
  if data.size = 0 then return ()
  else
    let stop ← endOf m.cursor data.size
    set { m with bytes := m.bytes.overwrite m.cursor data, cursor := stop }

def resize (length : Nat) : StoreM Memory Unit := do
  let m ← get
  requireOpen m.closed
  checkPosition length
  set { m with bytes := m.bytes.resize length, cursor := min m.cursor length }

instance : Storage Memory where
  length := do
    let m ← get
    requireOpen m.closed
    return m.bytes.size
  resize := resize
  cursor := do
    let m ← get
    requireOpen m.closed
    return m.cursor
  seek pos := do
    let m ← get
    requireOpen m.closed
    checkPosition pos
    set { m with cursor := pos }
  read := read
  write := write
  flush := do
    let m ← get
    requireOpen m.closed
  close := modify fun m => { m with closed := true }
  isClosed := closed
  release := id

end Memory

end ByteTower
