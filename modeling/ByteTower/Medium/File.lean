import ByteTower.Store.Basic

namespace ByteTower

/-- An open or closed handle, together with the bytes of its file. -/
structure FileHandle where
  /-- The file's name within its directory. -/
  name : String
  bytes : Bytes
  writable : Bool := true
  /-- The length that the handle goes by. -/
  length : Nat := bytes.size
  cursor : Nat := 0
  closed : Bool := false

namespace FileHandle

/-- The length is checked before the handle is, so a closed handle refuses one that is too large
as too large. -/
def resize (length : Nat) : StoreM FileHandle Unit := do
  checkPosition length
  let f ← get
  requireOpen f.closed
  if f.writable then
    set { f with bytes := f.bytes.resize length, length, cursor := min f.cursor length }
  else throw (.io (.system .invalidArgument))

/-- A file that has become shorter than the handle takes it to be ends where it ends. -/
def read (n : Nat) : StoreM FileHandle ReadResult := do
  let f ← get
  requireOpen f.closed
  if f.length ≤ f.cursor then return .eof
  else
    let wanted := min n (f.length - f.cursor)
    let data := f.bytes.slice f.cursor wanted
    if data.size = 0 ∧ 0 < wanted then return .eof
    else
      set { f with cursor := f.cursor + data.size }
      return .bytes data

def write (data : Bytes) : StoreM FileHandle Unit := do
  let f ← get
  requireOpen f.closed
  if data.size = 0 then return ()
  else
    let stop ← endOf f.cursor data.size
    if f.writable then
      set { f with
        bytes := f.bytes.overwrite f.cursor data
        cursor := stop
        length := max f.length stop }
    else throw (.io (.system .badDescriptor))

instance : Storage FileHandle where
  length := do
    let f ← get
    requireOpen f.closed
    return f.length
  resize := resize
  cursor := do
    let f ← get
    requireOpen f.closed
    return f.cursor
  seek pos := do
    let f ← get
    requireOpen f.closed
    checkPosition pos
    set { f with cursor := pos }
  read := read
  write := write
  flush := do
    let f ← get
    requireOpen f.closed
  close := modify fun f => { f with closed := true }
  isClosed := closed
  release := id

end FileHandle

end ByteTower
