import ByteTower.Store.Basic

namespace ByteTower

structure DirectoryHandle where
  /-- What the operating system gives as the length of a directory: a page. -/
  length : Nat := 4096
  cursor : Nat := 0
  closed : Bool := false

namespace DirectoryHandle

def resize (length : Nat) : StoreM DirectoryHandle Unit := do
  checkPosition length
  requireOpen (← get).closed
  throw (.io (.system .invalidArgument))

def read : StoreM DirectoryHandle ReadResult := do
  let h ← get
  requireOpen h.closed
  if h.length ≤ h.cursor then return .eof else throw (.io (.system .isADirectory))

def write (data : Bytes) : StoreM DirectoryHandle Unit := do
  let h ← get
  requireOpen h.closed
  if data.size = 0 then return ()
  else
    let _ ← endOf h.cursor data.size
    throw (.io (.system .badDescriptor))

instance : Storage DirectoryHandle where
  length := do
    let h ← get
    requireOpen h.closed
    return h.length
  resize := resize
  cursor := do
    let h ← get
    requireOpen h.closed
    return h.cursor
  seek pos := do
    let h ← get
    requireOpen h.closed
    checkPosition pos
    set { h with cursor := pos }
  read _ := read
  write := write
  flush := do
    let h ← get
    requireOpen h.closed
  close := modify fun h => { h with closed := true }
  isClosed := closed
  release := id

end DirectoryHandle

end ByteTower
