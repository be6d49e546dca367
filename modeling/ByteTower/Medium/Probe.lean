import ByteTower.Medium.Memory

namespace ByteTower

inductive Call
  | length
  | resize
  | cursor
  | seek
  | read
  | write
  | flush
  | close
deriving DecidableEq

def Call.name : Call → String
  | length => "len"
  | resize => "set_len"
  | cursor => "position"
  | seek => "set_position"
  | read => "read"
  | write => "write"
  | flush => "flush"
  | close => "close"

/-- A call that fails after `grace` more successes. A failing write first writes `torn` bytes of
its data. -/
structure Fault where
  grace : Nat := 0
  torn : Nat := 0

inductive Traffic
  | resize (length : Nat)
  | read (n pos : Nat)
  | write (data : Bytes) (pos : Nat)
  | flush
  | close

def Traffic.text : Traffic → String
  | resize length => s!"set_len {length}"
  | read n pos => s!"read {n} @{pos}"
  | write data pos => s!"write {data.size} @{pos}"
  | flush => "flush"
  | close => "close"

/-- Memory that writes down the calls it gets and fails on demand. -/
structure Probe where
  memory : Memory
  /-- The length that the memory must not pass. -/
  limit : Nat := 1048576
  /-- The most bytes that one read may give. -/
  maxRead : Option Nat := none
  faults : List (Call × Fault) := []
  /-- The calls so far, the latest first. -/
  traffic : List Traffic := []

namespace Probe

def onMemory {α : Type} (act : StoreM Memory α) : StoreM Probe α :=
  act.zoom memory fun memory p => { p with memory }

def setFault (p : Probe) (call : Call) (fault : Fault) : Probe :=
  { p with faults := (call, fault) :: p.faults.filter (·.1 != call) }

def heal (p : Probe) : Probe := { p with faults := [] }

def mark (p : Probe) : Nat := if p.memory.closed then 0 else p.memory.cursor

def note (traffic : Traffic) : StoreM Probe Unit :=
  modify fun p => { p with traffic := traffic :: p.traffic }

/-- Lets the call pass, or makes it fail if its fault is due. Before it fails, `tear` is done with
the fault's number of bytes. -/
def passOr (tear : Nat → Memory → Memory) (call : Call) : StoreM Probe Unit := do
  let p ← get
  match p.faults.lookup call with
  | none => return ()
  | some ⟨0, count⟩ =>
    set { p with memory := tear count p.memory }
    throw (.io (.reported .other s!"injected {call.name} failure"))
  | some ⟨grace + 1, count⟩ => set (p.setFault call ⟨grace, count⟩)

def pass (call : Call) : StoreM Probe Unit := passOr (fun _ => id) call

/-- Refuses to let the memory grow to `length` where that lies beyond the limit. A length that no
store may have is left to the memory to refuse. -/
def checkLimit (length : Nat) : StoreM Probe Unit := do
  let p ← get
  if p.limit < length ∧ length ≤ maxPosition then
    throw (.io (.reported .storageFull "probe limit exceeded"))
  else return ()

def tear (data : Bytes) (count : Nat) (m : Memory) : Memory :=
  ((Memory.write (data.slice 0 count)).run m).2

instance : Storage Probe where
  length := do
    pass .length
    onMemory Storage.length
  resize length := do
    note (.resize length)
    checkLimit length
    pass .resize
    onMemory (Storage.resize length)
  cursor := do
    pass .cursor
    onMemory Storage.cursor
  seek pos := do
    pass .seek
    onMemory (Storage.seek pos)
  read n := do
    let p ← get
    note (.read n p.mark)
    pass .read
    onMemory (Storage.read (min n (p.maxRead.getD n)))
  write data := do
    let p ← get
    note (.write data p.mark)
    if data.size = 0 then pure () else checkLimit (p.mark + data.size)
    passOr (tear data) .write
    onMemory (Storage.write data)
  flush := do
    note .flush
    pass .flush
    onMemory Storage.flush
  close := do
    note .close
    pass .close
    onMemory Storage.close
  isClosed p := p.memory.closed
  release := id

end Probe

end ByteTower
