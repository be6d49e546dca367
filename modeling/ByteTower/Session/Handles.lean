import ByteTower.Medium.Memory
import ByteTower.Session.Command
import ByteTower.Store.Shared

namespace ByteTower

inductive HandleCommand
  | clone
  | drop
  | reclaim
  | length
  | cursor
  | seek (pos : Nat)
  | read (n : Nat)
  | write (data : Bytes)
  | close

inductive HandleReply
  | of (reply : Reply)
  /-- The store stays: other handles live. -/
  | shared
  /-- The handle does not live. -/
  | noHandle

namespace HandleCommand

def through {α : Type} (reply : α → Reply) (act : StoreM Memory α) (handle : Nat)
    (s : Shared Memory) : HandleReply × Shared Memory :=
  match s.through handle act with
  | none => (.noHandle, s)
  | some (result, s) => (.of (.ofResult (result.map reply)), s)

def run (command : HandleCommand) (handle : Nat) (s : Shared Memory) :
    HandleReply × Shared Memory :=
  match command with
  | clone =>
    match s.clone handle with
    | none => (.noHandle, s)
    | some (copy, s) => (.of (.number copy), s)
  | drop =>
    match s.drop handle with
    | none => (.noHandle, s)
    | some s => (.of .done, s)
  | reclaim =>
    match s.reclaim handle with
    | none => (.noHandle, s)
    | some (none, s) => (.shared, s)
    | some (some m, s) => (.of (.data m.bytes), s)
  | length => through .number Storage.length handle s
  | cursor => through .number Storage.cursor handle s
  | seek pos => through (fun _ => .done) (Storage.seek pos) handle s
  | read n => through (fun result => .read result result.data) (Storage.read n) handle s
  | write data => through (fun _ => .done) (Storage.write data) handle s
  | close => through (fun _ => .done) Storage.close handle s

def runFrom (s : Shared Memory) : List (Nat × HandleCommand) → List HandleReply
  | [] => []
  | (handle, command) :: rest =>
    let (reply, s) := command.run handle s
    reply :: runFrom s rest

/-- Runs commands on memory with these contents and one handle on it. -/
def runAll (data : Bytes) (commands : List (Nat × HandleCommand)) : List HandleReply :=
  runFrom { store := Memory.ofBytes data } commands

end HandleCommand

end ByteTower
