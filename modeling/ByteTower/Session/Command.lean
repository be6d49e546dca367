import ByteTower.Block.Scripted
import ByteTower.Medium.Directory
import ByteTower.Medium.Probe
import ByteTower.Store.Throttled
import ByteTower.Tower.Any

namespace ByteTower

inductive Foundation
  | memory (data : Bytes)
  | probe (data : Bytes) (limit : Option Nat) (maxRead : Option Nat)
  | file (mode : Directory.OpenMode) (path : String)
  /-- A file, or a directory, that is only to be read. -/
  | readOnly (path : String)
  /-- A standard tower over a file, which is created if it is not there. -/
  | standardFile (sizes : Sizes) (path : String)

/-- What can be done to any store. -/
inductive StoreCommand
  | length
  | isEmpty
  | cursor
  | isClosed
  | flush
  | close
  | resize (length : Nat)
  | seek (pos : Nat)
  | read (n : Nat)
  | readAt (pos n : Nat)
  /-- Reads into a part of a buffer. -/
  | readWithin (buffer : Bytes) (start count : Nat)
  | readExactly (n : Nat)
  | write (data : Bytes)
  | writeAt (pos : Nat) (data : Bytes)
  | writeWithin (buffer : Bytes) (start count : Nat)
  | copyTo (sink : ThrottledSink)
  | copyFrom (source : ThrottledSource)

/-- What can be done to a tower whose outermost layer has blocks. -/
inductive BlockCommand
  | count
  | read (block offset n : Nat)
  | readWithin (block offset : Nat) (buffer : Bytes) (start count : Nat)
  | write (block offset : Nat) (data : Bytes)
  | writeWithin (block offset : Nat) (buffer : Bytes) (start count : Nat)
  | insert (index count : Nat)
  | delete (index count : Nat)
  | addListener (name : String) (script : Script)
  | eraseListener (id : Nat)
  /-- Tells every listener of a change that did not happen. -/
  | tellEach (change : Change)

inductive Command
  /-- Replaces the tower by a new one. -/
  | build (foundation : Foundation) (layers : List LayerPlan)
  | wrap (layer : LayerPlan)
  /-- Takes the outermost layer off. -/
  | unwrap
  /-- Lets go of the tower. -/
  | drop
  | store (command : StoreCommand)
  | blocks (command : BlockCommand)
  /-- Empties the window of the outermost layer. -/
  | invalidate
  /-- Asks a file for its name. -/
  | path
  /-- Makes a call of the newest probe fail. -/
  | setFault (call : Call) (fault : Fault)
  | heal
  /-- Changes the limits of the newest probe, those that are given. -/
  | tune (limit : Option Nat) (maxRead : Option (Option Nat))
  /-- Changes a file from outside, creating it if it is not there. -/
  | writeFile (path : String) (data : Bytes)
  | resizeFile (path : String) (length : Nat)

inductive Reply
  | done
  | number (n : Nat)
  | flag (b : Bool)
  | text (s : String)
  /-- The outcome of a read, and the bytes to show for it. -/
  | read (result : ReadResult) (shown : Bytes)
  | data (bytes : Bytes)
  /-- The outcome of a copy to a sink, and the sink afterwards. -/
  | copiedTo (total : Except StoreError Nat) (sink : ThrottledSink)
  /-- The outcome of a copy from a source, and the source afterwards. -/
  | copiedFrom (total : Except StoreError Nat) (source : ThrottledSource)
  | outcomes (results : List (Except StoreError Unit))
  | failed (cause : StoreError)
  /-- There is no tower. -/
  | noStore
  /-- The outermost layer cannot do this. -/
  | notSupported

def Reply.ofResult : Except StoreError Reply → Reply
  | .ok reply => reply
  | .error cause => .failed cause

end ByteTower
