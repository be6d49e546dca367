import ByteTower.Bytes.Digest
import ByteTower.Bytes.Dump
import ByteTower.CommandLine.Arguments
import ByteTower.Medium.Directory

namespace ByteTower.CommandLine

def version : String := "0.1.0"

def programName : String := "blockio"

inductive Level
  | info
  | error
deriving DecidableEq

def Level.text : Level → String
  | info => "INFO"
  | error => "ERROR"

structure LogEntry where
  level : Level
  text : String
deriving DecidableEq

/-- What a run has printed and logged so far, the latest first. -/
structure Transcript where
  printed : List String := []
  logged : List LogEntry := []

namespace Transcript

def print (line : String) (t : Transcript) : Transcript := { t with printed := line :: t.printed }

def note (level : Level) (text : String) (t : Transcript) : Transcript :=
  { t with logged := ⟨level, text⟩ :: t.logged }

def lines (t : Transcript) : List String := t.printed.reverse

def entries (t : Transcript) : List LogEntry := t.logged.reverse

end Transcript

inductive Reporter
  | reporter

def Reporter.text : Change → String
  | .inserted index count => s!"blocks inserted index={index} count={count}"
  | .deleted index count => s!"blocks deleted index={index} count={count}"

instance : Audience Reporter Transcript :=
  ⟨fun _ change => modify (·.note .info (Reporter.text change))⟩

abbrev BlockFile : Type := BlockView Reporter (ReadAhead (WriteBehind FileHandle))

abbrev TaskM := StoreM (BlockFile × Transcript)

def print (line : String) : TaskM Unit := modify fun (v, t) => (v, t.print line)

def onFile {α : Type} (act : StoreM BlockFile α) : TaskM α := StoreM.onFirst act

def aligned (n : Nat) : String := String.ofList ((Nat.toDigits 10 n).leftpad 8 ' ')

/-- Prints a checksum of each of `count` blocks from block `index` on. -/
def dumpFrom (blockSize : Nat) : (count index : Nat) → TaskM Unit
  | 0, _ => pure ()
  | count + 1, index => do
    let data ← onFile (BlockView.readBlock index 0 blockSize)
    let sum := String.ofList (Hex.padded 8 (Digest.crc32 data).toNat)
    print (aligned index ++ "  " ++ sum)
    dumpFrom blockSize count (index + 1)

/-- Fills `count` blocks from block `index` on with zeros. -/
def zeroFrom (zeros : Bytes) : (count index : Nat) → TaskM Unit
  | 0, _ => pure ()
  | count + 1, index => do
    onFile (BlockView.writeBlock index 0 zeros)
    zeroFrom zeros count (index + 1)

def Task.run (path : String) (task : Task) : TaskM Unit := do
  let blockSize := (← get).1.blockSize
  match task with
  | info => do
    print s!"path:        {path}"
    let length ← onFile Storage.length
    print s!"length:      {length}"
    print s!"block size:  {blockSize}"
    let count ← onFile BlockView.blockCount
    print s!"block count: {count}"
  | dump => do
    let count ← onFile BlockView.blockCount
    dumpFrom blockSize count 0
  | read block => do
    let data ← onFile (BlockView.readBlock block 0 blockSize)
    (Dump.lines data).forM print
  | write block text offset => onFile (BlockView.writeBlock block offset text.toUTF8)
  | insert index count => do
    BlockView.insertBlocks index count
    zeroFrom (Bytes.zeros blockSize) count index
  | delete index count => BlockView.deleteBlocks index count

structure Outcome where
  code : Nat
  transcript : Transcript := {}

def Transcript.failed (cause : StoreError) (t : Transcript) : Outcome :=
  { code := 1, transcript := t.note .error cause.message }

/-- Carries out a task on a tower and closes it. If that fails, the tower is let go of. Yields the
file as it is left. -/
def carryOut (i : Invocation) (v : BlockFile) : Outcome × FileHandle :=
  let act : TaskM Unit := do
    i.task.run i.path
    onFile Storage.close
  match act.run (v, {}) with
  | (.ok (), v, transcript) => ({ code := 0, transcript }, v.inner.inner.inner)
  | (.error cause, v, transcript) =>
    (transcript.failed cause, (Storage.release v).inner.inner.inner)

/-- Where files are opened, and kept when a run is over. -/
structure Disk (m : Type → Type) where
  openFile : String → m (Except IoError FileHandle)
  keep : FileHandle → m Unit

def directoryDisk : Disk (StateM Directory) where
  openFile path := do
    match (← get).openFile .update path with
    | .error cause => return .error cause
    | .ok (f, d) =>
      set d
      return .ok f
  keep f := modify (·.put f.name f.bytes)

/-- Does what an invocation asks for. The sizes are checked before the file is created. -/
def Invocation.run {m : Type → Type} [Monad m] (disk : Disk m) (i : Invocation) : m Outcome := do
  match i.sizes.check with
  | .error cause => return Transcript.failed cause {}
  | .ok () =>
    match ← disk.openFile i.path with
    | .error cause => return Transcript.failed (.io cause) {}
    | .ok f =>
      match (Tower.standard i.sizes f : Except (Refused FileHandle) BlockFile) with
      | .error refused => return Transcript.failed refused.cause {}
      | .ok v =>
        let (outcome, f) := carryOut i (v.addListener .reporter).2
        disk.keep f
        return outcome

def usage : List String :=
  ["Inspect and edit fixed-block files",
    "",
    s!"Usage: {programName} [OPTIONS] <PATH> <COMMAND>",
    "",
    "Commands: info, dump, read, write, insert, delete, help",
    "Options: -b/--block-size, -w/--window, --buffer, -h/--help, -V/--version"]

def run {m : Type → Type} [Monad m] (disk : Disk m) (arguments : List String) : m Outcome :=
  match parse arguments with
  | .ok invocation => invocation.run disk
  | .error .wrong => pure { code := 2 }
  | .error .help => pure { code := 0, transcript := usage.foldl (fun t line => t.print line) {} }
  | .error .version =>
    pure { code := 0, transcript := Transcript.print s!"{programName} {version}" {} }

end ByteTower.CommandLine
