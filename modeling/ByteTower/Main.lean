import ByteTower.CommandLine.Run

namespace ByteTower.CommandLine

def refusalOf : IO.Error → SystemError
  | .noFileOrDirectory .. => .noSuchFile
  | .inappropriateType _ 20 _ => .notADirectory
  | .inappropriateType .. => .isADirectory
  | .invalidArgument _ 36 _ => .nameTooLong
  | e => .other 5 (toString e)

/-- The bytes of a file, which is created if it is not there: to open it for appending does so, and
changes nothing else. -/
def readOrCreate (name : String) : IO Bytes := do
  let _ ← IO.FS.Handle.mk name .append
  IO.FS.readBinFile name

def machineDisk : Disk IO where
  openFile name := do
    match ← (readOrCreate name).toBaseIO with
    | .ok bytes => return .ok { name, bytes }
    | .error e => return .error (.system (refusalOf e))
  keep f := do
    let before ← IO.FS.readBinFile f.name
    if before == f.bytes then pure () else IO.FS.writeBinFile f.name f.bytes

end ByteTower.CommandLine

def main (arguments : List String) : IO UInt32 := do
  let outcome ← ByteTower.CommandLine.run ByteTower.CommandLine.machineDisk arguments
  for line in outcome.transcript.lines do
    IO.println line
  for entry in outcome.transcript.entries do
    IO.eprintln (entry.level.text ++ " " ++ entry.text)
  return UInt32.ofNat outcome.code
