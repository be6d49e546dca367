import ByteTower.Region

namespace ByteTower

/-- A refusal by the operating system. -/
inductive SystemError
  | noSuchFile
  | badDescriptor
  | notADirectory
  | isADirectory
  | invalidArgument
  | nameTooLong
  | other (number : Nat) (text : String)
deriving DecidableEq

namespace SystemError

def number : SystemError → Nat
  | noSuchFile => 2
  | badDescriptor => 9
  | notADirectory => 20
  | isADirectory => 21
  | invalidArgument => 22
  | nameTooLong => 36
  | other number _ => number

def text : SystemError → String
  | noSuchFile => "No such file or directory"
  | badDescriptor => "Bad file descriptor"
  | notADirectory => "Not a directory"
  | isADirectory => "Is a directory"
  | invalidArgument => "Invalid argument"
  | nameTooLong => "File name too long"
  | other _ text => text

end SystemError

/-- The kinds of failure that a medium, a stream or a listener can report of itself. -/
inductive IoKind
  | storageFull
  | other
deriving DecidableEq

inductive IoError
  /-- A store ended before a request was filled. -/
  | endedEarly (got wanted : Nat)
  /-- A store had nothing to give before its own end. -/
  | gaveNothing (pos length : Nat)
  /-- A sink took nothing of what it was offered. -/
  | tookNothing
  /-- A path has a zero character in it. -/
  | zeroInPath
  | system (refusal : SystemError)
  | reported (kind : IoKind) (text : String)
deriving DecidableEq

namespace IoError

def message : IoError → String
  | endedEarly got wanted => s!"store ended after {got} of {wanted} bytes"
  | gaveNothing pos length =>
    s!"wrapped store returned no data at {pos} before length {length}"
  | tookNothing => "failed to write whole buffer"
  | zeroInPath => "file name contained an unexpected NUL byte"
  | system refusal => s!"{refusal.text} (os error {refusal.number})"
  | reported _ text => text

end IoError

inductive SizeName
  | window
  | buffer
  | block
deriving DecidableEq

def SizeName.text : SizeName → String
  | window => "window_size"
  | buffer => "buffer_capacity"
  | block => "block_size"

/-- An argument that no store of any length would accept. -/
inductive ArgumentError
  | positionTooLarge (pos : Nat)
  | transferTooLong (count pos : Nat)
  | zeroSize (name : SizeName)
  | insertsNothing
  | deletesNothing
  | tooManyBlocks (count present limit : Nat)
  | rejected (text : String)
deriving DecidableEq

namespace ArgumentError

def message : ArgumentError → String
  | positionTooLarge pos => s!"position {pos} exceeds maximum {maxPosition}"
  | transferTooLong count pos =>
    s!"transfer of {count} bytes at {pos} exceeds maximum position {maxPosition}"
  | zeroSize name => s!"{name.text} must be positive"
  | insertsNothing => "block count to insert must be positive"
  | deletesNothing => "block count to delete must be positive"
  | tooManyBlocks count present limit =>
    s!"inserting {count} blocks into {present} exceeds the maximum of {limit}"
  | rejected text => text

end ArgumentError

/-- A request that lies outside a buffer, a block or a store. -/
inductive RangeError
  | outsideBuffer (start count size : Nat)
  | noSuchBlock (block present : Nat)
  | outsideBlock (offset blockSize : Nat)
  | crossesBlock (count offset blockSize : Nat)
  | insertBeyond (index present : Nat)
  | deleteBeyond (count index present : Nat)
  | rejected (text : String)
deriving DecidableEq

namespace RangeError

def message : RangeError → String
  | outsideBuffer start count size => s!"range {start}+{count} exceeds buffer of {size} bytes"
  | noSuchBlock block present => s!"block {block} out of range (block count {present})"
  | outsideBlock offset blockSize => s!"offset {offset} out of range for block size {blockSize}"
  | crossesBlock count offset blockSize =>
    s!"transfer of {count} bytes at offset {offset} crosses the end of a {blockSize}-byte block"
  | insertBeyond index present => s!"insert index {index} exceeds block count {present}"
  | deleteBeyond count index present =>
    s!"deleting {count} blocks at {index} exceeds block count {present}"
  | rejected text => text

end RangeError

inductive StoreError
  | io (cause : IoError)
  | argument (cause : ArgumentError)
  | range (cause : RangeError)
  /-- The store was closed before. -/
  | closed
deriving DecidableEq

namespace StoreError

def message : StoreError → String
  | io cause => "IO error: " ++ cause.message
  | argument cause => "Invalid argument: " ++ cause.message
  | range cause => "Out of range: " ++ cause.message
  | closed => "Store is closed"

end StoreError

end ByteTower
