import ByteTower.Error

namespace ByteTower

/-- A path as the operating system reads it: names between slashes. The names `.` and `..` stay where they
are and lead one directory up. -/
structure Path where
  /-- The names between the slashes, none of them empty. -/
  steps : List String
  /-- Leads from the root, and not from where the program is. -/
  fromRoot : Bool
  /-- Ends in a slash, as only the path of a directory may. -/
  slashed : Bool
deriving DecidableEq

namespace Path

def maxSize : Nat := 4095

def maxNameSize : Nat := 255

/-- Takes a text apart. Slashes that follow one another count as one. -/
def split (text : String) : Path :=
  { steps := (text.splitToList (· == '/')).filter (· ≠ "")
    fromRoot := text.startsWith "/"
    slashed := text.endsWith "/" }

/-- Reads a path. The operating system takes texts that end at the first zero character, so one
with such a character in it is not even handed over. -/
def read (text : String) : Except IoError Path :=
  if text.toList.any fun c => c.toNat = 0 then .error .zeroInPath
  else if text = "" then .error (.system .noSuchFile)
  else if maxSize < text.utf8ByteSize then .error (.system .nameTooLong)
  else .ok (split text)

/-- The path of `name` in a directory, taken from there. The empty name is the directory itself, and
a path from the root stays what it is. -/
def inside (name : String) : String := if name.startsWith "/" then name else "./" ++ name

end Path

end ByteTower
