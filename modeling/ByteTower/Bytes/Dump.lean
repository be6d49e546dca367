import ByteTower.Bytes.Hex

namespace ByteTower.Dump

def rowSize : Nat := 16

/-- The width of the hexadecimal part of a line: two digits a byte and the blanks between them. -/
def fieldWidth : Nat := 3 * rowSize - 1

def rows (b : Bytes) : List (List UInt8) :=
  (List.range ((b.size + (rowSize - 1)) / rowSize)).map fun k =>
    (b.slice (rowSize * k) rowSize).octets

/-- A byte as text: itself if it is printable ASCII, else a dot. -/
def glyph (b : UInt8) : Char := if 0x20 ≤ b ∧ b ≤ 0x7e then Char.ofNat b.toNat else '.'

def field (row : List UInt8) : List Char :=
  ([' '].intercalate (row.map Hex.pair)).rightpad fieldWidth ' '

def line (k : Nat) (row : List UInt8) : List Char :=
  Hex.padded 8 (rowSize * k) ++ [' ', ' '] ++ field row ++ [' ', ' '] ++ row.map glyph

def lines (b : Bytes) : List String := (rows b).mapIdx fun k row => String.ofList (line k row)

end ByteTower.Dump
