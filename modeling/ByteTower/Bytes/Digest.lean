import ByteTower.Bytes.Basic

namespace ByteTower.Digest

/-- The 64-bit FNV-1a hash. -/
def fnv1a (b : Bytes) : UInt64 :=
  b.foldl (fun h x => (h ^^^ x.toUInt64) * 0x100000001b3) 0xcbf29ce484222325

/-- One bit of a division by the CRC-32 polynomial, bits reversed. -/
def crcBit (c : UInt32) : UInt32 := if c &&& 1 = 1 then (c >>> 1) ^^^ 0xedb88320 else c >>> 1

def crcByte (c : UInt32) (x : UInt8) : UInt32 := Nat.repeat crcBit 8 (c ^^^ x.toUInt32)

/-- The CRC-32 checksum of IEEE 802.3. -/
def crc32 (b : Bytes) : UInt32 := b.foldl crcByte 0xffffffff ^^^ 0xffffffff

end ByteTower.Digest
