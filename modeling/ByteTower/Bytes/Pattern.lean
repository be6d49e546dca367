import ByteTower.Bytes.Basic

namespace ByteTower.Bytes

/-- Byte `i` is `31 * i + 7 + seed` modulo 251. -/
def pattern (n seed : Nat) : Bytes :=
  n.fold (fun i _ b => b.push (UInt8.ofNat ((i * 31 + 7 + seed) % 251))) ByteArray.empty

end ByteTower.Bytes
