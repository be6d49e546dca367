import ByteTower.Bytes.Basic

namespace ByteTower.Hex

def pair (b : UInt8) : List Char := [Nat.digitChar (b.toNat / 16), Nat.digitChar (b.toNat % 16)]

def padded (width n : Nat) : List Char := (Nat.toDigits 16 n).leftpad width '0'

def encode (b : Bytes) : String := String.ofList (b.octets.flatMap pair)

def digit? (c : Char) : Option Nat :=
  if '0' ≤ c ∧ c ≤ '9' then some (c.toNat - '0'.toNat)
  else if 'a' ≤ c ∧ c ≤ 'f' then some (c.toNat - 'a'.toNat + 10)
  else if 'A' ≤ c ∧ c ≤ 'F' then some (c.toNat - 'A'.toNat + 10)
  else none

def octets? : List Char → Option (List UInt8)
  | [] => some []
  | [_] => none
  | high :: low :: rest => do
    let h ← digit? high
    let l ← digit? low
    return UInt8.ofNat (16 * h + l) :: (← octets? rest)

def decode? (text : String) : Option Bytes := (octets? text.toList).map Bytes.ofOctets

end ByteTower.Hex
