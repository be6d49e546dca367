
namespace ByteTower

/-- The largest position, and the largest length, that a store may have: the largest signed number of
64 bits. -/
def maxPosition : Nat := 0x7FFFFFFFFFFFFFFF

/-- The positions from `start` on, `size` of them. -/
structure Region where
  start : Nat
  size : Nat
deriving DecidableEq

namespace Region

def stop (r : Region) : Nat := r.start + r.size

def isEmpty (r : Region) : Bool := r.size == 0

instance : Membership Nat Region := ⟨fun r p => r.start ≤ p ∧ p < r.stop⟩

theorem mem_iff {r : Region} {p : Nat} : p ∈ r ↔ r.start ≤ p ∧ p < r.stop := Iff.rfl

instance (r : Region) (p : Nat) : Decidable (p ∈ r) := decidable_of_iff _ mem_iff.symm

/-- Whether `b` lies inside `a`. An empty region lies where its start does. -/
def Covers (a b : Region) : Prop :=
  if b.size = 0 then b.start ∈ a else a.start ≤ b.start ∧ b.stop ≤ a.stop

instance (a b : Region) : Decidable (a.Covers b) := by
  unfold Covers
  infer_instance

def overlap? (a b : Region) : Option Region :=
  let start := max a.start b.start
  let stop := min a.stop b.stop
  if start < stop then some ⟨start, stop - start⟩ else none

end Region

end ByteTower
