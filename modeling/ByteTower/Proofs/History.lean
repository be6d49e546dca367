import Mathlib.Data.List.DropRight
import ByteTower.Proofs.WriteOrder

namespace ByteTower

namespace Mutation

def length? : Mutation → Option Nat
  | write _ _ => none
  | resize n => some n

/-- The byte that a change puts at `i`. -/
def byte? (i : Nat) : Mutation → Option UInt8
  | write pos data => if pos ≤ i then data.byte? (i - pos) else none
  | resize _ => none

/-- A change that cuts off what is at `i`. -/
def cuts (i : Nat) : Mutation → Bool
  | write _ _ => false
  | resize n => n ≤ i

/-- A write of something that ends beyond `i`. -/
def reaches (i : Nat) : Mutation → Bool
  | write pos data => 0 < data.size ∧ i < pos + data.size
  | resize _ => false

/-- The length that was set last, the length of `b` if none was. -/
def lengthSet (b : Bytes) (changes : List Mutation) : Nat :=
  (changes.findSomeRev? length?).getD b.size

/-- The changes since a length was set last, all of them if none was. -/
def sinceSet (changes : List Mutation) : List Mutation := changes.rtakeWhile (·.length?.isNone)

/-- The changes since what was at `i` was cut off last, all of them if it never was. -/
def sinceCut (i : Nat) (changes : List Mutation) : List Mutation := changes.rtakeWhile (!·.cuts i)

/-- The byte that was put at `i` last since it was last cut off. If there is none, it is the one that
`b` has there, unless that was cut off, and else zero. -/
def lastWritten (b : Bytes) (changes : List Mutation) (i : Nat) : UInt8 :=
  match (sinceCut i changes).findSomeRev? (byte? i) with
  | some v => v
  | none => if changes.any (cuts i) then 0 else (b.byte? i).getD 0

variable {b : Bytes} {changes : List Mutation} {i : Nat}

/-- A write puts its bytes at their places and leaves the others, if the bytes beyond the end are taken
for zeros. -/
theorem getD_byte?_put (b : Bytes) (pos : Nat) (data : Bytes) (i : Nat) :
    ((b.put pos data).byte? i).getD 0 =
      ((write pos data).byte? i).getD ((b.byte? i).getD 0) := by
  by_cases hin : pos ≤ i ∧ i < pos + data.size
  · obtain ⟨v, hv⟩ := Bytes.exists_byte (b := data) (i := i - pos) (by omega)
    rw [Bytes.put_of_pos (by omega), Bytes.byte?_overwrite, if_neg (by omega), if_pos hin.2,
      byte?, if_pos hin.1, hv, Option.getD_some, Option.getD_some]
  · have hnone : (write pos data).byte? i = none := by
      rw [byte?]
      split
      case isTrue h => exact Bytes.byte?_eq_none.2 (by omega)
      case isFalse => rfl
    rw [hnone, Option.getD_none]
    -- before the data there may be a gap, which is zero, and behind them nothing changes
    have hold := Bytes.byte?_eq_none (b := b) (i := i)
    unfold Bytes.put
    grind

theorem getD_byte?_resize (b : Bytes) (n i : Nat) :
    ((b.resize n).byte? i).getD 0 = if n ≤ i then 0 else (b.byte? i).getD 0 := by
  have hold := Bytes.byte?_eq_none (b := b) (i := i)
  grind

theorem getD_byte?_apply (c : Mutation) (b : Bytes) (i : Nat) :
    ((c.apply b).byte? i).getD 0 =
      if c.cuts i then 0 else (c.byte? i).getD ((b.byte? i).getD 0) := by
  cases c with
  | write pos data => exact getD_byte?_put b pos data i
  | resize n =>
    rw [apply, getD_byte?_resize]
    simp only [cuts, decide_eq_true_eq, byte?, Option.getD_none]

theorem lt_size_apply (c : Mutation) (b : Bytes) (i : Nat) :
    i < (c.apply b).size ↔ i < c.length?.getD b.size ∨ c.reaches i = true := by
  cases c with
  | write pos data =>
    simp only [apply, Bytes.put, length?, reaches]
    grind
  | resize n =>
    simp only [apply, length?, reaches]
    grind

-- The three readings of a history, when it goes on by one change.

theorem lengthSet_append (b : Bytes) (changes : List Mutation) (c : Mutation) :
    lengthSet b (changes ++ [c]) = c.length?.getD (lengthSet b changes) := by
  simp only [lengthSet, List.findSomeRev?_eq_findSome?_reverse, List.reverse_append,
    List.reverse_singleton, List.singleton_append, List.findSome?_cons]
  cases c.length? with
  | none => rfl
  | some n => rfl

theorem sinceSet_append (changes : List Mutation) (c : Mutation) :
    sinceSet (changes ++ [c]) = if c.length?.isNone then sinceSet changes ++ [c] else [] :=
  List.rtakeWhile_concat _ _ _

theorem lastWritten_append (b : Bytes) (changes : List Mutation) (c : Mutation) (i : Nat) :
    lastWritten b (changes ++ [c]) i =
      if c.cuts i then 0 else (c.byte? i).getD (lastWritten b changes i) := by
  have hsince : sinceCut i (changes ++ [c]) = if !c.cuts i then sinceCut i changes ++ [c] else [] :=
    List.rtakeWhile_concat _ _ _
  rw [lastWritten, hsince, List.any_append]
  cases hcut : c.cuts i with
  | true =>
    -- nothing has been written since, and the place is cut off
    simp [hcut]
  | false =>
    simp only [Bool.not_false, if_true, List.findSomeRev?_eq_findSome?_reverse,
      List.reverse_append, List.reverse_singleton, List.singleton_append, List.findSome?_cons]
    cases hbyte : c.byte? i with
    | some v => simp
    | none =>
      simp [lastWritten, List.findSomeRev?_eq_findSome?_reverse, hcut]

theorem replay_concat (b : Bytes) (changes : List Mutation) (c : Mutation) :
    replay b (changes ++ [c]) = c.apply (replay b changes) := List.foldl_append

/-- After any changes a byte is the one written last, if the bytes beyond the end are taken for
zeros. -/
theorem getD_byte?_replay (b : Bytes) (changes : List Mutation) (i : Nat) :
    ((replay b changes).byte? i).getD 0 = lastWritten b changes i := by
  induction changes using List.reverseRecOn with
  | nil => rfl
  | append_singleton changes c ih =>
    rw [replay_concat, getD_byte?_apply, lastWritten_append, ih]

/-- What lies before the length that was set last, or before the end of a write since then, is all there
is. -/
theorem lt_size_replay (b : Bytes) (changes : List Mutation) (i : Nat) :
    i < (replay b changes).size ↔
      i < lengthSet b changes ∨ ∃ c ∈ sinceSet changes, c.reaches i = true := by
  induction changes using List.reverseRecOn with
  | nil => simp [replay, lengthSet, sinceSet, List.findSomeRev?]
  | append_singleton changes c ih =>
    rw [replay_concat, lt_size_apply, lengthSet_append, sinceSet_append]
    cases hlen : c.length? with
    | none =>
      simp only [Option.getD_none, Option.isNone_none, if_true, ih, List.mem_append,
        List.mem_singleton, or_assoc, or_and_right, exists_or, exists_eq_left]
    | some n =>
      -- where a length is set, what was written before counts no more
      have hreach : c.reaches i = false := by
        cases c with
        | write pos data => cases hlen
        | resize n => rfl
      simp [hreach]

/-- What was cut off is zero until something else is written there. -/
theorem lastWritten_of_cut {n : Nat} (hn : n ≤ i) (before after : List Mutation)
    (hafter : ∀ c ∈ after, c.byte? i = none) :
    lastWritten b (before ++ resize n :: after) i = 0 := by
  induction after using List.reverseRecOn with
  | nil =>
    have hcut : (resize n).cuts i = true := decide_eq_true hn
    rw [lastWritten_append, if_pos hcut]
  | append_singleton after c ih =>
    have hlater : ∀ c ∈ after, c.byte? i = none := fun c hc => hafter c (List.mem_append_left _ hc)
    have hlast : c.byte? i = none := hafter c (List.mem_append_right _ (List.mem_singleton_self c))
    rw [← List.cons_append, ← List.append_assoc, lastWritten_append, hlast, Option.getD_none,
      ih hlater, ite_self]

end Mutation

end ByteTower
