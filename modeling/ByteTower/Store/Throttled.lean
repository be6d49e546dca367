import ByteTower.Store.Stream

namespace ByteTower

def capped (n : Nat) (bound : Option Nat) : Nat :=
  match bound with
  | none => n
  | some b => min n b

structure ThrottledSink where
  /-- The most bytes that it takes a call. -/
  perCall : Option Nat := none
  /-- The most bytes that it takes in all. -/
  room : Option Nat := none
  /-- Interrupts the first call and every other one after it. -/
  interrupts : Bool := false
  /-- Once it is full, it takes nothing instead of failing. -/
  refusesQuietly : Bool := false
  failsFlush : Bool := false
  held : Bytes := ByteArray.empty
  flushes : Nat := 0
  /-- Whether the next call is one to interrupt. -/
  due : Bool := interrupts

namespace ThrottledSink

def offer (data : Bytes) (s : ThrottledSink) : SinkAnswer × ThrottledSink :=
  if s.due then (.interrupted, { s with due := false })
  else
    let s := { s with due := s.interrupts }
    let count := capped (capped data.size s.perCall) (s.room.map (· - s.held.size))
    if count = 0 ∧ 0 < data.size ∧ !s.refusesQuietly then
      (.failed (.reported .other "sink is full"), s)
    else (.took count, { s with held := s.held ++ data.slice 0 count })

instance : ByteSink ThrottledSink where
  offer := offer
  flush s :=
    let s := { s with flushes := s.flushes + 1 }
    if s.failsFlush then (.error (.reported .other "sink flush failed"), s) else (.ok (), s)
  patience s := s.due.toNat
  patience_lt data s h := by
    unfold offer at h ⊢
    split at h
    case isTrue due => simp [due]
    case isFalse => simp only [] at h; split at h <;> simp at h

end ThrottledSink

structure ThrottledSource where
  data : Bytes
  /-- The most bytes that it gives a call. -/
  perCall : Option Nat := none
  /-- Fails once it has given this many bytes. -/
  failsAfter : Option Nat := none
  /-- Interrupts the first call and every other one after it. -/
  interrupts : Bool := false
  /-- The number of bytes given so far. -/
  given : Nat := 0
  /-- Whether the next call is one to interrupt. -/
  due : Bool := interrupts

namespace ThrottledSource

def request (n : Nat) (s : ThrottledSource) : SourceAnswer × ThrottledSource :=
  if s.due then (.interrupted, { s with due := false })
  else
    let s := { s with due := s.interrupts }
    if s.failsAfter = some s.given then (.failed (.reported .other "source failed"), s)
    else
      let count := capped (capped n s.perCall) (s.failsAfter.map (· - s.given))
      let data := s.data.slice s.given count
      (.gave data, { s with given := s.given + data.size })

instance : ByteSource ThrottledSource where
  request := request
  patience s := s.due.toNat
  patience_lt n s h := by
    unfold request at h ⊢
    split at h
    case isTrue due => simp [due]
    case isFalse => simp only [] at h; split at h <;> simp at h

end ThrottledSource

end ByteTower
