import ByteTower.Store.Basic

namespace ByteTower

inductive SinkAnswer
  | interrupted
  /-- It took the first `n` of them. -/
  | took (n : Nat)
  | failed (cause : IoError)

/-- Takes bytes, a part at a time. A call that it interrupts is made again; `patience` bounds how often. -/
class ByteSink (κ : Type) where
  offer : Bytes → κ → SinkAnswer × κ
  flush : κ → Except IoError Unit × κ
  patience : κ → Nat
  patience_lt : ∀ data sink, (offer data sink).1 = .interrupted →
    patience (offer data sink).2 < patience sink

inductive SourceAnswer
  | interrupted
  /-- It gave these; none means that it has ended. -/
  | gave (data : Bytes)
  | failed (cause : IoError)

/-- Gives bytes, a part at a time, with interruptions like those of a sink. -/
class ByteSource (κ : Type) where
  request : Nat → κ → SourceAnswer × κ
  patience : κ → Nat
  patience_lt : ∀ n source, (request n source).1 = .interrupted →
    patience (request n source).2 < patience source

/-- Offers `data` until the sink has all of it. -/
def ByteSink.put {κ : Type} [ByteSink κ] (data : Bytes) (sink : κ) : Except IoError Unit × κ :=
  if data.size = 0 then (.ok (), sink)
  else
    match _h : ByteSink.offer data sink with
    | (.interrupted, sink) => put data sink
    | (.took n, sink) =>
      if n = 0 then (.error .tookNothing, sink) else put (data.slice n data.size) sink
    | (.failed cause, sink) => (.error cause, sink)
termination_by (data.size, patience sink)
decreasing_by
  · rename_i old _
    have step := patience_lt data old (by rw [_h])
    rw [_h] at step
    exact Prod.Lex.right _ step
  · exact Prod.Lex.left _ _ (by rw [Bytes.size_slice]; omega)

/-- Asks for at most `n` bytes until the source answers. -/
def ByteSource.pull {κ : Type} [ByteSource κ] (n : Nat) (source : κ) :
    Except IoError Bytes × κ :=
  match _h : ByteSource.request n source with
  | (.interrupted, source) => pull n source
  | (.gave data, source) => (.ok data, source)
  | (.failed cause, source) => (.error cause, source)
termination_by patience source
decreasing_by
  rename_i old
  have step := patience_lt n old (by rw [_h])
  rw [_h] at step
  exact step

namespace Storage

variable {σ κ : Type} [Storage σ]

def onStream {α : Type} (act : κ → Except IoError α × κ) : StoreM κ α :=
  .ofRun fun stream => ((act stream).1.mapError .io, (act stream).2)

def transferSize : Nat := 8 * 1024

/-- Enough rounds for every transfer: each moves the cursor on by a byte, and no cursor passes
`maxPosition`. -/
def transferRounds : Nat := maxPosition + 1

def copyToLoop [ByteSink κ] : (rounds total : Nat) → StoreM (σ × κ) Nat
  | 0, total => pure total
  | rounds + 1, total => do
    let result ← StoreM.onFirst (read transferSize)
    if result.data.size = 0 then pure total
    else do
      StoreM.onSecond (onStream (ByteSink.put result.data))
      copyToLoop rounds (total + result.data.size)

/-- Copies everything from the cursor to the end into the sink and flushes the sink. Yields the
number of bytes. -/
def copyTo [ByteSink κ] : StoreM (σ × κ) Nat := do
  let total ← copyToLoop transferRounds 0
  StoreM.onSecond (onStream ByteSink.flush)
  return total

def copyFromLoop [ByteSource κ] : (rounds total : Nat) → StoreM (σ × κ) Nat
  | 0, total => pure total
  | rounds + 1, total => do
    let data ← StoreM.onSecond (onStream (ByteSource.pull transferSize))
    if data.size = 0 then pure total
    else do
      StoreM.onFirst (write data)
      copyFromLoop rounds (total + data.size)

/-- Writes at the cursor everything that the source gives. Yields the number of bytes. -/
def copyFrom [ByteSource κ] : StoreM (σ × κ) Nat := copyFromLoop transferRounds 0

end Storage

end ByteTower
