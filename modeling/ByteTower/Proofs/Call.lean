import ByteTower.Proofs.Blocks
import ByteTower.Proofs.Stream

namespace ByteTower

open StoreM

inductive Answer (ρ : Type)
  | done
  | number (n : Nat)
  | flag (b : Bool)
  | data (bytes : Bytes)
  /-- How a copy to a collector went, and what the collector has then. -/
  | collected (total : Except StoreError Nat) (held : Bytes)
  /-- How a copy from a source went, and the source as it is then. -/
  | consumed (total : Except StoreError Nat) (source : ρ)
  /-- The store is not seen as blocks. -/
  | noBlocks

/-- A call on any store, other than a single read, with collectors of type `ς` and sources of
type `ρ`. -/
inductive StoreCall (ς ρ : Type)
  | length
  | isEmpty
  | resize (n : Nat)
  | cursor
  | seek (pos : Nat)
  | write (data : Bytes)
  | writeAt (pos : Nat) (data : Bytes)
  | writeWithin (buffer : Bytes) (start count : Nat)
  | readExactly (n : Nat)
  | copyTo (sink : ς)
  | copyFrom (source : ρ)
  | flush
  | close
  | isClosed

inductive BlockCall (κ : Type)
  | count
  | read (block offset n : Nat)
  | readWithin (block offset : Nat) (buffer : Bytes) (start count : Nat)
  | write (block offset : Nat) (data : Bytes)
  | writeWithin (block offset : Nat) (buffer : Bytes) (start count : Nat)
  | insert (index count : Nat)
  | delete (index count : Nat)
  | addListener (listener : κ)
  | eraseListener (id : Nat)

namespace StoreCall

variable {ς ρ : Type} [Collector ς] [ByteSource ρ]

def run {σ : Type} [Storage σ] : StoreCall ς ρ → StoreM σ (Answer ρ)
  | length => return .number (← Storage.length)
  | isEmpty => return .flag (← Storage.isEmpty)
  | resize n => do
    Storage.resize n
    return .done
  | cursor => return .number (← Storage.cursor)
  | seek pos => do
    Storage.seek pos
    return .done
  | write data => do
    Storage.write data
    return .done
  | writeAt pos data => do
    Storage.writeAt pos data
    return .done
  | writeWithin buffer start count => do
    Storage.writeWithin buffer start count
    return .done
  | readExactly n => return .data (← Storage.readExactly n)
  | copyTo sink => do
    let (total, held) ← collect sink
    return .collected total held
  | copyFrom source => do
    let (total, source) ← consume source
    return .consumed total source
  | flush => do
    Storage.flush
    return .done
  | close => do
    Storage.close
    return .done
  | isClosed => return .flag (Storage.isClosed (← get))

variable {σ : Type} [Storage σ] [Meaning σ] {Good : σ → Prop} {s : σ}

/-- Whatever the layers, a call does what it does to the plain store. -/
theorem mimics_run (h : Contract .never Good) (hs : Good s) (call : StoreCall ς ρ) :
    Mimics Good plain call.run call.run s := by
  cases call with
  | length => exact (h.length s hs).mimics.bind fun _ _ ht => mimics_pure ht _
  | isEmpty =>
    have hempty : Mimics Good plain Storage.isEmpty Storage.isEmpty s :=
      (h.length s hs).mimics.bind fun _ _ ht => mimics_pure ht _
    exact hempty.bind fun _ _ ht => mimics_pure ht _
  | resize n => exact (h.resize n s hs).mimics.bind fun _ _ ht => mimics_pure ht _
  | cursor => exact (h.cursor s hs).mimics.bind fun _ _ ht => mimics_pure ht _
  | seek pos => exact (h.seek pos s hs).mimics.bind fun _ _ ht => mimics_pure ht _
  | write data => exact (h.write data s hs).mimics.bind fun _ _ ht => mimics_pure ht _
  | writeAt pos data =>
    have hwrite : Mimics Good plain (Storage.writeAt pos data) (Storage.writeAt pos data) s :=
      (h.seek pos s hs).mimics.bind fun _ t ht => (h.write data t ht).mimics
    exact hwrite.bind fun _ _ ht => mimics_pure ht _
  | writeWithin buffer start count =>
    have hwrite : Mimics Good plain (Storage.writeWithin buffer start count)
        (Storage.writeWithin buffer start count) s :=
      (mimics_checkSlice hs buffer.size start count).bind fun _ t ht => (h.write _ t ht).mimics
    exact hwrite.bind fun _ _ ht => mimics_pure ht _
  | readExactly n =>
    exact (h.toReading.readExactly hs n).mimics.bind fun _ _ ht => mimics_pure ht _
  | copyTo sink => exact (h.toReading.mimics_collect hs sink).bind fun _ _ ht => mimics_pure ht _
  | copyFrom source => exact (h.mimics_consume hs source).bind fun _ _ ht => mimics_pure ht _
  | flush => exact (h.flush s hs).mimics.bind fun _ _ ht => mimics_pure ht _
  | close => exact (h.close s hs).mimics.bind fun _ _ ht => mimics_pure ht _
  | isClosed =>
    have hc := h.isClosed s hs
    apply mimics_get_bind
    rw [hc]
    exact mimics_pure hs _

end StoreCall

namespace BlockCall

variable {κ ω ρ : Type} [Audience κ ω]

def run {σ : Type} [Storage σ] : BlockCall κ → StoreM (BlockView κ σ × ω) (Answer ρ)
  | count => return .number (← onFirst BlockView.blockCount)
  | read block offset n => return .data (← onFirst (BlockView.readBlock block offset n))
  | readWithin block offset buffer start n =>
    return .data (← onFirst (BlockView.readBlockWithin block offset buffer start n))
  | write block offset data => do
    onFirst (BlockView.writeBlock block offset data)
    return .done
  | writeWithin block offset buffer start n => do
    onFirst (BlockView.writeBlockWithin block offset buffer start n)
    return .done
  | insert index n => do
    BlockView.insertBlocks index n
    return .done
  | delete index n => do
    BlockView.deleteBlocks index n
    return .done
  | addListener listener => do
    let (v, world) ← get
    set ((v.addListener listener).2, world)
    return .number (v.addListener listener).1
  | eraseListener id => do
    let (v, world) ← get
    set (v.eraseListener id, world)
    return .flag (v.register.contains id)

variable {σ : Type} [Storage σ] [Meaning σ] {Good : σ → Prop} {p : BlockView κ σ × ω}

open BlockView (Over bare)

theorem mimics_run (h : Contract .never Good) (hp : Beside (Over Good) p) (call : BlockCall κ) :
    Mimics (Beside (Over Good)) (beside bare) (call.run (ρ := ρ)) call.run p := by
  cases call with
  | count => exact (BlockView.mimics_blockCount h.matches hp).onFirst.bind fun _ _ hq => mimics_pure hq _
  | read block offset n =>
    exact (BlockView.mimics_readBlock h.matches hp block offset n).onFirst.bind fun _ _ hq =>
      mimics_pure hq _
  | readWithin block offset buffer start count =>
    exact (BlockView.mimics_readBlockWithin h.matches hp block offset buffer start count).onFirst.bind
      fun _ _ hq => mimics_pure hq _
  | write block offset data =>
    exact (BlockView.mimics_writeBlock h.matches hp block offset data).onFirst.bind fun _ _ hq =>
      mimics_pure hq _
  | writeWithin block offset buffer start count =>
    exact (BlockView.mimics_writeBlockWithin h.matches hp block offset buffer start count).onFirst.bind
      fun _ _ hq => mimics_pure hq _
  | insert index count =>
    exact (BlockView.mimics_insertBlocks h.matches hp index count).bind fun _ _ hq => mimics_pure hq _
  | delete index count =>
    exact (BlockView.mimics_deleteBlocks h.matches hp index count).bind fun _ _ hq => mimics_pure hq _
  | addListener listener => exact ⟨hp, rfl⟩
  | eraseListener id => exact ⟨hp, rfl⟩

end BlockCall

end ByteTower
