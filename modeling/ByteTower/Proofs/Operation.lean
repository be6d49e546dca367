import ByteTower.Proofs.Stream

namespace ByteTower

open StoreM

/-- Runs a computation on a store and what stands beside it. Yields how that went, and what stands
beside the store then. -/
def StoreM.carrying {σ τ α : Type} (act : StoreM (σ × τ) α) (beside : τ) :
    StoreM σ (Except StoreError α × τ) :=
  .ofRun fun s =>
    let (result, s, after) := act.run (s, beside)
    (.ok (result, after), s)

theorem Mimics.carrying {σ τ ω α : Type} {Good : σ → Prop} {view : σ → τ}
    {act : StoreM (σ × ω) α} {model : StoreM (τ × ω) α} {s : σ} {w : ω}
    (h : Mimics (Beside Good) (beside view) act model (s, w)) :
    Mimics Good view (act.carrying w) (model.carrying w) s := by
  obtain ⟨ht, hm⟩ := h
  refine ⟨ht, ?_⟩
  have hm : model.run (view s, w) = _ := hm
  simp only [StoreM.carrying, hm, beside]

/-- A call on any store, with sinks of type `κ` and sources of type `ρ`. -/
inductive Operation (κ ρ : Type)
  | length
  | isEmpty
  | resize (n : Nat)
  | cursor
  | seek (pos : Nat)
  | read (n : Nat)
  | readAt (pos n : Nat)
  | readWithin (buffer : Bytes) (start count : Nat)
  | readExactly (n : Nat)
  | write (data : Bytes)
  | writeAt (pos : Nat) (data : Bytes)
  | writeWithin (buffer : Bytes) (start count : Nat)
  | copyTo (sink : κ)
  | copyFrom (source : ρ)
  | flush
  | close
  | isClosed

/-- The operations that are not made to change bytes. -/
def Operation.Reads {κ ρ : Type} : Operation κ ρ → Prop
  | resize _ | write _ | writeAt _ _ | writeWithin _ _ _ | copyFrom _ => False
  | _ => True

inductive Yield (κ ρ : Type)
  | done
  | number (n : Nat)
  | flag (b : Bool)
  | given (result : ReadResult)
  /-- What was read, and the buffer with it in place. -/
  | filled (result : ReadResult) (buffer : Bytes)
  /-- How a read that insists on all its bytes ended, and what it got by then. -/
  | gathered (ending : Except StoreError Unit) (got : Bytes)
  | copied (total : Except StoreError Nat) (sink : κ)
  | consumed (total : Except StoreError Nat) (source : ρ)

namespace Operation

variable {κ ρ : Type} [ByteSink κ] [ByteSource ρ]

def run {σ : Type} [Storage σ] : Operation κ ρ → StoreM σ (Yield κ ρ)
  | length => return .number (← Storage.length)
  | isEmpty => return .flag (← Storage.isEmpty)
  | resize n => do
    Storage.resize n
    return .done
  | cursor => return .number (← Storage.cursor)
  | seek pos => do
    Storage.seek pos
    return .done
  | read n => return .given (← Storage.read n)
  | readAt pos n => return .given (← Storage.readAt pos n)
  | readWithin buffer start count => do
    let (result, buffer) ← Storage.readWithin buffer start count
    return .filled result buffer
  | readExactly n => do
    let (ending, got) ← (Storage.gather n n).carrying ByteArray.empty
    return .gathered ending got
  | write data => do
    Storage.write data
    return .done
  | writeAt pos data => do
    Storage.writeAt pos data
    return .done
  | writeWithin buffer start count => do
    Storage.writeWithin buffer start count
    return .done
  | copyTo sink => do
    let (total, sink) ← Storage.copyTo.carrying sink
    return .copied total sink
  | copyFrom source => do
    let (total, source) ← Storage.copyFrom.carrying source
    return .consumed total source
  | flush => do
    Storage.flush
    return .done
  | close => do
    Storage.close
    return .done
  | isClosed => return .flag (Storage.isClosed (← get))

variable {σ τ : Type} [Storage σ] [Storage τ] {Good : σ → Prop} {view : σ → τ} {s : σ}

theorem mimics_of_reads (h : ReadsLike Good view)
    (hflush : ∀ s, Good s → Mimics Good view Storage.flush Storage.flush s)
    (hclosed : ∀ s, Good s → Storage.isClosed s = Storage.isClosed (view s)) (hs : Good s)
    {operation : Operation κ ρ} (hreads : operation.Reads) (hop : operation ≠ close) :
    Mimics Good view operation.run operation.run s := by
  cases operation with
  | length => exact (h.length s hs).bind fun _ _ ht => mimics_pure ht _
  | isEmpty =>
    have hempty : Mimics Good view Storage.isEmpty Storage.isEmpty s :=
      (h.length s hs).bind fun _ _ ht => mimics_pure ht _
    exact hempty.bind fun _ _ ht => mimics_pure ht _
  | cursor => exact (h.cursor s hs).bind fun _ _ ht => mimics_pure ht _
  | seek pos => exact (h.seek pos s hs).bind fun _ _ ht => mimics_pure ht _
  | read n => exact (h.read n s hs).bind fun _ _ ht => mimics_pure ht _
  | readAt pos n =>
    have hread : Mimics Good view (Storage.readAt pos n) (Storage.readAt pos n) s :=
      (h.seek pos s hs).bind fun _ t ht => h.read n t ht
    exact hread.bind fun _ _ ht => mimics_pure ht _
  | readWithin buffer start count =>
    have hread : Mimics Good view (Storage.readWithin buffer start count)
        (Storage.readWithin buffer start count) s :=
      (mimics_checkSlice hs buffer.size start count).bind fun _ t ht =>
        (h.read count t ht).bind fun _ _ hu => mimics_pure hu _
    exact hread.bind fun _ _ ht => mimics_pure ht _
  | readExactly n =>
    have hgather : Mimics (Beside Good) (beside view) (Storage.gather n n) (Storage.gather n n)
        (s, ByteArray.empty) := mimics_gather h (p := (s, ByteArray.empty)) hs n n
    exact hgather.carrying.bind fun _ _ ht => mimics_pure ht _
  | copyTo sink =>
    have hcopy : Mimics (Beside Good) (beside view) Storage.copyTo Storage.copyTo (s, sink) :=
      (mimics_copyToLoop h (p := (s, sink)) hs).bind fun _ _ ht =>
        (mimics_onSecond ht _).bind fun _ _ hu => mimics_pure hu _
    exact hcopy.carrying.bind fun _ _ ht => mimics_pure ht _
  | flush => exact (hflush s hs).bind fun _ _ ht => mimics_pure ht _
  | close => exact absurd rfl hop
  | isClosed =>
    apply mimics_get_bind
    rw [hclosed s hs]
    exact mimics_pure hs _
  | resize | write | writeAt | writeWithin | copyFrom => exact hreads.elim

/-- Where the single calls are answered alike, so are all operations. -/
theorem mimics_run (h : Imitates Good view)
    (hclosed : ∀ s, Good s → Storage.isClosed s = Storage.isClosed (view s)) (hs : Good s)
    {operation : Operation κ ρ} (hop : operation ≠ close) :
    Mimics Good view operation.run operation.run s := by
  cases operation with
  | resize n => exact (h.resize n s hs).bind fun _ _ ht => mimics_pure ht _
  | write data => exact (h.write data s hs).bind fun _ _ ht => mimics_pure ht _
  | writeAt pos data =>
    have hwrite : Mimics Good view (Storage.writeAt pos data) (Storage.writeAt pos data) s :=
      (h.seek pos s hs).bind fun _ t ht => h.write data t ht
    exact hwrite.bind fun _ _ ht => mimics_pure ht _
  | writeWithin buffer start count =>
    have hwrite : Mimics Good view (Storage.writeWithin buffer start count)
        (Storage.writeWithin buffer start count) s :=
      (mimics_checkSlice hs buffer.size start count).bind fun _ t ht => h.write _ t ht
    exact hwrite.bind fun _ _ ht => mimics_pure ht _
  | copyFrom source =>
    have hcopy : Mimics (Beside Good) (beside view) Storage.copyFrom Storage.copyFrom (s, source) :=
      mimics_copyFromLoop h.write hs
    exact hcopy.carrying.bind fun _ _ ht => mimics_pure ht _
  | _ => exact mimics_of_reads h.toReadsLike h.flush hclosed hs trivial hop

/-- The operations up to the first close, which is the last of them. -/
def upToClose : List (Operation κ ρ) → List (Operation κ ρ)
  | [] => []
  | close :: _ => [close]
  | operation :: operations => operation :: upToClose operations

omit [ByteSink κ] [ByteSource ρ] in
theorem upToClose_cons {operation : Operation κ ρ} (hop : operation ≠ close)
    (operations : List (Operation κ ρ)) :
    upToClose (operation :: operations) = operation :: upToClose operations := by
  cases operation with
  | close => exact absurd rfl hop
  | _ => rfl

end Operation

end ByteTower
