import ByteTower.Proofs.Checked
import ByteTower.Proofs.Transfer

namespace ByteTower

open StoreM CheckedM

/-- Sources that give no more than they are asked for. -/
def ByteSource.Honest (ρ : Type) [ByteSource ρ] : Prop :=
  ∀ (n : Nat) (source : ρ) (data : Bytes), (ByteSource.request n source).1 = .gave data →
    data.size ≤ n

theorem ByteSource.Honest.size_pull {ρ : Type} [ByteSource ρ] (h : Honest ρ) (n : Nat) (source : ρ)
    {data : Bytes} (hpull : (pull n source).1 = .ok data) : data.size ≤ n := by
  rw [pull] at hpull
  split at hpull
  case h_1 next hrequest =>
    have hless : patience next < patience source := by
      have hstep := patience_lt n source (by rw [hrequest])
      rwa [hrequest] at hstep
    exact size_pull h n next hpull
  case h_2 given next hrequest =>
    have hgave := h n source given (by rw [hrequest])
    exact Except.ok.inj hpull ▸ hgave
  case h_3 => cases hpull
termination_by ByteSource.patience source

namespace Storage

variable {σ ς ρ : Type} [CheckedStorage σ] [ByteSink ς] [ByteSource ρ]

def checkedIsEmpty : CheckedM σ Bool := do
  let length ← CheckedStorage.length
  return length == 0

def checkedReadAt (pos n : Nat) : CheckedM σ ReadResult := do
  CheckedStorage.seek pos
  CheckedStorage.read n

def checkedWriteAt (pos : Nat) (data : Bytes) : CheckedM σ Unit := do
  CheckedStorage.seek pos
  CheckedStorage.write data

def checkedReadWithin (buffer : Bytes) (start count : Nat) : CheckedM σ (ReadResult × Bytes) := do
  lift (checkSlice buffer.size start count)
  require (Lies start count buffer.size)
  let result ← CheckedStorage.read count
  return (result, buffer.overwrite start result.data)

def checkedWriteWithin (buffer : Bytes) (start count : Nat) : CheckedM σ Unit := do
  lift (checkSlice buffer.size start count)
  require (Lies start count buffer.size)
  CheckedStorage.write (buffer.slice start count)

def checkedGather (wanted : Nat) : (fuel : Nat) → CheckedM (σ × Bytes) Unit
  | 0 => pure ()
  | fuel + 1 => do
    let (_, got) ← get
    if got.size < wanted then do
      require (got.size ≤ wanted ∧ Lies got.size (wanted - got.size) wanted)
      let result ← (CheckedStorage.read (wanted - got.size)).onFirst
      if result.data.size = 0 then lift (throw (.io (.endedEarly got.size wanted)))
      else do
        require (IsIndex (got.size + result.data.size))
        modify fun (s, got) => (s, got ++ result.data)
        checkedGather wanted fuel
    else pure ()

def checkedReadExactly (n : Nat) : CheckedM σ Bytes :=
  .ofRun fun limit s => ((checkedGather n n).run limit (s, ByteArray.empty)).map fun
    | (.ok (), s, got) => (.ok got, s)
    | (.error e, s, _) => (.error e, s)

def checkedCopyToLoop : (rounds total : Nat) → CheckedM (σ × ς) Nat
  | 0, total => pure total
  | rounds + 1, total => do
    let result ← (CheckedStorage.read transferSize).onFirst
    if result.data.size = 0 then pure total
    else do
      require (Lies 0 result.data.size transferSize)
      lift (onSecond (onStream (ByteSink.put result.data)))
      require (IsOffset (total + result.data.size))
      checkedCopyToLoop rounds (total + result.data.size)

def checkedCopyTo : CheckedM (σ × ς) Nat := do
  let total ← checkedCopyToLoop transferRounds 0
  lift (onSecond (onStream ByteSink.flush))
  return total

def checkedCopyFromLoop : (rounds total : Nat) → CheckedM (σ × ρ) Nat
  | 0, total => pure total
  | rounds + 1, total => do
    let data ← lift (onSecond (onStream (ByteSource.pull transferSize)))
    if data.size = 0 then pure total
    else do
      require (Lies 0 data.size transferSize)
      (CheckedStorage.write data).onFirst
      require (IsOffset (total + data.size))
      checkedCopyFromLoop rounds (total + data.size)

def checkedCopyFrom : CheckedM (σ × ρ) Nat := checkedCopyFromLoop transferRounds 0

section Sure

variable [Storage σ] [Counting σ] {size place : σ → Nat} {Good : σ → Prop} {s : σ}
variable (h : Secure size place Good)

include h

theorem sure_gather {wanted : Nat} (hwanted : IsIndex wanted) (fuel : Nat) {q : σ × Bytes}
    (hq : Good q.1) (hgot : q.2.size ≤ wanted) :
    Sure (checkedGather wanted fuel) (gather wanted fuel) q
      (fun _ r => Good r.1 ∧ r.2.size ≤ wanted) fun _ r => Good r.1 := by
  induction fuel generalizing q with
  | zero => exact sure_pure ⟨hq, hgot⟩
  | succ fuel ih =>
    apply sure_get_bind
    apply sure_ite _ fun _ => sure_pure ⟨hq, hgot⟩
    intro hlt
    apply sure_require_bind ⟨hgot, lies_of_le hwanted (by omega)⟩
    have hread := h.read (wanted - q.2.size) q.1 hq (hwanted.mono (by omega))
    have hread : Sure (CheckedStorage.read (wanted - q.2.size)).onFirst
        (onFirst (Storage.read (wanted - q.2.size))) q
        (fun result r => Good r.1 ∧ result.data.size ≤ wanted - q.2.size ∧ r.2 = q.2)
        fun _ r => Good r.1 :=
      (hread.imp (fun _ _ ht => ⟨ht.1, ht.2.1, rfl⟩) fun _ _ ht => ht).onFirst
    apply hread.bind
    intro result r ⟨hr, hdata, hsame⟩
    apply sure_ite (fun _ => sure_throw hr)
    intro _
    apply sure_require_bind (hwanted.mono (by omega))
    refine sure_modify_bind (ih (q := (r.1, r.2 ++ result.data)) hr ?_) (Nat.le_refl _)
    rw [ByteArray.size_append, hsame]
    omega

theorem sure_readExactly {n : Nat} (hn : IsIndex n) (hs : Good s) :
    Sure (checkedReadExactly n) (readExactly n) s (fun data t => Good t ∧ data.size ≤ n)
      fun _ => Good := by
  obtain ⟨hrun, hcounts, hmeets⟩ :=
    sure_gather h hn n (q := (s, ByteArray.empty)) hs (Nat.zero_le n)
  have hleft : ((readExactly n).run s).2 = ((gather n n).run (s, ByteArray.empty)).2.1 := by
    rw [readExactly]
    dsimp only
    rcases (gather n n).run (s, ByteArray.empty) with ⟨_ | _, t, got⟩ <;> rfl
  refine ⟨fun limit hlimit => ?_, ?_, meets_readExactly_of_gather hmeets⟩
  · rw [hleft] at hlimit
    rw [checkedReadExactly, readExactly]
    dsimp only
    rw [hrun limit hlimit]
    rcases (gather n n).run (s, ByteArray.empty) with ⟨_ | _, t, got⟩ <;> rfl
  · rw [hleft]
    exact hcounts

theorem sure_copyToLoop (rounds : Nat) {total : Nat} {q : σ × ς} (hq : Good q.1)
    (htotal : total ≤ place q.1) :
    Sure (checkedCopyToLoop rounds total) (copyToLoop rounds total) q (fun _ r => Good r.1)
      fun _ r => Good r.1 := by
  induction rounds generalizing total q with
  | zero => exact sure_pure hq
  | succ rounds ih =>
    have hsize : IsIndex transferSize := isIndex_of_lt (by decide)
    have hread : Sure (CheckedStorage.read transferSize).onFirst
        (onFirst (Storage.read transferSize)) q
        (fun result r => Good r.1 ∧ result.data.size ≤ transferSize ∧
          place r.1 = place q.1 + result.data.size) fun _ r => Good r.1 :=
      (h.read transferSize q.1 hq hsize).onFirst
    apply hread.bind
    intro result r ⟨hr, hdata, hplace⟩
    have hle := h.place_le r.1 hr
    apply sure_ite (fun _ => sure_pure hr)
    intro _
    apply sure_require_bind (lies_of_le hsize (by omega))
    have hput : (onSecond (onStream (ByteSink.put result.data))).Meets r
        (fun _ (u : σ × ς) => u.1 = r.1) fun _ u => Good u.1 :=
      Meets.zoom (meets_true.imp (fun _ _ _ => rfl) fun _ _ _ => hr)
    apply sure_lift_bind hput (Nat.le_refl _)
    intro _ u hu
    apply sure_require_bind (isOffset_of_le (by omega))
    exact ih (hu ▸ hr) (by rw [hu]; omega)

theorem sure_copyTo {sink : ς} (hs : Good s) :
    Sure checkedCopyTo copyTo (s, sink) (fun _ => Beside Good) fun _ => Beside Good := by
  apply (sure_copyToLoop h transferRounds (q := (s, sink)) hs (Nat.zero_le _)).bind
  intro total r hr
  exact sure_lift_bind (ends_onSecond hr _) (Nat.le_refl _) fun _ _ hu => sure_pure hu

theorem sure_copyFromLoop (hsource : ByteSource.Honest ρ) (rounds : Nat) {total : Nat} {q : σ × ρ}
    (hq : Good q.1) (htotal : total ≤ place q.1) :
    Sure (checkedCopyFromLoop rounds total) (copyFromLoop rounds total) q (fun _ => Beside Good)
      fun _ => Beside Good := by
  induction rounds generalizing total q with
  | zero => exact sure_pure hq
  | succ rounds ih =>
    have hsize : IsIndex transferSize := isIndex_of_lt (by decide)
    have hpull : (onSecond (onStream (ByteSource.pull transferSize))).Meets q
        (fun data (r : σ × ρ) => r.1 = q.1 ∧ data.size ≤ transferSize) fun _ => Beside Good := by
      apply Meets.zoom
      apply meets_iff.2
      refine ⟨fun data source hrun => ⟨rfl, ?_⟩, fun _ _ _ => hq⟩
      have hanswer := (Prod.mk.inj hrun).1
      rcases hgave : (ByteSource.pull transferSize q.2).1 with e | given
      · rw [hgave] at hanswer
        cases hanswer
      · rw [hgave] at hanswer
        cases hanswer
        exact hsource.size_pull _ _ hgave
    apply sure_lift_bind hpull (Nat.le_refl _)
    rintro data ⟨t, source⟩ ⟨rfl, hdata⟩
    apply sure_ite (fun _ => sure_pure hq)
    intro _
    apply sure_require_bind (lies_of_le hsize (by omega))
    have hwrite : Sure (CheckedStorage.write data).onFirst (onFirst (Storage.write data))
        (q.1, source) (fun _ r => Good r.1 ∧ place r.1 = place q.1 + data.size)
        fun _ => Beside Good :=
      (h.write data q.1 hq (hsize.mono hdata)).onFirst
    apply hwrite.bind
    intro _ r ⟨hr, hplace⟩
    have hle := h.place_le r.1 hr
    apply sure_require_bind (isOffset_of_le (by omega))
    exact ih hr (by omega)

theorem sure_copyFrom (hsource : ByteSource.Honest ρ) {source : ρ} (hs : Good s) :
    Sure checkedCopyFrom copyFrom (s, source) (fun _ => Beside Good) fun _ => Beside Good :=
  sure_copyFromLoop h hsource transferRounds hs (Nat.zero_le _)

end Sure

end Storage

namespace Operation

variable {σ κ ρ : Type} [ByteSink κ] [ByteSource ρ]

/-- The buffers of the operation have sizes of a machine word. -/
def Fits : Operation κ ρ → Prop
  | read n => IsIndex n
  | readAt _ n => IsIndex n
  | readWithin buffer _ _ => IsIndex buffer.size
  | readExactly n => IsIndex n
  | write data => IsIndex data.size
  | writeAt _ data => IsIndex data.size
  | writeWithin buffer _ _ => IsIndex buffer.size
  | _ => True

variable [Storage σ] [CheckedStorage σ]

def checked : Operation κ ρ → CheckedM σ (Yield κ ρ)
  | length => return .number (← CheckedStorage.length)
  | isEmpty => return .flag (← Storage.checkedIsEmpty)
  | resize n => do
    CheckedStorage.resize n
    return .done
  | cursor => return .number (← CheckedStorage.cursor)
  | seek pos => do
    CheckedStorage.seek pos
    return .done
  | read n => return .given (← CheckedStorage.read n)
  | readAt pos n => return .given (← Storage.checkedReadAt pos n)
  | readWithin buffer start count => do
    let (result, buffer) ← Storage.checkedReadWithin buffer start count
    return .filled result buffer
  | readExactly n => do
    let (ending, got) ← (Storage.checkedGather n n).carrying ByteArray.empty
    return .gathered ending got
  | write data => do
    CheckedStorage.write data
    return .done
  | writeAt pos data => do
    Storage.checkedWriteAt pos data
    return .done
  | writeWithin buffer start count => do
    Storage.checkedWriteWithin buffer start count
    return .done
  | copyTo sink => do
    let (total, sink) ← Storage.checkedCopyTo.carrying sink
    return .copied total sink
  | copyFrom source => do
    let (total, source) ← Storage.checkedCopyFrom.carrying source
    return .consumed total source
  | flush => do
    CheckedStorage.flush
    return .done
  | close => do
    CheckedStorage.close
    return .done
  | isClosed => lift isClosed.run

variable [Counting σ] {size place : σ → Nat} {Good : σ → Prop} {s : σ}

theorem sure_run (h : Secure size place Good) (hsource : ByteSource.Honest ρ) (hs : Good s)
    {operation : Operation κ ρ} (hfits : operation.Fits) :
    Sure operation.checked operation.run s (fun _ => Good) fun _ => Good := by
  have hdone : ∀ {t : σ} (y : Yield κ ρ), Good t →
      Sure (pure y) (pure y) t (fun _ => Good) fun _ => Good := fun _ ht => sure_pure ht
  cases operation with
  | length => exact (h.length s hs).bind fun _ _ ht => hdone _ ht.1
  | isEmpty =>
    have hempty : Sure Storage.checkedIsEmpty Storage.isEmpty s (fun _ => Good) fun _ => Good :=
      (h.length s hs).bind fun _ _ ht => sure_pure ht.1
    exact hempty.bind fun _ _ ht => hdone _ ht
  | resize n => exact (h.resize n s hs).bind fun _ _ ht => hdone _ ht
  | cursor => exact (h.cursor s hs).bind fun _ _ ht => hdone _ ht.1
  | seek pos => exact (h.seek pos s hs).bind fun _ _ ht => hdone _ ht
  | read n => exact (h.read n s hs hfits).bind fun _ _ ht => hdone _ ht.1
  | readAt pos n =>
    have hread : Sure (Storage.checkedReadAt pos n) (Storage.readAt pos n) s (fun _ => Good)
        fun _ => Good :=
      (h.seek pos s hs).bind fun _ t ht => (h.read n t ht hfits).imp_ok fun _ _ hu => hu.1
    exact hread.bind fun _ _ ht => hdone _ ht
  | readWithin buffer start count =>
    have hread : Sure (Storage.checkedReadWithin buffer start count)
        (Storage.readWithin buffer start count) s (fun _ => Good) fun _ => Good := by
      apply sure_checkSlice_bind fun _ => hs
      intro hslice
      apply sure_require_bind (lies_of_le hfits hslice)
      have hcount : IsIndex count := IsIndex.mono hfits (by omega)
      exact (h.read count s hs hcount).bind fun _ _ ht => sure_pure ht.1
    exact hread.bind fun _ _ ht => hdone _ ht
  | readExactly n =>
    have hgather := Storage.sure_gather h hfits n (q := (s, ByteArray.empty)) hs (Nat.zero_le n)
    have hgather : Sure (Storage.checkedGather n n) (Storage.gather n n) (s, ByteArray.empty)
        (fun _ => Beside Good) fun _ => Beside Good := hgather.imp_ok fun _ _ ht => ht.1
    exact hgather.carrying.bind fun _ _ ht => hdone _ ht
  | write data => exact (h.write data s hs hfits).bind fun _ _ ht => hdone _ ht.1
  | writeAt pos data =>
    have hwrite : Sure (Storage.checkedWriteAt pos data) (Storage.writeAt pos data) s
        (fun _ => Good) fun _ => Good :=
      (h.seek pos s hs).bind fun _ t ht => (h.write data t ht hfits).imp_ok fun _ _ hu => hu.1
    exact hwrite.bind fun _ _ ht => hdone _ ht
  | writeWithin buffer start count =>
    have hwrite : Sure (Storage.checkedWriteWithin buffer start count)
        (Storage.writeWithin buffer start count) s (fun _ => Good) fun _ => Good := by
      apply sure_checkSlice_bind fun _ => hs
      intro hslice
      apply sure_require_bind (lies_of_le hfits hslice)
      have hpart : IsIndex (buffer.slice start count).size := by
        rw [Bytes.size_slice]
        exact IsIndex.mono hfits (by omega)
      exact (h.write _ s hs hpart).imp_ok fun _ _ ht => ht.1
    exact hwrite.bind fun _ _ ht => hdone _ ht
  | copyTo sink => exact (Storage.sure_copyTo h hs).carrying.bind fun _ _ ht => hdone _ ht
  | copyFrom source =>
    exact (Storage.sure_copyFrom h hsource hs).carrying.bind fun _ _ ht => hdone _ ht
  | flush => exact (h.flush s hs).bind fun _ _ ht => hdone _ ht
  | close => exact (h.close s hs).bind fun _ _ ht => hdone _ ht
  | isClosed => exact sure_lift hs (Nat.le_refl _)

end Operation

end ByteTower
