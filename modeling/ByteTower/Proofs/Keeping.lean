import ByteTower.Proofs.Call

namespace ByteTower

namespace StoreM

variable {σ τ α β : Type} {p : σ → Prop} {act : StoreM σ α} {s : σ}

/-- Run on `s`, `act` ends where `p` holds, whether it fails or not. -/
abbrev Ends (p : σ → Prop) (act : StoreM σ α) (s : σ) : Prop :=
  act.Meets s (fun _ => p) fun _ => p

theorem ends_iff : act.Ends p s ↔ p (act.run s).2 := by
  unfold Ends Meets
  rcases act.run s with ⟨_ | _, _⟩ <;> rfl

theorem ends_checkSlice (hs : p s) (size start count : Nat) :
    (checkSlice size start count).Ends p s := by
  unfold checkSlice
  split
  · exact meets_throw hs
  · exact meets_pure hs

theorem ends_requireOpen (hs : p s) (closed : Bool) : (requireOpen closed).Ends p s := by
  unfold requireOpen
  split
  · exact meets_throw hs
  · exact meets_pure hs

theorem ends_checkPosition (hs : p s) (pos : Nat) : (checkPosition pos).Ends p s := by
  unfold checkPosition
  split
  · exact meets_throw hs
  · exact meets_pure hs

theorem ends_endOf (hs : p s) (pos count : Nat) : (endOf pos count).Ends p s := by
  unfold endOf
  split
  · exact meets_throw hs
  · exact meets_pure hs

theorem Ends.onFirst {q : σ × τ} (h : act.Ends p q.1) : act.onFirst.Ends (Beside p) q :=
  Meets.zoom h

theorem ends_onSecond {q : σ × τ} (hq : Beside p q) (act : StoreM τ α) :
    act.onSecond.Ends (Beside p) q :=
  ends_iff.2 hq

end StoreM

open StoreM Storage

variable {σ : Type} [Storage σ] {P : σ → Prop} {s : σ}

namespace Kept

variable (h : Kept P)

include h

theorem gather {wanted fuel : Nat} {q : σ × Bytes} (hq : Beside P q) :
    (Storage.gather wanted fuel).Ends (Beside P) q := by
  induction fuel generalizing q with
  | zero => exact meets_pure hq
  | succ fuel ih =>
    apply meets_get_bind
    dsimp only
    split
    case isFalse => exact meets_pure hq
    case isTrue =>
      apply (Ends.onFirst (ends_iff.2 (h.read (wanted - q.2.size) q.1 hq))).bind
      intro result r hr
      split
      case isTrue => exact meets_throw hr
      case isFalse => exact meets_modify_bind (ih (q := (r.1, r.2 ++ result.data)) hr)

theorem readExactly (hs : P s) (n : Nat) : (Storage.readExactly n).Ends P s :=
  meets_readExactly_of_gather (h.gather (q := (s, ByteArray.empty)) hs)

theorem copyToLoop {ς : Type} [ByteSink ς] {rounds total : Nat} {q : σ × ς} (hq : Beside P q) :
    (Storage.copyToLoop rounds total).Ends (Beside P) q := by
  induction rounds generalizing total q with
  | zero => exact meets_pure hq
  | succ rounds ih =>
    apply (Ends.onFirst (ends_iff.2 (h.read transferSize q.1 hq))).bind
    intro result r hr
    split
    case isTrue => exact meets_pure hr
    case isFalse => exact (ends_onSecond hr _).bind fun _ _ ht => ih ht

theorem collect {ς : Type} [Collector ς] (hs : P s) (sink : ς) : (collect sink).Ends P s := by
  have hcopy : (copyTo : StoreM (σ × ς) Nat).Ends (Beside P) (s, sink) := by
    apply (h.copyToLoop (q := (s, sink)) hs).bind
    intro total q hq
    exact (ends_onSecond hq _).bind fun _ _ hr => meets_pure hr
  have hq : Beside P (copyTo.run (s, sink)).2 := ends_iff.1 hcopy
  exact ends_iff.2 hq

theorem copyFromLoop {ρ : Type} [ByteSource ρ] {rounds total : Nat} {q : σ × ρ}
    (hq : Beside P q) : (Storage.copyFromLoop rounds total).Ends (Beside P) q := by
  induction rounds generalizing total q with
  | zero => exact meets_pure hq
  | succ rounds ih =>
    apply (ends_onSecond hq _).bind
    intro data r hr
    split
    case isTrue => exact meets_pure hr
    case isFalse =>
      exact (Ends.onFirst (ends_iff.2 (h.write data r.1 hr))).bind fun _ _ ht => ih ht

theorem consume {ρ : Type} [ByteSource ρ] (hs : P s) (source : ρ) : (consume source).Ends P s := by
  have hcopy : Beside P (copyFrom.run (s, source)).2 := ends_iff.1 (h.copyFromLoop hs)
  exact ends_iff.2 hcopy

theorem storeCall {ς ρ : Type} [Collector ς] [ByteSource ρ] (hs : P s) (call : StoreCall ς ρ) :
    (call.run).Ends P s := by
  cases call with
  | length => exact (ends_iff.2 (h.length s hs)).bind fun _ _ ht => meets_pure ht
  | isEmpty =>
    have hempty : (Storage.isEmpty : StoreM σ Bool).Ends P s :=
      (ends_iff.2 (h.length s hs)).bind fun _ _ ht => meets_pure ht
    exact hempty.bind fun _ _ ht => meets_pure ht
  | resize n => exact (ends_iff.2 (h.resize n s hs)).bind fun _ _ ht => meets_pure ht
  | cursor => exact (ends_iff.2 (h.cursor s hs)).bind fun _ _ ht => meets_pure ht
  | seek pos => exact (ends_iff.2 (h.seek pos s hs)).bind fun _ _ ht => meets_pure ht
  | write data => exact (ends_iff.2 (h.write data s hs)).bind fun _ _ ht => meets_pure ht
  | writeAt pos data =>
    have hwrite : (Storage.writeAt pos data : StoreM σ Unit).Ends P s :=
      (ends_iff.2 (h.seek pos s hs)).bind fun _ t ht => ends_iff.2 (h.write data t ht)
    exact hwrite.bind fun _ _ ht => meets_pure ht
  | writeWithin buffer start count =>
    have hwrite : (Storage.writeWithin buffer start count : StoreM σ Unit).Ends P s :=
      (ends_checkSlice hs buffer.size start count).bind fun _ t ht => ends_iff.2 (h.write _ t ht)
    exact hwrite.bind fun _ _ ht => meets_pure ht
  | readExactly n => exact (h.readExactly hs n).bind fun _ _ ht => meets_pure ht
  | copyTo sink => exact (h.collect hs sink).bind fun _ _ ht => meets_pure ht
  | copyFrom source => exact (h.consume hs source).bind fun _ _ ht => meets_pure ht
  | flush => exact (ends_iff.2 (h.flush s hs)).bind fun _ _ ht => meets_pure ht
  | close => exact (ends_iff.2 (h.close s hs)).bind fun _ _ ht => meets_pure ht
  | isClosed => exact meets_get_bind (meets_pure hs)

end Kept

namespace BlockView

variable {κ : Type} {b : BlockView κ σ}

omit [Storage σ] in
theorem ends_onInner {α : Type} {act : StoreM σ α} (h : act.Ends P b.inner) :
    (onInner act).Ends (Over P) b :=
  Meets.zoom h

structure KeptBelow (Q : BlockView κ σ → Prop) : Prop where
  length : ∀ b, Q b → (onInner Storage.length).Ends Q b
  resize : ∀ n b, Q b → (onInner (Storage.resize n)).Ends Q b
  seek : ∀ pos b, Q b → (onInner (Storage.seek pos)).Ends Q b
  readExactly : ∀ n b, Q b → (onInner (Storage.readExactly n)).Ends Q b
  write : ∀ data b, Q b → (onInner (Storage.write data)).Ends Q b

theorem keptBelow_over (h : Kept P) : KeptBelow (κ := κ) (Over P) where
  length b hb := ends_onInner (ends_iff.2 (h.length b.inner hb))
  resize n b hb := ends_onInner (ends_iff.2 (h.resize n b.inner hb))
  seek pos b hb := ends_onInner (ends_iff.2 (h.seek pos b.inner hb))
  readExactly n _ hb := ends_onInner (h.readExactly hb n)
  write data b hb := ends_onInner (ends_iff.2 (h.write data b.inner hb))

theorem keptBelow_beside {Q : BlockView κ σ → Prop} (h : ∀ b inner, Q b → Q { b with inner }) :
    KeptBelow Q where
  length b hb := ends_iff.2 (h b _ hb)
  resize _ b hb := ends_iff.2 (h b _ hb)
  seek _ b hb := ends_iff.2 (h b _ hb)
  readExactly _ b hb := ends_iff.2 (h b _ hb)
  write _ b hb := ends_iff.2 (h b _ hb)

variable {Q : BlockView κ σ → Prop} (h : KeptBelow Q) (hb : Q b)

include h hb

theorem ends_blockCount : blockCount.Ends Q b := by
  apply (h.length b hb).bind
  intro length c hc
  exact meets_get_bind (meets_pure hc)

theorem ends_locate (block offset count : Nat) : (locate block offset count).Ends Q b := by
  apply (ends_blockCount h hb).bind
  intro present c hc
  apply meets_get_bind
  dsimp only
  split
  · exact meets_throw hc
  · split
    · exact meets_throw hc
    · split
      · exact meets_throw hc
      · exact meets_pure hc

theorem ends_readBlock (block offset count : Nat) :
    (readBlock block offset count).Ends Q b := by
  apply (ends_locate h hb block offset count).bind
  intro pos c hc
  apply (h.seek pos c hc).bind
  intro _ d hd
  exact h.readExactly count d hd

theorem ends_writeBlock (block offset : Nat) (data : Bytes) :
    (writeBlock block offset data).Ends Q b := by
  apply (ends_locate h hb block offset data.size).bind
  intro pos c hc
  apply (h.seek pos c hc).bind
  intro _ d hd
  exact h.write data d hd

theorem ends_readBlockWithin (block offset : Nat) (buffer : Bytes) (start count : Nat) :
    (readBlockWithin block offset buffer start count).Ends Q b := by
  apply (ends_checkSlice hb buffer.size start count).bind
  intro _ c hc
  exact (ends_readBlock h hc block offset count).bind fun _ _ hd => meets_pure hd

theorem ends_writeBlockWithin (block offset : Nat) (buffer : Bytes) (start count : Nat) :
    (writeBlockWithin block offset buffer start count).Ends Q b := by
  apply (ends_checkSlice hb buffer.size start count).bind
  intro _ c hc
  exact ends_writeBlock h hc block offset _

theorem ends_copyChunk (source count target : Nat) :
    (copyChunk source count target).Ends Q b := by
  apply (h.seek source b hb).bind
  intro _ c hc
  apply (h.readExactly count c hc).bind
  intro data d hd
  apply (h.seek target d hd).bind
  intro _ e he
  exact h.write data e he

theorem ends_shiftUp (start distance chunks stop : Nat) :
    (shiftUp start distance chunks stop).Ends Q b := by
  induction chunks generalizing stop b with
  | zero => exact meets_pure hb
  | succ chunks ih => exact (ends_copyChunk h hb _ _ _).bind fun _ c hc => ih hc _

theorem ends_shiftDown (stop distance chunks start : Nat) :
    (shiftDown stop distance chunks start).Ends Q b := by
  induction chunks generalizing start b with
  | zero => exact meets_pure hb
  | succ chunks ih => exact (ends_copyChunk h hb _ _ _).bind fun _ c hc => ih hc _

theorem ends_openGap (index count : Nat) : (openGap index count).Ends Q b := by
  apply (ends_blockCount h hb).bind
  intro present c hc
  apply meets_get_bind
  split
  · exact meets_throw hc
  · split
    · exact meets_throw hc
    · split
      · exact meets_throw hc
      · apply (h.length c hc).bind
        intro length d hd
        apply (h.resize _ d hd).bind
        intro _ e he
        exact ends_shiftUp h he _ _ _ _

theorem ends_closeGap (index count : Nat) : (closeGap index count).Ends Q b := by
  apply (ends_blockCount h hb).bind
  intro present c hc
  apply meets_get_bind
  split
  · exact meets_throw hc
  · split
    · exact meets_throw hc
    · apply (h.length c hc).bind
      intro length d hd
      apply (ends_shiftDown h hd _ _ _ _).bind
      intro _ e he
      exact h.resize _ e he

end BlockView

theorem Kept.blockCall {κ ω ρ : Type} [Audience κ ω] (h : Kept P) {p : BlockView κ σ × ω}
    (hp : Beside (BlockView.Over P) p) (call : BlockCall κ) :
    (call.run (ρ := ρ)).Ends (Beside (BlockView.Over P)) p := by
  have hbelow := BlockView.keptBelow_over (κ := κ) h
  cases call with
  | count =>
    exact (BlockView.ends_blockCount hbelow hp).onFirst.bind fun _ _ hq => meets_pure hq
  | read block offset n =>
    exact (BlockView.ends_readBlock hbelow hp block offset n).onFirst.bind fun _ _ hq =>
      meets_pure hq
  | readWithin block offset buffer start n =>
    exact (BlockView.ends_readBlockWithin hbelow hp block offset buffer start n).onFirst.bind
      fun _ _ hq => meets_pure hq
  | write block offset data =>
    exact (BlockView.ends_writeBlock hbelow hp block offset data).onFirst.bind fun _ _ hq =>
      meets_pure hq
  | writeWithin block offset buffer start n =>
    exact (BlockView.ends_writeBlockWithin hbelow hp block offset buffer start n).onFirst.bind
      fun _ _ hq => meets_pure hq
  | insert index n =>
    have hinsert : (BlockView.insertBlocks index n).Ends (Beside (BlockView.Over P)) p :=
      (BlockView.ends_openGap hbelow hp index n).onFirst.bind fun _ _ hq =>
        meets_get_bind (ends_onSecond hq _)
    exact hinsert.bind fun _ _ hq => meets_pure hq
  | delete index n =>
    have hdelete : (BlockView.deleteBlocks index n).Ends (Beside (BlockView.Over P)) p :=
      (BlockView.ends_closeGap hbelow hp index n).onFirst.bind fun _ _ hq =>
        meets_get_bind (ends_onSecond hq _)
    exact hdelete.bind fun _ _ hq => meets_pure hq
  | addListener listener => exact hp
  | eraseListener id => exact hp

/-- A store that keeps its contract stays good. -/
theorem Contract.kept [Meaning σ] {f : Failures} {Good : σ → Prop} (h : Contract f Good) :
    Kept Good where
  length s hs := Meets.state (h.length s hs) (fun _ _ ht => ht.1) fun _ _ ht => ht.1
  resize n s hs := Meets.state (h.resize n s hs) (fun _ _ ht => ht.1) fun _ _ ht => ht.1
  cursor s hs := Meets.state (h.cursor s hs) (fun _ _ ht => ht.1) fun _ _ ht => ht.1
  seek pos s hs := Meets.state (h.seek pos s hs) (fun _ _ ht => ht.1) fun _ _ ht => ht.1
  read n s hs := Meets.state (h.read n s hs) (fun _ _ ht => ht.1) fun _ _ ht => ht.1
  write data s hs := Meets.state (h.write data s hs) (fun _ _ ht => ht.1) fun _ _ ht => ht.1
  flush s hs := Meets.state (h.flush s hs) (fun _ _ ht => ht.1) fun _ _ ht => ht.1
  close s hs := Meets.state (h.close s hs) (fun _ _ ht => ht.1) fun _ _ ht => ht.1

end ByteTower
