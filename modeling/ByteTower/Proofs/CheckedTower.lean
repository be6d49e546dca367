import ByteTower.Proofs.CheckedBlocks
import ByteTower.Proofs.CheckedMedia
import ByteTower.Proofs.CheckedReadAhead
import ByteTower.Proofs.CheckedWriteBehind
import ByteTower.Proofs.Transparency

namespace ByteTower

open StoreM CheckedM
open Counting (counted)

section Wraps

variable {σ : Type} [Storage σ] [CheckedStorage σ] [Counting σ] {size place : σ → Nat}
variable {Good : σ → Prop} (h : Secure size place Good) {s : σ} (hs : Good s)

include h hs

theorem ReadAhead.inBounds_of_wrap {windowSize : Nat} (hsize : IsIndex windowSize) {c : ReadAhead σ}
    (hw : wrap windowSize s = .ok c) : InBounds Good c ∧ counted s ≤ counted c := by
  obtain ⟨_, cursor, t, hrun, rfl⟩ := wrap_eq_ok.1 hw
  obtain ⟨-, hcounts, hmeets⟩ := h.cursor s hs
  obtain ⟨ht, rfl⟩ := hmeets.of_run_ok hrun
  rw [hrun] at hcounts
  refine ⟨⟨ht, hsize, h.place_le s hs, Nat.zero_le _, Nat.zero_le _, Nat.zero_le _⟩, ?_⟩
  exact Nat.le_trans hcounts (Nat.le_max_right _ _)

theorem WriteBehind.inBounds_of_wrap {capacity : Nat} (hsize : IsIndex capacity) {c : WriteBehind σ}
    (hw : wrap capacity s = .ok c) : InBounds Good c ∧ counted s ≤ counted c := by
  obtain ⟨_, cursor, t, hrun, rfl⟩ := wrap_eq_ok.1 hw
  obtain ⟨-, hcounts, hmeets⟩ := h.cursor s hs
  obtain ⟨ht, rfl⟩ := hmeets.of_run_ok hrun
  rw [hrun] at hcounts
  exact ⟨⟨ht, hsize, h.place_le s hs, fun p hp => nomatch hp⟩, hcounts⟩

omit h [Storage σ] [CheckedStorage σ] in
theorem BlockView.inBounds_of_wrap {κ : Type} {blockSize : Nat} (hsize : IsIndex blockSize)
    {v : BlockView κ σ} (hw : wrap blockSize s = .ok v) : InBounds Good v ∧ counted s ≤ counted v := by
  obtain ⟨_, rfl⟩ := wrap_eq_ok.1 hw
  exact ⟨⟨hs, hsize⟩, Nat.le_max_right _ _⟩

end Wraps

/-- The sizes of the layers are those of buffers. -/
def Sizes.Fits (sizes : Sizes) : Prop :=
  IsIndex sizes.window ∧ IsIndex sizes.buffer ∧ IsIndex sizes.block

def LayerPlan.Fits : LayerPlan → Prop
  | readAhead windowSize => IsIndex windowSize
  | writeBehind capacity => IsIndex capacity
  | blocks blockSize => IsIndex blockSize
  | standard sizes => sizes.Fits

namespace Tower

variable {κ μ : Type}

instance checkedStorage [Storage μ] : (kinds : List LayerKind) → CheckedStorage (Tower κ μ kinds)
  | [] => (CheckedStorage.ofStorage : CheckedStorage μ)
  | .readAhead :: kinds =>
    letI : CheckedStorage (Tower κ μ kinds) := checkedStorage kinds
    inferInstanceAs (CheckedStorage (ReadAhead (Tower κ μ kinds)))
  | .writeBehind :: kinds =>
    letI : CheckedStorage (Tower κ μ kinds) := checkedStorage kinds
    inferInstanceAs (CheckedStorage (WriteBehind (Tower κ μ kinds)))
  | .blocks :: kinds =>
    letI : CheckedStorage (Tower κ μ kinds) := checkedStorage kinds
    inferInstanceAs (CheckedStorage (BlockView κ (Tower κ μ kinds)))

instance counting : (kinds : List LayerKind) → Counting (Tower κ μ kinds)
  | [] => (Counting.none : Counting μ)
  | .readAhead :: kinds =>
    letI : Counting (Tower κ μ kinds) := counting kinds
    inferInstanceAs (Counting (ReadAhead (Tower κ μ kinds)))
  | .writeBehind :: kinds =>
    letI : Counting (Tower κ μ kinds) := counting kinds
    inferInstanceAs (Counting (WriteBehind (Tower κ μ kinds)))
  | .blocks :: kinds =>
    letI : Counting (Tower κ μ kinds) := counting kinds
    inferInstanceAs (Counting (BlockView κ (Tower κ μ kinds)))

def InBounds (Good : μ → Prop) : (kinds : List LayerKind) → Tower κ μ kinds → Prop
  | [], m => Good m
  | .readAhead :: kinds, c => ReadAhead.InBounds (InBounds Good kinds) c
  | .writeBehind :: kinds, c => WriteBehind.InBounds (InBounds Good kinds) c
  | .blocks :: kinds, v => BlockView.InBounds (InBounds Good kinds) v

def sizeOver (size : μ → Nat) : (kinds : List LayerKind) → Tower κ μ kinds → Nat
  | [], m => size m
  | .readAhead :: kinds, c => sizeOver size kinds c.inner
  | .writeBehind :: kinds, c => WriteBehind.sizeOver (sizeOver size kinds) c
  | .blocks :: kinds, v => sizeOver size kinds v.inner

def placeOver (place : μ → Nat) : (kinds : List LayerKind) → Tower κ μ kinds → Nat
  | [], m => place m
  | .readAhead :: _, c => ReadAhead.cursor c
  | .writeBehind :: _, c => WriteBehind.cursor c
  | .blocks :: kinds, v => placeOver place kinds v.inner

variable {Good : μ → Prop}

theorem inBounds_dropWindow : ∀ {kinds : List LayerKind} (depth : Nat) {t : Tower κ μ kinds},
    InBounds Good kinds t → InBounds Good kinds (t.dropWindow depth)
  | [], _, _, ht => ht
  | .readAhead :: _, 0, _, hc => ReadAhead.InBounds.invalidate hc
  | .writeBehind :: _, 0, _, hc => hc
  | .blocks :: _, 0, _, hv => hv
  | .readAhead :: _, depth + 1, c, hc => hc.of_inner (inBounds_dropWindow depth (t := c.inner) hc.inner)
  | .writeBehind :: _, depth + 1, c, hc =>
    hc.of_inner (inBounds_dropWindow depth (t := c.inner) hc.inner)
  | .blocks :: _, depth + 1, v, hv => hv.of_inner (inBounds_dropWindow depth (t := v.inner) hv.inner)

theorem counted_le_dropWindow : ∀ {kinds : List LayerKind} (depth : Nat) (t : Tower κ μ kinds),
    counted t ≤ counted (t.dropWindow depth)
  | [], _, _ => Nat.le_refl _
  | .readAhead :: _, 0, _ => Nat.le_refl _
  | .writeBehind :: _, 0, _ => Nat.le_refl _
  | .blocks :: _, 0, _ => Nat.le_refl _
  | .readAhead :: _, depth + 1, c =>
    ReadAhead.counted_le_of_inner (counted_le_dropWindow depth (ReadAhead.inner c))
  | .writeBehind :: _, depth + 1, c => counted_le_dropWindow depth (WriteBehind.inner c)
  | .blocks :: _, depth + 1, v =>
    BlockView.counted_le_of_inner (counted_le_dropWindow depth (BlockView.inner v))

variable [Storage μ] {size place : μ → Nat} (h : Metered size place Good)

include h

theorem secure : ∀ kinds : List LayerKind,
    Secure (sizeOver (κ := κ) size kinds) (placeOver place kinds) (InBounds Good kinds)
  | [] => h.secure
  | .readAhead :: kinds => ReadAhead.secure (secure kinds)
  | .writeBehind :: kinds => WriteBehind.secure (secure kinds)
  | .blocks :: kinds => BlockView.secure (secure kinds)

theorem inBounds_of_standard {kinds : List LayerKind} {t : Tower κ μ kinds} (ht : InBounds Good kinds t)
    {sizes : Sizes} (hsizes : sizes.Fits) {c : Tower κ μ (standardKinds ++ kinds)}
    (hw : Tower.standard sizes t = .ok c) :
    InBounds Good (standardKinds ++ kinds) c ∧ counted t ≤ counted c := by
  obtain ⟨hwindow, hbuffer, hblock⟩ := hsizes
  obtain ⟨-, behind, ahead, hbehind, hahead, hview⟩ := standard_eq_ok hw
  obtain ⟨hs₁, hle₁⟩ := WriteBehind.inBounds_of_wrap (secure h kinds) ht hbuffer hbehind
  obtain ⟨hs₂, hle₂⟩ :=
    ReadAhead.inBounds_of_wrap (WriteBehind.secure (secure h kinds)) hs₁ hwindow hahead
  obtain ⟨hs₃, hle₃⟩ := BlockView.inBounds_of_wrap hs₂ hblock hview
  exact ⟨hs₃, Nat.le_trans hle₁ (Nat.le_trans hle₂ hle₃)⟩

end Tower

namespace AnyTower

variable {κ μ ω α : Type}

def InBounds (Good : μ → Prop) (t : AnyTower κ μ) : Prop := Tower.InBounds Good t.kinds t.tower

/-- The most events that a counter of the tower has counted. -/
def events (t : AnyTower κ μ) : Nat := counted t.tower

instance : Counting (AnyTower κ μ) := ⟨events⟩

variable [Storage μ] {size place : μ → Nat} {Good : μ → Prop}

theorem inBounds_of_wrap (h : Metered size place Good) {t t' : AnyTower κ μ} (ht : t.InBounds Good)
    {plan : LayerPlan} (hplan : plan.Fits) (hw : t.wrap plan = .ok t') :
    t'.InBounds Good ∧ counted t ≤ counted t' := by
  cases plan with
  | readAhead windowSize =>
    obtain ⟨c, hc, rfl⟩ := ofWrapped_eq_ok hw
    exact ReadAhead.inBounds_of_wrap (Tower.secure h t.kinds) ht hplan hc
  | writeBehind capacity =>
    obtain ⟨c, hc, rfl⟩ := ofWrapped_eq_ok hw
    exact WriteBehind.inBounds_of_wrap (Tower.secure h t.kinds) ht hplan hc
  | blocks blockSize =>
    obtain ⟨v, hv, rfl⟩ := ofWrapped_eq_ok hw
    have hbelow : Tower.InBounds Good t.kinds t.tower := ht
    exact BlockView.inBounds_of_wrap hbelow hplan hv
  | standard sizes =>
    obtain ⟨c, hc, rfl⟩ := ofWrapped_eq_ok hw
    exact Tower.inBounds_of_standard h ht hplan hc

end AnyTower

/-- What can be done to a tower, with sinks of type `ς`, sources of type `ρ` and listeners of type
`κ`. -/
inductive Move (κ ς ρ : Type)
  | operation (next : Operation ς ρ)
  | blocks (call : BlockCall κ)
  /-- Drops the window of the layer with so many layers around it, if it has one. -/
  | invalidate (depth : Nat)
  | wrap (plan : LayerPlan)

namespace AnyTower

variable {κ μ ω α : Type} [Storage μ]

def checkedPerform (act : {σ : Type} → [Storage σ] → [CheckedStorage σ] → CheckedM σ α) :
    CheckedM (AnyTower κ μ) α :=
  .ofRun fun limit t =>
    ((act : CheckedM (Tower κ μ t.kinds) α).run limit t.tower).map fun (result, tower) =>
      (result, ⟨t.kinds, tower⟩)

def checkedPerformOnBlocks
    (act : {σ : Type} → [Storage σ] → [CheckedStorage σ] → CheckedM (BlockView κ σ × ω) α)
    (without : α) : CheckedM (AnyTower κ μ × ω) α :=
  .ofRun fun
    | limit, (⟨.blocks :: kinds, v⟩, world) =>
      ((act (σ := Tower κ μ kinds)).run limit (v, world)).map fun (answer, v, world) =>
        (answer, ⟨.blocks :: kinds, v⟩, world)
    | _, p => some (.ok without, p)

variable {Good : μ → Prop} {without : α}

theorem meets_perform {act : {σ : Type} → [Storage σ] → StoreM σ α} {t : AnyTower κ μ}
    {good : α → AnyTower κ μ → Prop} {bad : StoreError → AnyTower κ μ → Prop}
    (h : (act : StoreM (Tower κ μ t.kinds) α).Meets t.tower (fun a u => good a ⟨t.kinds, u⟩)
      fun e u => bad e ⟨t.kinds, u⟩) : (perform act).Meets t good bad :=
  h.embed rfl

theorem sure_perform {act : {σ : Type} → [Storage σ] → [CheckedStorage σ] → CheckedM σ α}
    {model : {σ : Type} → [Storage σ] → StoreM σ α} {t : AnyTower κ μ}
    (h : Sure (act : CheckedM (Tower κ μ t.kinds) α) model t.tower
      (fun _ => Tower.InBounds Good t.kinds) fun _ => Tower.InBounds Good t.kinds) :
    Sure (checkedPerform act) (perform model) t (fun _ => InBounds Good) fun _ => InBounds Good := by
  refine ⟨fun limit hlimit => ?_, h.counts, meets_perform h.meets⟩
  simp only [checkedPerform, h.run limit hlimit]
  rfl

theorem meets_length_le {size place : μ → Nat} (h : Metered size place Good) {t : AnyTower κ μ}
    (ht : t.InBounds Good) :
    (perform Storage.length).Meets t (fun length _ => length ≤ maxPosition) fun _ _ => True := by
  have hsecure := Tower.secure (κ := κ) h t.kinds
  refine meets_perform ((hsecure.length t.tower ht).meets.imp ?_ fun _ _ _ => trivial)
  rintro length _ ⟨-, rfl, -⟩
  exact hsecure.size_le t.tower ht

theorem meets_cursor_le {size place : μ → Nat} (h : Metered size place Good) {t : AnyTower κ μ}
    (ht : t.InBounds Good) :
    (perform Storage.cursor).Meets t (fun cursor _ => cursor ≤ maxPosition) fun _ _ => True := by
  have hsecure := Tower.secure (κ := κ) h t.kinds
  refine meets_perform ((hsecure.cursor t.tower ht).meets.imp ?_ fun _ _ _ => trivial)
  rintro cursor _ ⟨-, rfl⟩
  exact hsecure.place_le t.tower ht

theorem sure_performOnBlocks
    {act : {σ : Type} → [Storage σ] → [CheckedStorage σ] → CheckedM (BlockView κ σ × ω) α}
    {model : {σ : Type} → [Storage σ] → StoreM (BlockView κ σ × ω) α} {p : AnyTower κ μ × ω}
    (hp : Beside (InBounds Good) p)
    (h : ∀ (kinds : List LayerKind) (q : BlockView κ (Tower κ μ kinds) × ω),
      Beside (BlockView.InBounds (Tower.InBounds Good kinds)) q →
        Sure act model q (fun _ => Beside (BlockView.InBounds (Tower.InBounds Good kinds)))
          fun _ => Beside (BlockView.InBounds (Tower.InBounds Good kinds))) :
    Sure (checkedPerformOnBlocks act without) (performOnBlocks model without) p
      (fun _ => Beside (InBounds Good)) fun _ => Beside (InBounds Good) := by
  obtain ⟨⟨_ | ⟨_ | _ | _, kinds⟩, tower⟩, world⟩ := p
  case nil => exact ⟨fun _ _ => rfl, Nat.le_refl _, hp⟩
  case cons.readAhead => exact ⟨fun _ _ => rfl, Nat.le_refl _, hp⟩
  case cons.writeBehind => exact ⟨fun _ _ => rfl, Nat.le_refl _, hp⟩
  case cons.blocks =>
    obtain ⟨hrun, hcounts, hmeets⟩ := h kinds (tower, world) hp
    have hend := ends_iff.1 hmeets
    refine ⟨fun limit hlimit => ?_, hcounts, ends_iff.2 hend⟩
    simp only [checkedPerformOnBlocks, hrun limit hlimit]
    rfl

end AnyTower

namespace Move

variable {κ ω ς ρ μ : Type} [Audience κ ω] [ByteSink ς] [ByteSource ρ] [Storage μ]

/-- All buffers have sizes of a machine word. Positions, counts and block numbers may be any numbers. -/
def Fits : Move κ ς ρ → Prop
  | operation next => next.Fits
  | blocks call => call.Fits
  | invalidate _ => True
  | wrap plan => plan.Fits

def run : Move κ ς ρ → StoreM (AnyTower κ μ × ω) (Yield ς ρ ⊕ Answer ρ)
  | operation next => return .inl (← onFirst (AnyTower.perform next.run))
  | blocks call => return .inr (← AnyTower.performOnBlocks call.run .noBlocks)
  | invalidate depth => do
    onFirst (modify (AnyTower.dropWindow depth))
    return .inr .done
  | wrap plan => do
    onFirst (AnyTower.wrapped plan)
    return .inr .done

def checked : Move κ ς ρ → CheckedM (AnyTower κ μ × ω) (Yield ς ρ ⊕ Answer ρ)
  | operation next => return .inl (← (AnyTower.checkedPerform next.checked).onFirst)
  | blocks call => return .inr (← AnyTower.checkedPerformOnBlocks call.checked .noBlocks)
  | invalidate depth => do
    lift (onFirst (modify (AnyTower.dropWindow depth)))
    return .inr .done
  | wrap plan => do
    -- a new layer asks for the cursor below and computes nothing
    lift (onFirst (AnyTower.wrapped plan))
    return .inr .done

variable {size place : μ → Nat} {Good : μ → Prop} (h : Metered size place Good)
variable (hsources : ByteSource.Honest ρ) {p : AnyTower κ μ × ω} (hp : Beside (AnyTower.InBounds Good) p)

include h hsources hp

/-- A move from a tower in bounds is not stopped and leaves one in bounds. -/
theorem sure_run {move : Move κ ς ρ} (hfits : move.Fits) :
    Sure move.checked move.run p (fun _ => Beside (AnyTower.InBounds Good))
      fun _ => Beside (AnyTower.InBounds Good) := by
  cases move with
  | operation next =>
    have hcall := Operation.sure_run (Tower.secure (κ := κ) h p.1.kinds) hsources hp hfits
    have hperform : Sure (AnyTower.checkedPerform next.checked).onFirst
        (StoreM.onFirst (AnyTower.perform next.run)) p (fun _ => Beside (AnyTower.InBounds Good))
        fun _ => Beside (AnyTower.InBounds Good) := (AnyTower.sure_perform hcall).onFirst
    exact hperform.bind fun _ _ hq => sure_pure hq
  | blocks call =>
    have hcall : Sure (AnyTower.checkedPerformOnBlocks call.checked .noBlocks)
        (AnyTower.performOnBlocks call.run .noBlocks) p
        (fun (_ : Answer ρ) => Beside (AnyTower.InBounds Good))
        fun _ => Beside (AnyTower.InBounds Good) :=
      AnyTower.sure_performOnBlocks hp fun kinds _ hq =>
        BlockCall.sure_run (Tower.secure h kinds) hq hfits
    exact hcall.bind fun _ _ hq => sure_pure hq
  | invalidate depth =>
    have hdrop : (modify (AnyTower.dropWindow depth) : StoreM (AnyTower κ μ) PUnit).Ends
        (AnyTower.InBounds Good) p.1 := Tower.inBounds_dropWindow depth hp
    exact sure_lift_bind hdrop.onFirst (Tower.counted_le_dropWindow depth p.1.tower)
      fun _ _ hq => sure_pure hq
  | wrap plan =>
    have hwrapped : AnyTower.InBounds Good ((AnyTower.wrapped plan).run p.1).2 ∧
        counted p.1 ≤ counted ((AnyTower.wrapped plan).run p.1).2 := by
      unfold AnyTower.wrapped
      dsimp only
      split
      case h_1 t' hw => exact AnyTower.inBounds_of_wrap h hp hfits hw
      case h_2 => exact ⟨hp, Nat.le_refl _⟩
    have hends : (AnyTower.wrapped plan).Ends (AnyTower.InBounds Good) p.1 := ends_iff.2 hwrapped.1
    exact sure_lift_bind hends.onFirst hwrapped.2 fun _ _ hq => sure_pure hq

end Move

/-- Whatever is done to a tower that is built on a medium whose length and cursor never pass the largest
position, with layers of all kinds and sizes, with any arguments, any buffers and any failures of the
medium: no check is ever failed, and the length and the cursor of the tower never pass the largest
position either. Counters are checked against a limit, which stops no run in which none of them has more
events to count. -/
theorem run_never_stopped {κ ω ς ρ μ : Type} [Audience κ ω] [ByteSink ς] [ByteSource ρ] [Storage μ]
    {size place : μ → Nat} {Good : μ → Prop} (hmedium : Metered size place Good)
    (hsources : ByteSource.Honest ρ) {m : μ} (hm : Good m) (world : ω) {moves : List (Move κ ς ρ)}
    (hfits : ∀ move ∈ moves, move.Fits) :
    let start : AnyTower κ μ × ω := (AnyTower.ofMedium m, world)
    let reached := leave (moves.map Move.run) start
    (∀ limit, reached.1.events ≤ limit →
      outcomes limit (moves.map Move.checked) start =
        some (answers (moves.map Move.run) start, reached)) ∧
      (∀ length t, (AnyTower.perform Storage.length).run reached.1 = (.ok length, t) →
        length ≤ maxPosition) ∧
      ∀ cursor t, (AnyTower.perform Storage.cursor).run reached.1 = (.ok cursor, t) →
        cursor ≤ maxPosition := by
  have hstart : Beside (AnyTower.InBounds Good) ((AnyTower.ofMedium m, world) : AnyTower κ μ × ω) := hm
  obtain ⟨hrun, -, hreached⟩ := outcomes_of_sure moves hstart
    fun move hmove _ hp => move.sure_run hmedium hsources hp (hfits move hmove)
  refine ⟨hrun, fun length t hlength => ?_, fun cursor t hcursor => ?_⟩
  · exact (AnyTower.meets_length_le hmedium hreached).of_run_ok hlength
  · exact (AnyTower.meets_cursor_le hmedium hreached).of_run_ok hcursor

/-- A probe tears the second write on it, which is one of those that move the blocks behind an insertion;
the others among the calls ask for more than any store may have. The counters have 64 bits. -/
theorem run_never_stopped_by_torn_write :
    let m : Probe := {
      memory := .ofBytes "0123456789abcdef".toUTF8
      maxRead := some 3
      faults := [(.write, { grace := 1, torn := 1 })] }
    let moves : List (Move String ThrottledSink ThrottledSource) :=
      [.wrap (.writeBehind 4), .wrap (.readAhead 4), .wrap (.blocks 2), .operation (.seek 3),
        .operation (.write "xy".toUTF8), .blocks (.addListener "audit"), .blocks (.insert 1 2),
        .operation (.copyFrom { data := "hello".toUTF8, perCall := some 2 }),
        .operation (.resize 18446744073709551615), .blocks (.insert 0 9223372036854775808)]
    let start : AnyTower String Probe × Cast := (AnyTower.ofMedium m, {})
    let reached := leave (moves.map Move.run) start
    reached.1.events < UInt64.size ∧
      outcomes (UInt64.size - 1) (moves.map Move.checked) start =
        some (answers (moves.map Move.run) start, reached) ∧
      (answers (moves.map Move.run) start).map (·.isOk) =
        [true, true, true, true, true, true, false, true, false, false] ∧
      reached.1.kinds = standardKinds ∧ reached.1.medium.memory.bytes.size = 20 := by
  intro m moves start reached
  have hfits : ∀ move ∈ moves, move.Fits := by
    intro move hmove
    simp only [moves, List.mem_cons, List.not_mem_nil, or_false] at hmove
    rcases hmove with rfl | rfl | rfl | rfl | rfl | rfl | rfl | rfl | rfl | rfl
    all_goals first | trivial | exact isIndex_of_lt (by decide +kernel)
  have hm : m.memory.InRange := by
    constructor
    · show m.memory.bytes.size ≤ maxPosition
      decide +kernel
    · exact Nat.zero_le _
  have hevents : reached.1.events < UInt64.size := by decide +kernel
  have hrun := (run_never_stopped Probe.metered ThrottledSource.honest hm ({} : Cast) hfits).1
  refine ⟨hevents, hrun _ (Nat.le_sub_one_of_lt hevents), ?_, ?_, ?_⟩
  · decide +kernel
  · decide +kernel
  · decide +kernel

end ByteTower
