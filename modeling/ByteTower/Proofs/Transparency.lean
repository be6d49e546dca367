import ByteTower.Block.Scripted
import ByteTower.Proofs.Call
import ByteTower.Proofs.Tower

namespace ByteTower

open StoreM

/-- A step of a run: a call, or a change of the layers. -/
inductive Step (κ ς ρ : Type)
  | store (call : StoreCall ς ρ)
  | blocks (call : BlockCall κ)
  /-- Drops the window of the layer with so many layers around it, if it has one. -/
  | invalidate (depth : Nat)
  | wrap (plan : LayerPlan)

/-- Drops the window of the layer with `depth` layers around it, if it has one. -/
def Tower.dropWindow {κ μ : Type} : {kinds : List LayerKind} → Nat → Tower κ μ kinds → Tower κ μ kinds
  | [], _, m => m
  | .readAhead :: _, 0, c => ReadAhead.invalidate c
  | .writeBehind :: _, 0, c => c
  | .blocks :: _, 0, v => v
  | .readAhead :: _, depth + 1, c => { c with inner := dropWindow depth c.inner }
  | .writeBehind :: _, depth + 1, c => { c with inner := dropWindow depth c.inner }
  | .blocks :: _, depth + 1, v => { v with inner := dropWindow depth v.inner }

namespace AnyTower

variable {κ μ ω α : Type}

def dropWindow (depth : Nat) (t : AnyTower κ μ) : AnyTower κ μ := ⟨t.kinds, t.tower.dropWindow depth⟩

variable [Storage μ]

def performOnBlocks (act : {σ : Type} → [Storage σ] → StoreM (BlockView κ σ × ω) α) (without : α) :
    StoreM (AnyTower κ μ × ω) α :=
  .ofRun fun
    | (⟨.blocks :: kinds, v⟩, world) =>
      let (answer, v, world) := (act (σ := Tower κ μ kinds)).run (v, world)
      (answer, ⟨.blocks :: kinds, v⟩, world)
    | p => (.ok without, p)

def wrapped (plan : LayerPlan) : StoreM (AnyTower κ μ) Unit :=
  .ofRun fun t =>
    match t.wrap plan with
    | .ok t => (.ok (), t)
    | .error refused => (.error refused.cause, t)

end AnyTower

inductive Bare (κ : Type)
  | store (m : Memory)
  | blocks (v : BlockView κ Memory)

namespace Bare

variable {κ ω α : Type}

def memory : Bare κ → Memory
  | store m => m
  | blocks v => v.inner

def onMemory (act : StoreM Memory α) : StoreM (Bare κ) α :=
  act.zoom memory fun
    | m, store _ => store m
    | m, blocks v => blocks { v with inner := m }

def onBlocks (act : StoreM (BlockView κ Memory × ω) α) (without : α) : StoreM (Bare κ × ω) α :=
  .ofRun fun
    | (blocks v, world) =>
      let (answer, v, world) := act.run (v, world)
      (answer, blocks v, world)
    | p => (.ok without, p)

end Bare

def SizeName.refusal? (name : SizeName) (size : Nat) (closed : Bool) : Option StoreError :=
  if size = 0 then some (.argument (.zeroSize name))
  else if closed then some .closed
  else none

/-- Why layers cannot be put around a store, if they cannot. -/
def LayerPlan.refusal? (closed : Bool) : LayerPlan → Option StoreError
  | readAhead size => SizeName.window.refusal? size closed
  | writeBehind size => SizeName.buffer.refusal? size closed
  | blocks size => SizeName.block.refusal? size false
  | standard sizes =>
    match sizes.check with
    | .error cause => some cause
    | .ok () => if closed then some .closed else none

def LayerPlan.blockSize? : LayerPlan → Option Nat
  | blocks size => some size
  | standard sizes => some sizes.block
  | _ => none

namespace Bare

variable {κ : Type}

/-- A byte string with a layer around it, which shows only if the layer has blocks. -/
def seenThrough (plan : LayerPlan) (m : Memory) : Bare κ :=
  match plan.blockSize?.map fun size => BlockView.wrap size m with
  | some (.ok v) => blocks v
  | _ => store m

theorem seenThrough_of_wrap {plan : LayerPlan} {size : Nat} {m : Memory} {v : BlockView κ Memory}
    (hsize : plan.blockSize? = some size) (hw : BlockView.wrap size m = .ok v) :
    seenThrough plan m = blocks v := by
  simp only [seenThrough, hsize, Option.map_some, hw]

def wrapped (plan : LayerPlan) : StoreM (Bare κ) Unit := do
  let b ← get
  match plan.refusal? b.memory.closed with
  | some cause => throw cause
  | none => set (seenThrough plan b.memory : Bare κ)

end Bare

namespace Step

variable {κ ω ς ρ : Type} [Audience κ ω] [Collector ς] [ByteSource ρ]

def run {μ : Type} [Storage μ] : Step κ ς ρ → StoreM (AnyTower κ μ × ω) (Answer ρ)
  | store call => onFirst (AnyTower.perform call.run)
  | blocks call => AnyTower.performOnBlocks call.run .noBlocks
  | invalidate depth => onFirst do
    modify (AnyTower.dropWindow depth)
    return .done
  | wrap plan => onFirst do
    AnyTower.wrapped plan
    return .done

/-- What the same step does to a byte string in memory. It has no window to drop. -/
def runBare : Step κ ς ρ → StoreM (Bare κ × ω) (Answer ρ)
  | store call => onFirst (Bare.onMemory call.run)
  | blocks call => Bare.onBlocks call.run .noBlocks
  | invalidate _ => return .done
  | wrap plan => onFirst do
    Bare.wrapped plan
    return .done

end Step

theorem Tower.sound_dropWindow {κ μ : Type} [Meaning μ] {v : Nat → Bytes → Prop}
    {Good : Nat → μ → Prop} : ∀ {kinds : List LayerKind} (depth : Nat) {i : Nat}
      {t : Tower κ μ kinds}, Tower.Sound v Good kinds i t →
      Tower.Sound v Good kinds i (t.dropWindow depth) ∧ plain (t.dropWindow depth) = plain t
  | [], _, _, _, ht => ⟨ht, rfl⟩
  | .readAhead :: _, 0, _, _, ⟨size, hc⟩ => ⟨⟨size, hc.invalidate⟩, rfl⟩
  | .writeBehind :: _, 0, _, _, hc => ⟨hc, rfl⟩
  | .blocks :: _, 0, _, _, hb => ⟨hb, rfl⟩
  | .readAhead :: kinds, depth + 1, i, c, ⟨size, hc⟩ => by
    obtain ⟨ht, hp⟩ := sound_dropWindow depth (t := c.inner) hc.inner
    exact ⟨⟨size, hc.of_inner ht (by rw [hp]) (by rw [hp])⟩, ReadAhead.plain_of_inner (by rw [hp])⟩
  | .writeBehind :: kinds, depth + 1, i, c, ⟨size, hv, j, hj, hc⟩ => by
    -- what is pending lies over the same bytes as before
    obtain ⟨ht, hp⟩ := sound_dropWindow depth (t := c.inner) hc.inner
    have hplain : plain { c with inner := Tower.dropWindow depth c.inner } = plain c :=
      WriteBehind.plain_of_inner (by rw [hp])
    exact ⟨⟨size, hplain ▸ hv, j, hj, hc.of_inner ht (by rw [hp])⟩, hplain⟩
  | .blocks :: kinds, depth + 1, i, b, hb => sound_dropWindow depth (t := b.inner) hb

abbrev Tower.Clear {κ : Type} (kinds : List LayerKind) (t : Tower κ Memory kinds) : Prop :=
  Tower.Sound (fun _ _ => True) (fun _ => Memory.Bounded) kinds 0 t

namespace AnyTower

variable {κ ω : Type}

def Clear (t : AnyTower κ Memory) : Prop := Tower.Clear t.kinds t.tower

/-- What is left of a tower without its layers, but for the blocks of the outermost. -/
def bare : AnyTower κ Memory → Bare κ
  | ⟨.blocks :: _, v⟩ => .blocks (BlockView.bare v)
  | t => .store (plain t)

theorem memory_bare (t : AnyTower κ Memory) : t.bare.memory = plain t := by
  rcases t with ⟨_ | ⟨_ | _ | _, kinds⟩, tower⟩ <;> rfl

theorem clear_tracks : Tracks .never (fun _ _ => True) fun _ => Memory.Bounded :=
  Memory.contract.unversioned

theorem contract (kinds : List LayerKind) : Contract .never (Tower.Clear (κ := κ) kinds) :=
  (Tower.tracks clear_tracks kinds).contract 0

variable {ς ρ : Type} [Collector ς] [ByteSource ρ]

theorem mimics_perform_store {kinds : List LayerKind} {t : Tower κ Memory kinds}
    (hbare : ∀ t : Tower κ Memory kinds, bare ⟨kinds, t⟩ = .store (plain t))
    (ht : Tower.Clear kinds t) (call : StoreCall ς ρ) :
    Mimics Clear bare (perform call.run) (Bare.onMemory call.run) ⟨kinds, t⟩ := by
  obtain ⟨hgood, hm⟩ := call.mimics_run (contract kinds) ht
  refine .of_run rfl hgood ?_
  rw [hbare, hbare]
  simp only [Bare.onMemory, run_zoom, Bare.memory, hm]

theorem mimics_perform_blocks {kinds : List LayerKind} {v : Tower κ Memory (.blocks :: kinds)}
    (hv : Tower.Clear (.blocks :: kinds) v) (call : StoreCall ς ρ) :
    Mimics Clear bare (perform call.run) (Bare.onMemory call.run) ⟨.blocks :: kinds, v⟩ := by
  -- the view is called as a store, and what it has beside the store must not change either
  have hframe := (contract (κ := κ) (.blocks :: kinds)).and
    (BlockView.kept (BlockView.blockSize v) (BlockView.register v))
  obtain ⟨⟨hgood, hsize, hregister⟩, hm⟩ := call.mimics_run hframe ⟨hv, rfl, rfl⟩
  refine .of_run rfl hgood ?_
  have hseen := BlockView.bare_of_kept hsize hregister
  have hm : call.run.run (BlockView.bare v).inner = _ := hm
  simp only [bare, Bare.onMemory, run_zoom, Bare.memory, hm]
  exact congrArg (fun w => (_, Bare.blocks w)) hseen

theorem mimics_perform {t : AnyTower κ Memory} (ht : t.Clear) (call : StoreCall ς ρ) :
    Mimics Clear bare (perform call.run) (Bare.onMemory call.run) t := by
  rcases t with ⟨_ | ⟨_ | _ | _, kinds⟩, tower⟩
  case nil => exact mimics_perform_store (fun _ => rfl) ht call
  case cons.readAhead => exact mimics_perform_store (fun _ => rfl) ht call
  case cons.writeBehind => exact mimics_perform_store (fun _ => rfl) ht call
  case cons.blocks => exact mimics_perform_blocks ht call

omit [ByteSource ρ] in
theorem mimics_performOnBlocks [Audience κ ω] {p : AnyTower κ Memory × ω} (hp : Beside Clear p)
    (call : BlockCall κ) (without : Answer ρ) :
    Mimics (Beside Clear) (beside bare) (performOnBlocks call.run without)
      (Bare.onBlocks call.run without) p := by
  obtain ⟨⟨_ | ⟨_ | _ | _, kinds⟩, tower⟩, world⟩ := p
  case nil => exact ⟨hp, rfl⟩
  case cons.readAhead => exact ⟨hp, rfl⟩
  case cons.writeBehind => exact ⟨hp, rfl⟩
  case cons.blocks =>
    have hv : Beside (BlockView.Over (Tower.Clear kinds)) (tower, world) := hp
    obtain ⟨hgood, hm⟩ := call.mimics_run (contract kinds) hv
    refine ⟨hgood, ?_⟩
    have hm : call.run.run (BlockView.bare tower, world) = _ := hm
    simp only [Bare.onBlocks, bare, beside, hm]
    rfl

theorem bare_dropWindow {t : AnyTower κ Memory} (ht : t.Clear) (depth : Nat) :
    (t.dropWindow depth).bare = t.bare := by
  have hp := (Tower.sound_dropWindow depth ht).2
  obtain ⟨_ | ⟨_ | _ | _, kinds⟩, tower⟩ := t
  case nil => rfl
  case cons.readAhead => exact congrArg Bare.store hp
  case cons.writeBehind => exact congrArg Bare.store hp
  case cons.blocks =>
    cases depth with
    | zero => rfl
    | succ depth =>
      exact congrArg (fun m => Bare.blocks { BlockView.bare tower with inner := m }) hp

theorem bare_of_wrap {plan : LayerPlan} {t t' : AnyTower κ Memory} (hw : t.wrap plan = .ok t')
    (hp : plain t' = plain t) : t'.bare = Bare.seenThrough plan (plain t) := by
  cases plan with
  | readAhead size =>
    obtain ⟨c, -, rfl⟩ := ofWrapped_eq_ok hw
    exact congrArg Bare.store hp
  | writeBehind size =>
    obtain ⟨c, -, rfl⟩ := ofWrapped_eq_ok hw
    exact congrArg Bare.store hp
  | blocks size =>
    obtain ⟨v, hv, rfl⟩ := ofWrapped_eq_ok hw
    exact (Bare.seenThrough_of_wrap rfl (BlockView.wrap_bare hv)).symm
  | standard sizes =>
    obtain ⟨v, hv, rfl⟩ := ofWrapped_eq_ok hw
    -- of the three layers only the outermost shows
    obtain ⟨-, _, ahead, -, -, hahead⟩ := Tower.standard_eq_ok hv
    have hplain : plain ahead = plain t :=
      (congrArg plain (BlockView.of_wrap hahead)).symm.trans hp
    exact (Bare.seenThrough_of_wrap rfl (hplain ▸ BlockView.wrap_bare hahead)).symm

/-- Wrapping is refused for this cause, if there is one, and goes well if there is none. -/
def Went {σ τ : Type} (refusal : Option StoreError) (wrapped : Except (Refused σ) τ) : Prop :=
  match refusal with
  | some cause => ∃ s, wrapped = .error ⟨cause, s⟩
  | none => ∃ t, wrapped = .ok t

theorem went_of_size {σ τ : Type} {name : SizeName} {size : Nat} {closed : Bool}
    {wrapped : Except (Refused σ) τ}
    (hzero : ¬0 < size → ∃ s, wrapped = .error ⟨.argument (.zeroSize name), s⟩)
    (hclosed : 0 < size → closed = true → ∃ s, wrapped = .error ⟨.closed, s⟩)
    (hopen : 0 < size → closed = false → ∃ t, wrapped = .ok t) :
    Went (name.refusal? size closed) wrapped := by
  unfold SizeName.refusal?
  split
  case isTrue hz => exact hzero (Nat.not_lt.2 (Nat.le_of_eq hz))
  case isFalse hz =>
    have hpos := Nat.pos_of_ne_zero hz
    split
    case isTrue hc => exact hclosed hpos hc
    case isFalse hc => exact hopen hpos (Bool.not_eq_true _ ▸ hc)

theorem Went.ofWrapped {old new : List LayerKind} {refusal : Option StoreError}
    {wrapped : Except (Refused (Tower κ Memory old)) (Tower κ Memory new)}
    (hw : Went refusal wrapped) : Went refusal (ofWrapped old new wrapped) := by
  cases refusal with
  | some cause =>
    obtain ⟨t, rfl⟩ := hw
    exact ⟨_, rfl⟩
  | none =>
    obtain ⟨c, rfl⟩ := hw
    exact ⟨_, rfl⟩

theorem went_standard {t : AnyTower κ Memory} (ht : t.Clear) (sizes : Sizes) :
    Went ((LayerPlan.standard sizes).refusal? (plain t).closed)
      (Tower.standard sizes t.tower : Except _ (Tower κ Memory (standardKinds ++ t.kinds))) := by
  have h := Tower.tracks (κ := κ) clear_tracks t.kinds
  cases hcheck : sizes.check with
  | error cause =>
    rw [LayerPlan.refusal?, hcheck]
    exact ⟨t.tower, by simp only [Tower.standard, hcheck]⟩
  | ok _ =>
    rw [LayerPlan.refusal?, hcheck]
    cases hc : (plain t).closed with
    | true => exact Tower.exists_standard_closed (κ := κ) h id ht hcheck hc
    | false => exact Tower.exists_standard h id ht hcheck trivial hc

theorem went_wrap {t : AnyTower κ Memory} (ht : t.Clear) (plan : LayerPlan) :
    Went (plan.refusal? (plain t).closed) (t.wrap plan) := by
  have h := (contract (κ := κ) t.kinds).toReading
  cases plan with
  | readAhead size =>
    exact (went_of_size (fun hz => ⟨_, dif_neg hz⟩)
      (fun hpos hc => ReadAhead.exists_wrap_closed h id ht hc hpos)
      fun hpos ho => ReadAhead.exists_wrap h id ht ho hpos).ofWrapped
  | writeBehind size =>
    exact (went_of_size (fun hz => ⟨_, dif_neg hz⟩)
      (fun hpos hc => WriteBehind.exists_wrap_closed h id ht hc hpos)
      fun hpos ho => WriteBehind.exists_wrap h id ht ho hpos).ofWrapped
  | blocks size =>
    exact (went_of_size (fun hz => ⟨_, dif_neg hz⟩) (fun _ hc => Bool.noConfusion hc)
      fun hpos _ => ⟨_, dif_pos hpos⟩).ofWrapped
  | standard sizes => exact (went_standard ht sizes).ofWrapped

theorem mimics_wrapped {t : AnyTower κ Memory} (ht : t.Clear) (plan : LayerPlan) :
    Mimics Clear bare (wrapped plan) (Bare.wrapped plan) t := by
  have hwent := went_wrap ht plan
  cases hr : plan.refusal? (plain t).closed with
  | some cause =>
    rw [hr] at hwent
    obtain ⟨t', hw⟩ := hwent
    have hrun : (wrapped plan).run t = (.error cause, t) := by simp only [wrapped, hw]
    refine .of_run hrun ht ?_
    simp only [Bare.wrapped, run_bind, run_get, memory_bare, hr, run_throw]
  | none =>
    rw [hr] at hwent
    obtain ⟨t', hw⟩ := hwent
    obtain ⟨ht', hp⟩ := sound_of_wrap clear_tracks (fun _ _ _ => trivial) ht hw
    have hrun : (wrapped plan).run t = (.ok (), t') := by simp only [wrapped, hw]
    refine .of_run hrun ht' ?_
    simp only [Bare.wrapped, run_bind, run_get, memory_bare, hr, run_set, bare_of_wrap hw hp]

end AnyTower

section Run

variable {κ ω ς ρ : Type} [Audience κ ω] [Collector ς] [ByteSource ρ]

open AnyTower (Clear bare)

/-- One step of a run: the layers stay sound, and what is seen through them is what the step makes of
the byte string. -/
theorem Step.mimics_run {p : AnyTower κ Memory × ω} (hp : Beside Clear p) (step : Step κ ς ρ) :
    Mimics (Beside Clear) (beside bare) step.run step.runBare p := by
  cases step with
  | store call => exact (AnyTower.mimics_perform hp call).onFirst
  | blocks call => exact AnyTower.mimics_performOnBlocks hp call .noBlocks
  | invalidate depth =>
    have hbare := AnyTower.bare_dropWindow hp depth
    refine ⟨(Tower.sound_dropWindow depth hp).1, ?_⟩
    exact congrArg (fun b => (Except.ok Answer.done, b, p.2)) hbare.symm
  | wrap plan =>
    exact ((AnyTower.mimics_wrapped hp plan).bind fun _ _ ht => mimics_pure ht _).onFirst

/-- Over a byte string in memory layers cannot be told from none: every run, which may put layers on
at any time, is answered as the byte string by itself answers it, and the listeners hear the same. -/
theorem tower_transparent {m : Memory} (hm : m.Bounded) (world : ω) (steps : List (Step κ ς ρ)) :
    answers (steps.map Step.run) (AnyTower.ofMedium m, world) =
        answers (steps.map Step.runBare) (Bare.store m, world) ∧
      (leave (steps.map Step.run) (AnyTower.ofMedium m, world)).2 =
        (leave (steps.map Step.runBare) (Bare.store m, world)).2 := by
  have hclear : Beside Clear ((AnyTower.ofMedium m : AnyTower κ Memory), world) := hm
  obtain ⟨hanswers, hleave⟩ := answers_of_mimics (fun step _ hp => step.mimics_run hp) steps hclear
  exact ⟨hanswers, (congrArg Prod.snd hleave).symm⟩

end Run

def eight : Memory := { bytes := .ofOctets [1, 2, 3, 4, 5, 6, 7, 8], cursor := 9 }

/-- Layers come on before, between and after writes, one of them in vain. -/
def layering : List (Step String EndlessSink ThrottledSource) :=
  [.wrap (.writeBehind 4), .store (.write (.ofOctets [9, 9])), .wrap (.readAhead 0),
    .wrap (.standard { window := 3, buffer := 2, block := 2 }), .blocks (.addListener "all"),
    .blocks (.write 1 0 (.ofOctets [7, 7])), .blocks (.insert 1 2), .invalidate 1,
    .store (.seek 1), .store (.readExactly 20), .store (.seek 3),
    .store (.copyTo ⟨{ perCall := some 2, interrupts := true }, rfl, by decide, rfl⟩),
    .store (.copyFrom { data := .ofOctets [5, 6], perCall := some 1 }),
    .wrap (.blocks 5), .blocks (.delete 0 1), .store (.writeAt 2 (.ofOctets [8]))]

/-- The layers answer for the medium although they hold back from it what was written. -/
theorem tower_transparent_of_layering :
    eight.Bounded ∧
      Bytes.octets (leave ((layering.take 6).map Step.run)
        (AnyTower.ofMedium eight, ({} : Cast))).1.medium.bytes = [1, 2, 3, 4, 5, 6, 7, 8] ∧
      Bytes.octets (leave ((layering.take 6).map Step.runBare)
        (Bare.store eight, ({} : Cast))).1.memory.bytes = [1, 2, 7, 7, 5, 6, 7, 8, 0, 9, 9] ∧
      answers (layering.map Step.run) (AnyTower.ofMedium eight, ({} : Cast)) =
        answers (layering.map Step.runBare) (Bare.store eight, ({} : Cast)) ∧
      (leave (layering.map Step.run) (AnyTower.ofMedium eight, ({} : Cast))).2 =
        (leave (layering.map Step.runBare) (Bare.store eight, ({} : Cast))).2 := by
  have hbounded : eight.Bounded := by
    unfold Memory.Bounded
    decide
  refine ⟨hbounded, ?_, ?_, ?_⟩
  · decide +kernel
  · decide +kernel
  · exact tower_transparent hbounded ({} : Cast) layering

end ByteTower
