import ByteTower.Proofs.Keeping
import ByteTower.Proofs.Transparency

namespace ByteTower

open StoreM

/-- What is done next in a run. Other than the steps, a single read may give more or less, by what the
layers are. -/
inductive Action (κ ς ρ : Type)
  | step (next : Step κ ς ρ)
  | read (n : Nat)

namespace Action

variable {κ ω ς ρ μ : Type} [Audience κ ω] [Collector ς] [ByteSource ρ] [Storage μ]

def run : Action κ ς ρ → StoreM (AnyTower κ μ × ω) Unit
  | step next => (fun _ => ()) <$> next.run
  | read n => (fun _ => ()) <$> onFirst (AnyTower.perform (Storage.read n))

end Action

section Invariant

variable {κ μ : Type} [Storage μ]

/-- A predicate on towers that calls, dropped windows and further layers keep, and of which a view of
blocks has no part. -/
structure Tower.Invariant (P : (kinds : List LayerKind) → Tower κ μ kinds → Prop) : Prop where
  kept : ∀ kinds, Kept (P kinds)
  blocks : ∀ {kinds : List LayerKind} (v : BlockView κ (Tower κ μ kinds)),
    P (.blocks :: kinds) v ↔ P kinds v.inner
  dropWindow : ∀ {kinds : List LayerKind} (depth : Nat) {t : Tower κ μ kinds},
    P kinds t → P kinds (t.dropWindow depth)
  wrap : ∀ {plan : LayerPlan} {t t' : AnyTower κ μ},
    P t.kinds t.tower → t.wrap plan = .ok t' → P t'.kinds t'.tower

namespace Tower.Invariant

variable {P : (kinds : List LayerKind) → Tower κ μ kinds → Prop} (h : Invariant P)
variable {ω ς ρ : Type} [Audience κ ω] [Collector ς] [ByteSource ρ]

abbrev Holds (P : (kinds : List LayerKind) → Tower κ μ kinds → Prop) (t : AnyTower κ μ) : Prop :=
  P t.kinds t.tower

include h

theorem step {p : AnyTower κ μ × ω} (hp : Beside (Holds P) p) (step : Step κ ς ρ) :
    step.run.Ends (Beside (Holds P)) p := by
  cases step with
  | store call =>
    have hcall := ends_iff.1 ((h.kept p.1.kinds).storeCall hp call)
    exact ends_iff.2 hcall
  | blocks call =>
    obtain ⟨⟨_ | ⟨_ | _ | _, kinds⟩, tower⟩, world⟩ := p
    case nil => exact hp
    case cons.readAhead => exact hp
    case cons.writeBehind => exact hp
    case cons.blocks =>
      have hv : Beside (BlockView.Over (P kinds)) (tower, world) := (h.blocks tower).1 hp
      have hcall := ends_iff.1 ((h.kept kinds).blockCall (ρ := ρ) hv call)
      exact ends_iff.2 ((h.blocks _).2 hcall)
  | invalidate depth => exact h.dropWindow depth hp
  | wrap plan =>
    have hwrapped : (AnyTower.wrapped plan).Ends (Holds P) p.1 := by
      apply ends_iff.2
      unfold AnyTower.wrapped
      dsimp only
      split
      case h_1 t' hw => exact h.wrap hp hw
      case h_2 => exact hp
    have hstep : (do AnyTower.wrapped plan; return Answer.done : StoreM _ (Answer ρ)).Ends (Holds P)
        p.1 :=
      hwrapped.bind fun _ _ ht => meets_pure ht
    exact hstep.onFirst

theorem action {p : AnyTower κ μ × ω} (hp : Beside (Holds P) p) (action : Action κ ς ρ) :
    Beside (Holds P) (action.run.run p).2 := by
  cases action with
  | step next =>
    rw [Action.run, run_map]
    exact ends_iff.1 (h.step hp next)
  | read n =>
    have hread := (h.kept p.1.kinds).read n p.1.tower hp
    rw [Action.run, run_map]
    exact hread

theorem leave {p : AnyTower κ μ × ω} (hp : Beside (Holds P) p) (actions : List (Action κ ς ρ)) :
    Beside (Holds P) (leave (actions.map Action.run) p) := by
  refine leave_of_step ?_ hp
  intro act hact q hq
  obtain ⟨action, -, rfl⟩ := List.mem_map.1 hact
  exact h.action hq action

end Tower.Invariant

end Invariant

theorem Tower.Sound.good_medium {κ μ : Type} [Meaning μ] {Good : μ → Prop} :
    ∀ {kinds : List LayerKind} {t : Tower κ μ kinds},
      Tower.Sound (fun _ _ => True) (fun _ => Good) kinds 0 t → Good t.medium
  | [], _, ht => ht
  | .readAhead :: _, c, ⟨_, hsound⟩ => good_medium (t := c.inner) hsound.inner
  | .writeBehind :: _, c, ⟨_, hbehind⟩ => good_medium (t := c.inner) hbehind.sound.inner
  | .blocks :: _, v, hv => good_medium (t := v.inner) hv

namespace AnyTower

variable {κ μ : Type} [Storage μ] [Meaning μ] {f : Failures} {Good : μ → Prop}

/-- A tower over a good medium whose layers are all sound. -/
abbrev Intact (Good : μ → Prop) (t : AnyTower κ μ) : Prop :=
  Tower.Invariant.Holds (Tower.Sound (fun _ _ => True) (fun _ => Good) · 0) t

theorem contract_of_medium (h : Contract f Good) (kinds : List LayerKind) :
    Contract f (Tower.Sound (κ := κ) (fun _ _ => True) (fun _ => Good) kinds 0) :=
  (Tower.tracks h.unversioned kinds).contract 0

theorem invariant (h : Contract f Good) :
    Tower.Invariant (κ := κ) (Tower.Sound (fun _ _ => True) (fun _ => Good) · 0) where
  kept kinds := (contract_of_medium h kinds).kept
  blocks _ := Iff.rfl
  dropWindow depth _ ht := (Tower.sound_dropWindow depth ht).1
  wrap ht hw := (sound_of_wrap h.unversioned (fun _ _ _ => trivial) ht hw).1

/-- Whatever fails in it, a run from a good medium leaves a tower whose layers are all sound. -/
theorem intact_leave {ω ς ρ : Type} [Audience κ ω] [Collector ς] [ByteSource ρ]
    (h : Contract f Good) {m : μ} (hm : Good m) (world : ω) (actions : List (Action κ ς ρ)) :
    (leave (actions.map Action.run) (ofMedium m, world)).1.Intact Good :=
  (invariant h).leave (p := (ofMedium m, world)) hm actions

section Leave

variable {ω ς ρ : Type} [Audience κ ω] [Collector ς] [ByteSource ρ] (h : Contract f Good)
variable {m : μ} (hm : Good m) (world : ω) (actions : List (Action κ ς ρ)) {t : AnyTower κ μ}
variable (ht : t = (leave (actions.map Action.run) (ofMedium m, world)).1)

include h hm ht

theorem intact_of_leave : t.Intact Good := ht ▸ intact_leave h hm world actions

theorem good_medium_leave : Good t.medium := (intact_of_leave h hm world actions ht).good_medium

end Leave

end AnyTower

end ByteTower
