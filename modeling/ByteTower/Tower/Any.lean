import ByteTower.Tower.Standard

namespace ByteTower

/-- A tower of any layers over a medium of type `μ`. -/
structure AnyTower (κ μ : Type) where
  kinds : List LayerKind
  tower : Tower κ μ kinds

inductive LayerPlan
  | readAhead (windowSize : Nat)
  | writeBehind (capacity : Nat)
  | blocks (blockSize : Nat)
  | standard (sizes : Sizes)

namespace AnyTower

variable {κ μ α : Type}

def ofMedium (m : μ) : AnyTower κ μ := ⟨[], m⟩

def medium (t : AnyTower κ μ) : μ := t.tower.medium

def mapMedium (f : μ → μ) (t : AnyTower κ μ) : AnyTower κ μ := ⟨t.kinds, t.tower.mapMedium f⟩

/-- The tower that wrapping made of one with layers `old`, or that it left. -/
def ofWrapped (old new : List LayerKind) :
    Except (Refused (Tower κ μ old)) (Tower κ μ new) →
      Except (Refused (AnyTower κ μ)) (AnyTower κ μ)
  | .error refused => .error ⟨refused.cause, ⟨old, refused.store⟩⟩
  | .ok tower => .ok ⟨new, tower⟩

variable [Storage μ]

def wrap (plan : LayerPlan) (t : AnyTower κ μ) : Except (Refused (AnyTower κ μ)) (AnyTower κ μ) :=
  match plan with
  | .readAhead windowSize =>
    ofWrapped t.kinds (.readAhead :: t.kinds) (ReadAhead.wrap windowSize t.tower)
  | .writeBehind capacity =>
    ofWrapped t.kinds (.writeBehind :: t.kinds) (WriteBehind.wrap capacity t.tower)
  | .blocks blockSize => ofWrapped t.kinds (.blocks :: t.kinds) (BlockView.wrap blockSize t.tower)
  | .standard sizes =>
    ofWrapped t.kinds (standardKinds ++ t.kinds) (Tower.standard sizes t.tower)

def wrapAll (plans : List LayerPlan) (t : AnyTower κ μ) :
    Except (Refused (AnyTower κ μ)) (AnyTower κ μ) :=
  plans.foldlM (fun t plan => t.wrap plan) t

def perform (act : {σ : Type} → [Storage σ] → StoreM σ α) : StoreM (AnyTower κ μ) α :=
  .ofRun fun t =>
    let (result, tower) := (act : StoreM (Tower κ μ t.kinds) α).run t.tower
    (result, ⟨t.kinds, tower⟩)

def release (t : AnyTower κ μ) : μ := (Storage.release t.tower).medium

end AnyTower

end ByteTower
