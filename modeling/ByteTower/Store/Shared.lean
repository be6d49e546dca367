import ByteTower.Store.Basic

namespace ByteTower

/-- A store and the handles on it that were ever made, by number. A handle lives until it is dropped or
gives the store back. -/
structure Shared (σ : Type) where
  store : σ
  /-- Which handles live. -/
  live : List Bool := [true]

namespace Shared

variable {σ α : Type}

def isLive (s : Shared σ) (handle : Nat) : Bool := s.live.getD handle false

def liveCount (s : Shared σ) : Nat := s.live.count true

def clone (handle : Nat) (s : Shared σ) : Option (Nat × Shared σ) :=
  if s.isLive handle then some (s.live.length, { s with live := s.live ++ [true] }) else none

def drop (handle : Nat) (s : Shared σ) : Option (Shared σ) :=
  if s.isLive handle then some { s with live := s.live.set handle false } else none

def through (handle : Nat) (act : StoreM σ α) (s : Shared σ) :
    Option (Except StoreError α × Shared σ) :=
  if s.isLive handle then
    let (result, store) := act.run s.store
    some (result, { s with store })
  else none

/-- Gives the store back if the live handle is the last one, which ends it. -/
def reclaim (handle : Nat) (s : Shared σ) : Option (Option σ × Shared σ) :=
  if s.isLive handle then
    if s.liveCount = 1 then some (some s.store, { s with live := s.live.set handle false })
    else some (none, s)
  else none

end Shared

end ByteTower
