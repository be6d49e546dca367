import ByteTower.Tower.Basic

namespace ByteTower

structure Sizes where
  /-- The most bytes that a read-ahead fetch asks for. -/
  window : Nat := 512
  /-- The most bytes that write-behind holds back. -/
  buffer : Nat := 4096
  block : Nat := 512
deriving DecidableEq

/-- Refuses a size of zero, the window's before the buffer's before the block's. -/
def Sizes.check (s : Sizes) : Except StoreError Unit :=
  if s.window = 0 then .error (.argument (.zeroSize .window))
  else if s.buffer = 0 then .error (.argument (.zeroSize .buffer))
  else if s.block = 0 then .error (.argument (.zeroSize .block))
  else .ok ()

def standardKinds : List LayerKind := [.blocks, .readAhead, .writeBehind]

/-- Builds the tower for those who ask for nothing else: blocks over read-ahead over write-behind. -/
def Tower.standard {κ σ : Type} [Storage σ] (sizes : Sizes) (store : σ) :
    Except (Refused σ) (Tower κ σ standardKinds) :=
  match sizes.check with
  | .error cause => .error ⟨cause, store⟩
  | .ok () =>
    match WriteBehind.wrap sizes.buffer store with
    | .error refused => .error refused
    | .ok behind =>
      match ReadAhead.wrap sizes.window behind with
      | .error refused => .error ⟨refused.cause, refused.store.inner⟩
      | .ok ahead =>
        match BlockView.wrap sizes.block ahead with
        | .error refused => .error ⟨refused.cause, refused.store.inner.inner⟩
        | .ok view => .ok view

end ByteTower
