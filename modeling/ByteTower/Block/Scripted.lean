import ByteTower.Block.Listener

namespace ByteTower

inductive Objection
  | io
  | closed
  | argument
  | range
deriving DecidableEq

def Objection.error (name : String) : Objection → StoreError
  | io => .io (.reported .other "injected listener failure")
  | closed => .closed
  | argument => .argument (.rejected s!"rejected by {name}")
  | range => .range (.rejected s!"rejected by {name}")

/-- What a listener does when it hears of a change. -/
structure Script where
  /-- How it fails, if it ever does. -/
  objection : Option Objection := none
  /-- The changes that it still takes before it fails. -/
  grace : Nat := 0

structure Cast where
  scripts : List (String × Script) := []
  /-- The changes heard and by whom, the latest first. -/
  heard : List (String × Change) := []

namespace Cast

def enlist (c : Cast) (name : String) (script : Script) : Cast :=
  match c.scripts.lookup name with
  | some _ => c
  | none => { c with scripts := (name, script) :: c.scripts }

def setScript (c : Cast) (name : String) (script : Script) : Cast :=
  { c with scripts := (name, script) :: c.scripts.filter (·.1 != name) }

def hear (name : String) (change : Change) : StoreM Cast Unit := do
  modify fun c => { c with heard := (name, change) :: c.heard }
  let c ← get
  match c.scripts.lookup name with
  | some { objection := some objection, grace := 0 } => throw (objection.error name)
  | some { objection := some objection, grace := grace + 1 } =>
    set (c.setScript name { objection, grace })
  | _ => return ()

instance : Audience String Cast := ⟨hear⟩

end Cast

end ByteTower
