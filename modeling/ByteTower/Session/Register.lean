import ByteTower.Session.Command

namespace ByteTower

inductive RegisterCommand
  | add (name : String) (script : Script)
  | erase (id : Nat)
  /-- Tells the listeners until one fails. -/
  | notify (change : Change)
  | notifyEach (change : Change)

structure RegisterInspection where
  reply : Reply
  register : Register String
  /-- The changes that listeners heard of since the last inspection. -/
  events : List (String × Change)

namespace RegisterCommand

def run : RegisterCommand → StoreM (Register String × Cast) Reply
  | add name script => do
    let (r, cast) ← get
    let (id, r) := r.add name
    set (r, cast.enlist name script)
    return .number id
  | erase id => do
    let (r, cast) ← get
    set (r.erase id, cast)
    return .flag (r.contains id)
  | notify change => do
    let (r, _) ← get
    StoreM.onSecond (r.notify change)
    return .done
  | notifyEach change => do
    let (r, _) ← get
    return .outcomes (← StoreM.onSecond (r.notifyEach change))

def runFrom (state : Register String × Cast) : List RegisterCommand → List RegisterInspection
  | [] => []
  | command :: rest =>
    let (result, register, cast) := command.run.run state
    { reply := .ofResult result, register, events := cast.heard.reverse } ::
      runFrom (register, { cast with heard := [] }) rest

def runAll (commands : List RegisterCommand) : List RegisterInspection :=
  runFrom ({}, {}) commands

end RegisterCommand

end ByteTower
