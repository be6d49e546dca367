import ByteTower.Medium.DirectoryHandle
import ByteTower.Medium.File
import ByteTower.Medium.Memory
import ByteTower.Medium.Probe

namespace ByteTower

inductive Medium
  | memory (m : Memory)
  | file (f : FileHandle)
  | directory (h : DirectoryHandle)
  | probe (p : Probe)

namespace Medium

def perform {α : Type} (act : {σ : Type} → [Storage σ] → StoreM σ α) : StoreM Medium α :=
  .ofRun fun
    | memory m =>
      let (result, m) := (act : StoreM Memory α).run m
      (result, memory m)
    | file f =>
      let (result, f) := (act : StoreM FileHandle α).run f
      (result, file f)
    | directory h =>
      let (result, h) := (act : StoreM DirectoryHandle α).run h
      (result, directory h)
    | probe p =>
      let (result, p) := (act : StoreM Probe α).run p
      (result, probe p)

instance : Storage Medium where
  length := perform Storage.length
  resize length := perform (Storage.resize length)
  cursor := perform Storage.cursor
  seek pos := perform (Storage.seek pos)
  read n := perform (Storage.read n)
  write data := perform (Storage.write data)
  flush := perform Storage.flush
  close := perform Storage.close
  isClosed
    | memory m => Storage.isClosed m
    | file f => Storage.isClosed f
    | directory h => Storage.isClosed h
    | probe p => Storage.isClosed p
  release := id

end Medium

end ByteTower
