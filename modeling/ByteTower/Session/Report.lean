import ByteTower.Medium.Basic
import ByteTower.Tower.Any

namespace ByteTower

/-- What the kinds of layers and of media have to show of themselves. -/
inductive LayerDetail
  | memory (bytes : Bytes)
  | probe (bytes : Bytes)
  /-- A file, or a directory opened like one. -/
  | file
  | writeBehind (capacity : Nat) (pending : Option Region)
  | readAhead (windowSize hits misses : Nat) (window : Option Region)
  | blocks (blockSize : Nat) (count : Except StoreError Nat) (maxCount listeners : Nat)

/-- What an onlooker sees of a layer. To look is not to call: a probe neither notes it nor fails. -/
structure LayerReport where
  detail : LayerDetail
  length : Except StoreError Nat
  cursor : Except StoreError Nat
  closed : Bool

def LayerReport.ofStore {σ : Type} [Storage σ] (detail : LayerDetail) (s : σ) : LayerReport :=
  { detail
    length := ((Storage.length : StoreM σ Nat).run s).1
    cursor := ((Storage.cursor : StoreM σ Nat).run s).1
    closed := Storage.isClosed s }

namespace Medium

def detail : Medium → LayerDetail
  | memory m => .memory m.bytes
  | probe p => .probe p.memory.bytes
  | file _ => .file
  | directory _ => .file

def heal : Medium → Medium
  | probe p => probe p.heal
  | m => m

end Medium

namespace Tower

variable {κ : Type}

def detail : {kinds : List LayerKind} → Tower κ Medium kinds → LayerDetail
  | [], m => Medium.detail m
  | .readAhead :: _, c => .readAhead c.windowSize c.hits c.misses c.window.region?
  | .writeBehind :: _, c => .writeBehind c.capacity (c.pending.map Extent.region)
  | .blocks :: kinds, v =>
    .blocks v.blockSize
      ((BlockView.blockCount : StoreM (BlockView κ (Tower κ Medium kinds)) Nat).run v).1
      v.maxBlockCount v.register.size

def reportHealed : {kinds : List LayerKind} → Tower κ Medium kinds → List LayerReport
  | [], m => [.ofStore m.detail m]
  | .readAhead :: kinds, c =>
    .ofStore (detail c) (show Tower κ Medium (.readAhead :: kinds) from c) :: reportHealed c.inner
  | .writeBehind :: kinds, c =>
    .ofStore (detail c) (show Tower κ Medium (.writeBehind :: kinds) from c) ::
      reportHealed c.inner
  | .blocks :: kinds, v =>
    .ofStore (detail v) (show Tower κ Medium (.blocks :: kinds) from v) :: reportHealed v.inner

def report {kinds : List LayerKind} (t : Tower κ Medium kinds) : List LayerReport :=
  reportHealed (t.mapMedium Medium.heal)

end Tower

end ByteTower
