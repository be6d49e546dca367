import ByteTower.Session.Perform
import ByteTower.Session.Report

namespace ByteTower

/-- Towers built, used and let go of, one at a time, over a directory of files. -/
structure Session where
  tower : Option (AnyTower String Medium) := none
  /-- The newest probe, if no tower stands on it any more. -/
  retired : Option Probe := none
  directory : Directory := {}
  /-- The listeners of all block layers. -/
  cast : Cast := {}

structure Inspection where
  reply : Reply
  /-- The layers of the tower, if there is one. -/
  layers : Option (List LayerReport)
  /-- What the newest probe holds, if no tower stands on anything. -/
  left : Option Bytes
  /-- The calls that the newest probe noted since the last inspection. -/
  calls : List Traffic
  /-- The changes that listeners heard of since the last inspection. -/
  events : List (String × Change)
  directory : Directory

namespace Session

abbrev SessionM := StateM Session

/-- Keeps what outlasts a tower over this medium. -/
def retire (m : Medium) (s : Session) : Session :=
  match m with
  | .memory _ => s
  | .file f => { s with directory := s.directory.put f.name f.bytes }
  | .directory _ => s
  | .probe p => { s with retired := some p }

def drop (s : Session) : Session :=
  match s.tower with
  | none => s
  | some t => retire t.release { s with tower := none }

def openIn (d : Directory) (mode : Directory.OpenMode) (path : String) :
    Except StoreError (Medium × Directory) :=
  match d.openFile mode (Path.inside path) with
  | .error cause => .error (.io cause)
  | .ok (f, d) => .ok (.file f, d)

def openReadOnlyIn (d : Directory) (path : String) : Except StoreError Medium :=
  match d.openReadOnly (Path.inside path) with
  | .error cause => .error (.io cause)
  | .ok (.inl h) => .ok (.directory h)
  | .ok (.inr f) => .ok (.file f)

/-- Lays a foundation in a directory. The sizes of a standard tower are checked before its file is
opened. -/
def lay (foundation : Foundation) (d : Directory) : Except StoreError (Medium × Directory) :=
  match foundation with
  | .memory data => .ok (.memory (.ofBytes data), d)
  | .probe data limit maxRead =>
    let plain : Probe := { memory := .ofBytes data, maxRead }
    .ok (.probe { plain with limit := limit.getD plain.limit }, d)
  | .file mode path => openIn d mode path
  | .readOnly path => return (← openReadOnlyIn d path, d)
  | .standardFile sizes path => do
    sizes.check
    openIn d .update path

def layersOf : Foundation → List LayerPlan
  | .standardFile sizes _ => [.standard sizes]
  | _ => []

/-- Makes a tower the current one; one that could not be finished is let go of. -/
def adopt (result : Except (Refused (AnyTower String Medium)) (AnyTower String Medium)) :
    SessionM Reply := do
  match result with
  | .ok tower =>
    modify fun s => { s with tower }
    return .done
  | .error refused =>
    modify fun s => retire refused.store.release { s with tower := none }
    return .failed refused.cause

def build (foundation : Foundation) (layers : List LayerPlan) : SessionM Reply := do
  modify drop
  match lay foundation (← get).directory with
  | .error cause => return .failed cause
  | .ok (m, directory) =>
    modify fun s => { s with directory }
    adopt (AnyTower.wrapAll (layersOf foundation ++ layers) (.ofMedium m))

def wrap (layer : LayerPlan) : SessionM Reply := do
  match (← get).tower with
  | none => return .noStore
  | some t => adopt (t.wrap layer)

def unwrap : SessionM Reply := do
  match (← get).tower with
  | none => return .noStore
  | some ⟨.readAhead :: kinds, c⟩ =>
    modify fun s => { s with tower := some ⟨kinds, c.inner⟩ }
    return .done
  | some ⟨.blocks :: kinds, v⟩ =>
    modify fun s => { s with tower := some ⟨kinds, v.inner⟩ }
    return .done
  | some ⟨[], .memory m⟩ =>
    modify fun s => { s with tower := none }
    return .data m.bytes
  | some _ => return .notSupported

def probe? (s : Session) : Option Probe :=
  match s.tower.map AnyTower.medium with
  | some (.probe p) => some p
  | _ => s.retired

def mapProbe (f : Probe → Probe) (s : Session) : Session :=
  match s.tower.map AnyTower.medium with
  | some (.probe p) =>
    { s with tower := s.tower.map (·.mapMedium fun _ => .probe (f p)) }
  | _ => { s with retired := s.retired.map f }

/-- Changes a file from outside. A handle on it does not notice. -/
def mapFile (name : String) (f : Bytes → Bytes) (s : Session) : Session :=
  let bytes := f ((s.directory.find? name).getD ByteArray.empty)
  let touch : Medium → Medium
    | .file h => .file (if h.name = name then { h with bytes } else h)
    | m => m
  { s with directory := s.directory.put name bytes, tower := s.tower.map (·.mapMedium touch) }

def alterFile (path : String) (f : Bytes → Bytes) : SessionM Reply := do
  match (← get).directory.openFile .update (Path.inside path) with
  | .error cause => return .failed (.io cause)
  | .ok (file, _) =>
    modify (mapFile file.name f)
    return .done

def run (command : Command) : SessionM Reply := do
  match command with
  | .build foundation layers => build foundation layers
  | .wrap layer => wrap layer
  | .unwrap => unwrap
  | .drop =>
    modify drop
    return .done
  | .store command =>
    match (← get).tower with
    | none => return .noStore
    | some t =>
      let (result, tower) := (AnyTower.perform command.run).run t
      modify fun s => { s with tower }
      return .ofResult result
  | .blocks command =>
    match ← get with
    | { tower := none, .. } => return .noStore
    | { tower := some ⟨.blocks :: kinds, v⟩, cast, .. } =>
      let (result, v, cast) := command.run.run (v, cast)
      modify fun s => { s with tower := some ⟨.blocks :: kinds, v⟩, cast }
      return .ofResult result
    | _ => return .notSupported
  | .invalidate =>
    match (← get).tower with
    | none => return .noStore
    | some ⟨.readAhead :: kinds, c⟩ =>
      modify fun s => { s with tower := some ⟨.readAhead :: kinds, c.invalidate⟩ }
      return .done
    | some _ => return .notSupported
  | .path =>
    match (← get).tower with
    | none => return .noStore
    | some ⟨[], .file f⟩ => return .text f.name
    | some ⟨[], .directory _⟩ => return .done
    | some _ => return .notSupported
  | .setFault call fault =>
    modify (mapProbe (·.setFault call fault))
    return .done
  | .heal =>
    modify (mapProbe Probe.heal)
    return .done
  | .tune limit maxRead =>
    modify (mapProbe fun p =>
      { p with limit := limit.getD p.limit, maxRead := maxRead.getD p.maxRead })
    return .done
  | .writeFile path data => alterFile path fun _ => data
  | .resizeFile path length => alterFile path (·.resize length)

def files (s : Session) : Directory :=
  match s.tower.map AnyTower.medium with
  | some (.file f) => s.directory.put f.name f.bytes
  | _ => s.directory

/-- Runs a command and has a look at the session. What was noted up to then is not shown again. -/
def step (command : Command) : SessionM Inspection := do
  let reply ← run command
  let s ← get
  set { mapProbe (fun p => { p with traffic := [] }) s with
    directory := s.files, cast := { s.cast with heard := [] } }
  return {
    reply
    layers := s.tower.map (·.tower.report)
    left := if s.tower.isNone then s.retired.map (·.memory.bytes) else none
    calls := (s.probe?.map (·.traffic.reverse)).getD []
    events := s.cast.heard.reverse
    directory := s.files }

def runAll (directory : Directory) (commands : List Command) : List Inspection :=
  ((commands.mapM step).run { directory }).1

end Session

end ByteTower
