import ByteTower.Block.View
import ByteTower.Layer.ReadAhead
import ByteTower.Layer.WriteBehind

namespace ByteTower

inductive LayerKind
  | readAhead
  | writeBehind
  | blocks
deriving DecidableEq

/-- A medium of type `μ` under layers of these kinds, the outermost first. Block layers have listeners of
type `κ`. A tower is again a store. -/
def Tower (κ μ : Type) : List LayerKind → Type
  | [] => μ
  | .readAhead :: kinds => ReadAhead (Tower κ μ kinds)
  | .writeBehind :: kinds => WriteBehind (Tower κ μ kinds)
  | .blocks :: kinds => BlockView κ (Tower κ μ kinds)

namespace Tower

variable {κ μ : Type}

instance storage [Storage μ] : (kinds : List LayerKind) → Storage (Tower κ μ kinds)
  | [] => inferInstanceAs (Storage μ)
  | .readAhead :: kinds =>
    letI : Storage (Tower κ μ kinds) := storage kinds
    inferInstanceAs (Storage (ReadAhead (Tower κ μ kinds)))
  | .writeBehind :: kinds =>
    letI : Storage (Tower κ μ kinds) := storage kinds
    inferInstanceAs (Storage (WriteBehind (Tower κ μ kinds)))
  | .blocks :: kinds =>
    letI : Storage (Tower κ μ kinds) := storage kinds
    inferInstanceAs (Storage (BlockView κ (Tower κ μ kinds)))

def medium : {kinds : List LayerKind} → Tower κ μ kinds → μ
  | [], m => m
  | .readAhead :: _, c => medium c.inner
  | .writeBehind :: _, c => medium c.inner
  | .blocks :: _, v => medium v.inner

/-- Changes the medium without asking the layers. -/
def mapMedium (f : μ → μ) : {kinds : List LayerKind} → Tower κ μ kinds → Tower κ μ kinds
  | [], m => f m
  | .readAhead :: _, c => { c with inner := mapMedium f c.inner }
  | .writeBehind :: _, c => { c with inner := mapMedium f c.inner }
  | .blocks :: _, v => { v with inner := mapMedium f v.inner }

end Tower

end ByteTower
