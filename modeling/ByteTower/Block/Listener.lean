import ByteTower.Store.Basic

namespace ByteTower

/-- What happened to the blocks of a store. -/
inductive Change
  /-- Blocks were inserted; the former block `index + k` is now block `index + count + k`. -/
  | inserted (index count : Nat)
  /-- Blocks were deleted; the former block `index + count + k` is now block `index + k`. -/
  | deleted (index count : Nat)
deriving DecidableEq

/-- Listeners of type `κ`, which live in a world of type `ω`. A listener may fail. -/
class Audience (κ : Type) (ω : outParam Type) where
  hear : κ → Change → StoreM ω Unit

/-- Listeners in the order in which they registered. A listener may register more than once. Each
registration has a number that no other one ever had. -/
structure Register (κ : Type) where
  entries : List (Nat × κ) := []
  /-- The number of the next registration. -/
  next : Nat := 0

namespace Register

variable {κ ω : Type}

def listeners (r : Register κ) : List κ := r.entries.map Prod.snd

def ids (r : Register κ) : List Nat := r.entries.map Prod.fst

def size (r : Register κ) : Nat := r.entries.length

def isEmpty (r : Register κ) : Bool := r.entries.isEmpty

def contains (r : Register κ) (id : Nat) : Bool := r.ids.contains id

def add (r : Register κ) (listener : κ) : Nat × Register κ :=
  (r.next, { entries := r.entries ++ [(r.next, listener)], next := r.next + 1 })

def erase (r : Register κ) (id : Nat) : Register κ :=
  { r with entries := r.entries.eraseP fun entry => entry.1 == id }

/-- Tells the listeners of a change, one after the other, until one fails. -/
def notify [Audience κ ω] (r : Register κ) (change : Change) : StoreM ω Unit :=
  r.listeners.forM fun listener => Audience.hear listener change

/-- Tells every listener of a change, whether others fail or not. Yields how each of them took
it. -/
def notifyEach [Audience κ ω] (r : Register κ) (change : Change) :
    StoreM ω (List (Except StoreError Unit)) :=
  r.listeners.mapM fun listener => (Audience.hear listener change).attempt

def describe (r : Register κ) : String :=
  "ListenerSet \x7b ids: [" ++
    ", ".intercalate (r.ids.map fun id => s!"ListenerId({id})") ++ "] \x7d"

end Register

end ByteTower
