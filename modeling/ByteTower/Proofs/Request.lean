import ByteTower.Proofs.Memory

namespace ByteTower

open StoreM

inductive Mutation
  | write (pos : Nat) (data : Bytes)
  | resize (n : Nat)

def Mutation.apply (b : Bytes) : Mutation → Bytes
  | write pos data => b.put pos data
  | resize n => b.resize n

inductive Request
  | length
  | resize (n : Nat)
  | cursor
  | seek (pos : Nat)
  | read (n : Nat)
  | write (data : Bytes)
  | flush
  | close

inductive Response
  | number (n : Nat)
  | nothing
  | given (result : ReadResult)

namespace Request

section Run

variable {σ : Type} [Storage σ]

def run : Request → StoreM σ Response
  | length => .number <$> Storage.length
  | resize n => (fun _ => .nothing) <$> Storage.resize n
  | cursor => .number <$> Storage.cursor
  | seek pos => (fun _ => .nothing) <$> Storage.seek pos
  | read n => .given <$> Storage.read n
  | write data => (fun _ => .nothing) <$> Storage.write data
  | flush => (fun _ => .nothing) <$> Storage.flush
  | close => (fun _ => .nothing) <$> Storage.close

end Run

/-- The change that a request makes at the cursor if it succeeds. -/
def mutation? (pos : Nat) : Request → Option Mutation
  | resize n => some (.resize n)
  | write data => some (.write pos data)
  | _ => none

def effect (r : Request) (pos : Nat) (b : Bytes) : Bytes :=
  match r.mutation? pos with
  | none => b
  | some m => m.apply b

def loss (f : Failures) : Request → Memory → Memory → Prop
  | write data => f.Tears data
  | _ => f.Spares

def models (f : Failures) : Request → StoreM Memory Response → Prop
  | read n => fun model => ∃ k ≤ n, (f.occur ∨ n = 0 ∨ 0 < k) ∧ model = (read k).run
  | r => Eq r.run

theorem meets_effect {f : Failures} {r : Request} {model : StoreM Memory Response}
    (hmodel : r.models f model) (m : Memory) :
    model.Meets m (fun _ t => t.bytes = r.effect m.cursor m.bytes) fun _ t => t.bytes = m.bytes := by
  cases r with
  | length =>
    obtain rfl := hmodel
    exact Meets.map (Memory.keeps_length (p := fun b => b = m.bytes) rfl)
  | resize n =>
    obtain rfl := hmodel
    exact Meets.map ((Memory.effect_resize m n).imp_error fun _ _ ht => ht ▸ rfl)
  | cursor =>
    obtain rfl := hmodel
    exact Meets.map (Memory.keeps_cursor (p := fun b => b = m.bytes) rfl)
  | seek pos =>
    obtain rfl := hmodel
    exact Meets.map (Memory.keeps_seek (p := fun b => b = m.bytes) rfl pos)
  | read n =>
    obtain ⟨k, -, -, rfl⟩ := hmodel
    exact Meets.map (Memory.keeps_read (p := fun b => b = m.bytes) rfl k)
  | write data =>
    obtain rfl := hmodel
    exact Meets.map ((Memory.effect_write m data).imp (fun _ _ ht => ht.1) fun _ _ ht => ht ▸ rfl)
  | flush =>
    obtain rfl := hmodel
    exact Meets.map (Memory.keeps_flush (p := fun b => b = m.bytes) rfl)
  | close =>
    obtain rfl := hmodel
    exact Meets.map (Memory.keeps_close (p := fun b => b = m.bytes) rfl)

variable {σ : Type} [Storage σ] [Meaning σ] {f : Failures} {v : Nat → Bytes → Prop}
variable {Good : Nat → σ → Prop}

theorem follows (h : Tracks f v Good) {i j : Nat} (hij : i ≤ j) {s : σ} (hs : Good i s)
    (r : Request) :
    Follows f (Good i) (fun t => v j (plain t).bytes → Good j t) (r.loss f) r.run (r.models f) s := by
  -- a request that changes no byte leaves the store as good as it was, at the later version too
  have hstill := (h.writing i j hij).still
  cases r with
  | length =>
    exact (((h.reading i).length s hs).imp (fun _ ht => ht) hstill).map (by rintro _ rfl; rfl)
  | resize n => exact ((h.writing i j hij).resize n s hs).map (by rintro _ rfl; rfl)
  | cursor =>
    exact (((h.reading i).cursor s hs).imp (fun _ ht => ht) hstill).map (by rintro _ rfl; rfl)
  | seek pos =>
    exact (((h.reading i).seek pos s hs).imp (fun _ ht => ht) hstill).map (by rintro _ rfl; rfl)
  | read n =>
    refine (((h.reading i).read n s hs).imp (fun _ ht => ht) hstill).map ?_
    rintro _ ⟨k, hk, hpos, rfl⟩
    exact ⟨k, hk, hpos, rfl⟩
  | write data => exact ((h.writing i j hij).write data s hs).map (by rintro _ rfl; rfl)
  | flush =>
    exact (((h.reading i).flush s hs).imp (fun _ ht => ht) hstill).map (by rintro _ rfl; rfl)
  | close =>
    exact (((h.reading i).close s hs).imp (fun _ ht => ht) hstill).map (by rintro _ rfl; rfl)

theorem bytes_of_loss {r : Request} {m m' : Memory} (h : r.loss f m m') :
    m'.bytes = m.bytes ∨ ∃ data, r = .write data ∧ f.Tears data m m' := by
  cases r with
  | write data => exact Or.inr ⟨data, rfl, h⟩
  | length | resize | cursor | seek | read | flush | close => exact Or.inl h.1

/-- One request: the store moves on to the version that the change brings, if the request succeeds,
and keeps its own if it fails. -/
theorem meets_run (h : Tracks f v Good) {i j : Nat} (hij : i ≤ j) {s : σ} (hs : Good i s)
    (r : Request) :
    r.run.Meets s
      (fun _ t => (v j (plain t).bytes → Good j t) ∧
        (plain t).bytes = r.effect (plain s).cursor (plain s).bytes)
      fun _ t => Good i t ∧ ((plain t).bytes = (plain s).bytes ∨
        ∃ data, r = .write data ∧ f.Tears data (plain s) (plain t)) := by
  apply Meets.imp (follows h hij hs r)
  · rintro a t ⟨ht, model, hmodel, hrun⟩
    exact ⟨ht, (meets_effect hmodel _).of_run_ok hrun⟩
  · rintro e t ⟨ht, ⟨model, hmodel, hrun⟩ | ⟨-, hloss⟩⟩
    · exact ⟨ht, Or.inl ((meets_effect hmodel _).of_run_error hrun)⟩
    · exact ⟨ht, bytes_of_loss hloss⟩

theorem bytes_leave {Good : σ → Prop} (h : Contract f Good) {s : σ} (hs : Good s)
    {requests : List Request} (hstill : ∀ r ∈ requests, ∀ pos, r.mutation? pos = none) :
    let t := leave (requests.map run) s
    Good t ∧ (plain t).bytes = (plain s).bytes := by
  refine leave_of_step (p := fun t => Good t ∧ (plain t).bytes = (plain s).bytes) ?_ ⟨hs, rfl⟩
  intro act hact t ⟨ht, hb⟩
  obtain ⟨r, hr, rfl⟩ := List.mem_map.1 hact
  have hrun := r.meets_run h.unversioned (Nat.le_refl 0) ht
  apply hrun.state (p := fun u => Good u ∧ (plain u).bytes = (plain s).bytes)
  · intro _ u ⟨hu, hbytes⟩
    rw [effect, hstill r hr] at hbytes
    exact ⟨hu trivial, hbytes.trans hb⟩
  · intro _ u ⟨hu, hbytes⟩
    refine ⟨hu, ?_⟩
    rcases hbytes with hbytes | ⟨data, rfl, -⟩
    · exact hbytes.trans hb
    · cases hstill (.write data) hr 0

end Request

end ByteTower
