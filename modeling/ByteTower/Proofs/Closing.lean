import ByteTower.Proofs.Handles
import ByteTower.Proofs.Request
import ByteTower.Proofs.Run

namespace ByteTower

open StoreM

theorem kept_of_requests {σ : Type} [Storage σ] {P : σ → Prop}
    (h : ∀ (r : Request) (s : σ), P s → P (r.run.run s).2) : Kept P where
  length s hs := by simpa only [Request.run, run_map] using h .length s hs
  resize n s hs := by simpa only [Request.run, run_map] using h (.resize n) s hs
  cursor s hs := by simpa only [Request.run, run_map] using h .cursor s hs
  seek pos s hs := by simpa only [Request.run, run_map] using h (.seek pos) s hs
  read n s hs := by simpa only [Request.run, run_map] using h (.read n) s hs
  write data s hs := by simpa only [Request.run, run_map] using h (.write data) s hs
  flush s hs := by simpa only [Request.run, run_map] using h .flush s hs
  close s hs := by simpa only [Request.run, run_map] using h .close s hs

/-- A store that is closed for good: to close it does nothing, and all else it refuses. -/
structure Shut {σ : Type} [Storage σ] (refusal : Request → StoreError) (s : σ) : Prop where
  isClosed : Storage.isClosed s = true
  close : Storage.close.run s = (.ok (), s)
  refused : ∀ r : Request, r ≠ .close → r.run.run s = (.error (refusal r), s)

namespace Shut

variable {σ : Type} [Storage σ] {refusal : Request → StoreError} {s : σ} (h : Shut refusal s)

include h

theorem state (r : Request) : (r.run.run s).2 = s := by
  by_cases hr : r = .close
  · rw [hr, Request.run, run_map, h.close]
  · rw [h.refused r hr]

theorem run_length : (Storage.length : StoreM σ Nat).run s = (.error (refusal .length), s) :=
  run_of_map_error (h.refused .length Request.noConfusion)

theorem run_cursor : (Storage.cursor : StoreM σ Nat).run s = (.error (refusal .cursor), s) :=
  run_of_map_error (h.refused .cursor Request.noConfusion)

end Shut

theorem shut_of_calls {σ : Type} [Storage σ] {refusal : Request → StoreError} {s : σ}
    (isClosed : Storage.isClosed s = true) (close : Storage.close.run s = (.ok (), s))
    (length : (Storage.length : StoreM σ Nat).run s = (.error (refusal .length), s))
    (resize : ∀ n, (Storage.resize n : StoreM σ Unit).run s = (.error (refusal (.resize n)), s))
    (cursor : (Storage.cursor : StoreM σ Nat).run s = (.error (refusal .cursor), s))
    (seek : ∀ pos, (Storage.seek pos : StoreM σ Unit).run s = (.error (refusal (.seek pos)), s))
    (read : ∀ n, (Storage.read n : StoreM σ ReadResult).run s = (.error (refusal (.read n)), s))
    (write : ∀ data, (Storage.write data : StoreM σ Unit).run s =
      (.error (refusal (.write data)), s))
    (flush : (Storage.flush : StoreM σ Unit).run s = (.error (refusal .flush), s)) :
    Shut refusal s where
  isClosed := isClosed
  close := close
  refused r hr := by
    have hmap : ∀ {α : Type} {act : StoreM σ α} {e : StoreError} (g : α → Response),
        act.run s = (.error e, s) → (g <$> act).run s = (.error e, s) := by
      intro α act e g hrun
      rw [run_map, hrun]
      rfl
    cases r with
    | length => exact hmap _ length
    | resize n => exact hmap _ (resize n)
    | cursor => exact hmap _ cursor
    | seek pos => exact hmap _ (seek pos)
    | read n => exact hmap _ (read n)
    | write data => exact hmap _ (write data)
    | flush => exact hmap _ flush
    | close => exact absurd rfl hr

-- Every store that is made of its own closed flag is shut once the flag is set.

theorem Memory.shut {m : Memory} (hc : m.closed = true) : Shut (fun _ => .closed) m :=
  shut_of_calls hc (by rw [run_close, ← hc]) (run_length_closed hc) (run_resize_closed hc)
    (run_cursor_closed hc) (run_seek_closed hc) (run_read_closed hc) (run_write_closed hc)
    (run_flush_closed hc)

theorem ReadAhead.shut {σ : Type} [Storage σ] {c : ReadAhead σ} (hc : c.closed = true) :
    Shut (fun _ => .closed) c := by
  have hclose : (Storage.close : StoreM (ReadAhead σ) Unit).run c = (.ok (), c) := by
    simp [Storage.close, close, run_bind, hc]
  exact shut_of_calls hc hclose (run_refused hc _) (fun _ => run_refused hc _) (run_refused hc _)
    (fun _ => run_refused hc _) (fun _ => run_refused hc _) (fun _ => run_refused hc _)
    (run_refused hc _)

theorem WriteBehind.shut {σ : Type} [Storage σ] {c : WriteBehind σ} (hc : c.closed = true) :
    Shut (fun _ => .closed) c := by
  have hclose : (Storage.close : StoreM (WriteBehind σ) Unit).run c = (.ok (), c) := by
    simp [Storage.close, close, run_bind, hc]
  exact shut_of_calls hc hclose (run_refused hc _) (fun _ => run_refused hc _) (run_refused hc _)
    (fun _ => run_refused hc _) (fun _ => run_refused hc _) (fun _ => run_refused hc _)
    (run_refused hc _)

theorem WriteBehind.release_of_closed {σ : Type} [Storage σ] {c : WriteBehind σ}
    (hc : c.closed = true) : Storage.release c = { c with inner := Storage.release c.inner } := by
  show release c = _
  rw [release, if_pos hc]

/-- How a handle refuses a request once it is closed. It looks at a length before it looks whether it
is open. -/
def handleRefusal : Request → StoreError
  | .resize n => if maxPosition < n then .argument (.positionTooLarge n) else .closed
  | _ => .closed

section Handle

variable {σ : Type} {closed : σ → Bool} {s : σ}

theorem run_resize_of_closed (hc : closed s = true) (n : Nat) (next : σ → Unit → StoreM σ Unit) :
    (checkPosition n >>= fun _ => get >>= fun t => requireOpen (closed t) >>= next t).run s =
      (.error (handleRefusal (.resize n)), s) := by
  by_cases hn : maxPosition < n
  · rw [checkPosition, handleRefusal, if_pos hn, if_pos hn]
    rfl
  · rw [checkPosition, handleRefusal, if_neg hn, if_neg hn]
    exact run_refused hc next

/-- A handle is shut once it is closed: it first looks whether it is open, at a length even before
that. -/
theorem shut_of_handle [Storage σ] (hc : closed s = true)
    {length cursor : σ → Unit → StoreM σ Nat} {resize seek : Nat → σ → Unit → StoreM σ Unit}
    {read : Nat → σ → Unit → StoreM σ ReadResult} {write : Bytes → σ → Unit → StoreM σ Unit}
    (isClosed : Storage.isClosed s = closed s) (close : Storage.close.run s = (.ok (), s))
    (hlength : Storage.length = get >>= fun t => requireOpen (closed t) >>= length t)
    (hresize : ∀ n, Storage.resize n =
      checkPosition n >>= fun _ => get >>= fun t => requireOpen (closed t) >>= resize n t)
    (hcursor : Storage.cursor = get >>= fun t => requireOpen (closed t) >>= cursor t)
    (hseek : ∀ pos, Storage.seek pos = get >>= fun t => requireOpen (closed t) >>= seek pos t)
    (hread : ∀ n, Storage.read n = get >>= fun t => requireOpen (closed t) >>= read n t)
    (hwrite : ∀ data, Storage.write data = get >>= fun t => requireOpen (closed t) >>= write data t)
    (hflush : Storage.flush = get >>= fun t : σ => requireOpen (closed t)) :
    Shut handleRefusal s := by
  refine shut_of_calls (isClosed.trans hc) close ?_ ?_ ?_ ?_ ?_ ?_ ?_
  · exact hlength ▸ run_refused hc length
  · exact fun n => hresize n ▸ run_resize_of_closed hc n (resize n)
  · exact hcursor ▸ run_refused hc cursor
  · exact fun pos => hseek pos ▸ run_refused hc (seek pos)
  · exact fun n => hread n ▸ run_refused hc (read n)
  · exact fun data => hwrite data ▸ run_refused hc (write data)
  · rw [hflush, run_bind, run_get]
    simp only [requireOpen, hc, if_true, run_throw, handleRefusal]

end Handle

theorem FileHandle.shut {h : FileHandle} (hc : h.closed = true) : Shut handleRefusal h := by
  have hclose : { h with closed := true } = h := by rw [← hc]
  exact shut_of_handle hc rfl
    (congrArg (Prod.mk (Except.ok ())) hclose) rfl (fun _ => rfl) rfl (fun _ => rfl) (fun _ => rfl)
    (fun _ => rfl) rfl

theorem DirectoryHandle.shut {h : DirectoryHandle} (hc : h.closed = true) :
    Shut handleRefusal h := by
  have hclose : { h with closed := true } = h := by rw [← hc]
  exact shut_of_handle hc rfl (congrArg (Prod.mk (Except.ok ())) hclose) rfl (fun _ => rfl) rfl
    (fun _ => rfl) (fun _ => rfl) (fun _ => rfl) rfl

/-- A store that hands on every call is shut with the store that gets them. -/
theorem Shut.embed {σ τ : Type} [Storage σ] [Storage τ] {refusal : Request → StoreError} {s : σ}
    (h : Shut refusal s) (put : σ → τ) (hclosed : Storage.isClosed (put s) = Storage.isClosed s)
    (hclose : Storage.close.run (put s) =
      ((Storage.close.run s).1, put (Storage.close.run s).2))
    (hrun : ∀ r : Request, r.run.run (put s) = ((r.run.run s).1, put (r.run.run s).2)) :
    Shut refusal (put s) where
  isClosed := hclosed.trans h.isClosed
  close := by rw [hclose, h.close]
  refused r hr := by rw [hrun, h.refused r hr]

theorem BlockView.shut {κ σ : Type} [Storage σ] {refusal : Request → StoreError} {v : BlockView κ σ}
    (h : Shut refusal v.inner) : Shut refusal v := by
  refine h.embed (fun inner => { v with inner }) rfl rfl fun r => ?_
  cases r with
  | length | resize | cursor | seek | read | write | flush | close =>
    simp only [Request.run, run_map]
    rfl

namespace Medium

def refusal : Medium → Request → StoreError
  | file _ => handleRefusal
  | directory _ => handleRefusal
  | _ => fun _ => .closed

theorem refusal_eq_closed (m : Medium) {r : Request} (h : ∀ n, r = .resize n → n ≤ maxPosition) :
    m.refusal r = .closed := by
  have hhandle : handleRefusal r = .closed := by
    cases r with
    | resize n => exact if_neg (Nat.not_lt.2 (h n rfl))
    | length | cursor | seek | read | write | flush | close => rfl
  cases m with
  | memory | probe => rfl
  | file | directory => exact hhandle

theorem run_request {σ : Type} [Storage σ] {put : σ → Medium} {s : σ}
    (hput : ∀ {α : Type} (act : {σ : Type} → [Storage σ] → StoreM σ α),
      (perform act).run (put s) = ((act.run s).1, put (act.run s).2)) (r : Request) :
    r.run.run (put s) = ((r.run.run s).1, put (r.run.run s).2) := by
  have hmap : ∀ {α : Type} (g : α → Response) (act : {σ : Type} → [Storage σ] → StoreM σ α),
      (g <$> perform act).run (put s) = (((g <$> act).run s).1, put ((g <$> act).run s).2) := by
    intro α g act
    rw [run_map, run_map, hput]
  cases r with
  | length => exact hmap _ Storage.length
  | resize n => exact hmap _ (Storage.resize n)
  | cursor => exact hmap _ Storage.cursor
  | seek pos => exact hmap _ (Storage.seek pos)
  | read n => exact hmap _ (Storage.read n)
  | write data => exact hmap _ (Storage.write data)
  | flush => exact hmap _ Storage.flush
  | close => exact hmap _ Storage.close

theorem shut {m : Medium} (hm : m.Genuine) (hc : Storage.isClosed m = true) : Shut m.refusal m := by
  cases m with
  | memory m => exact (Memory.shut hc).embed memory rfl rfl (run_request fun _ => rfl)
  | file h => exact (FileHandle.shut hc).embed file rfl rfl (run_request fun _ => rfl)
  | directory h => exact (DirectoryHandle.shut hc).embed directory rfl rfl (run_request fun _ => rfl)
  | probe => exact hm.elim

end Medium

namespace Tower

variable {κ : Type}

def AllClosed {μ : Type} [Storage μ] : {kinds : List LayerKind} → Tower κ μ kinds → Prop
  | [], m => Storage.isClosed (m : μ) = true
  | .readAhead :: _, c => c.closed = true ∧ AllClosed c.inner
  | .writeBehind :: _, c => c.closed = true ∧ AllClosed c.inner
  | .blocks :: _, v => AllClosed v.inner

/-- How a tower refuses a request once it is closed. The request comes through to the medium where all
layers have blocks. -/
def refusal : {kinds : List LayerKind} → Tower κ Medium kinds → Request → StoreError
  | [], m => Medium.refusal m
  | .readAhead :: _, _ => fun _ => .closed
  | .writeBehind :: _, _ => fun _ => .closed
  | .blocks :: _, v => refusal v.inner

theorem AllClosed.shut : ∀ {kinds : List LayerKind} {t : Tower κ Medium kinds},
    t.AllClosed → t.medium.Genuine → Shut t.refusal t
  | [], _, h, hm => Medium.shut hm h
  | .readAhead :: _, _, h, _ => ReadAhead.shut h.1
  | .writeBehind :: _, _, h, _ => WriteBehind.shut h.1
  | .blocks :: _, v, h, hm => BlockView.shut (shut (t := v.inner) h hm)

theorem refusal_eq_closed : ∀ {kinds : List LayerKind} (t : Tower κ Medium kinds) {r : Request},
    (∀ n, r = .resize n → n ≤ maxPosition) → t.refusal r = .closed
  | [], m, _, h => Medium.refusal_eq_closed m h
  | .readAhead :: _, _, _, _ => rfl
  | .writeBehind :: _, _, _, _ => rfl
  | .blocks :: _, v, _, h => refusal_eq_closed (t := v.inner) h

theorem AllClosed.medium_release : ∀ {kinds : List LayerKind} {t : Tower κ Medium kinds},
    t.AllClosed → (Storage.release t).medium = t.medium
  | [], _, _ => rfl
  | .readAhead :: _, c, h => medium_release (t := c.inner) h.2
  | .writeBehind :: kinds, c, h => by
    have hmedium : (Storage.release c).medium = (Storage.release c.inner).medium :=
      congrArg (fun d : Tower κ Medium (.writeBehind :: kinds) => d.medium)
        (WriteBehind.release_of_closed h.1)
    exact hmedium.trans (medium_release h.2)
  | .blocks :: _, v, h => medium_release (t := v.inner) h

/-- In a sound tower all is closed, or nothing. -/
theorem Sound.allClosed {μ : Type} [Storage μ] [Meaning μ] {f : Failures} {Good : μ → Prop}
    (hg : Contract f Good) : ∀ {kinds : List LayerKind} {t : Tower κ μ kinds},
      Sound (fun _ _ => True) (fun _ => Good) kinds 0 t → (plain t).closed = true → t.AllClosed
  | [], m, hm, hc => (hg.isClosed m hm).trans hc
  | .readAhead :: _, _, ⟨_, hsound⟩, hc => ⟨hc, allClosed hg hsound.inner (hsound.closed.trans hc)⟩
  | .writeBehind :: _, _, ⟨_, hbehind⟩, hc =>
    ⟨hc, allClosed hg hbehind.sound.inner (hbehind.sound.closed.trans hc)⟩
  | .blocks :: _, v, hv, hc => allClosed (t := v.inner) hg hv hc

theorem dropWindow_closed {m : Medium} : ∀ {kinds : List LayerKind} (depth : Nat)
    {t : Tower κ Medium kinds}, t.AllClosed ∧ t.medium = m →
      (t.dropWindow depth).AllClosed ∧ (t.dropWindow depth).medium = m
  | [], _, _, h => h
  | .readAhead :: _, 0, _, h => h
  | .writeBehind :: _, 0, _, h => h
  | .blocks :: _, 0, _, h => h
  | .readAhead :: _, depth + 1, c, ⟨h, hm⟩ =>
    have hinner := dropWindow_closed depth (t := c.inner) ⟨h.2, hm⟩
    ⟨⟨h.1, hinner.1⟩, hinner.2⟩
  | .writeBehind :: _, depth + 1, c, ⟨h, hm⟩ =>
    have hinner := dropWindow_closed depth (t := c.inner) ⟨h.2, hm⟩
    ⟨⟨h.1, hinner.1⟩, hinner.2⟩
  | .blocks :: _, depth + 1, v, h => dropWindow_closed depth (t := v.inner) h

end Tower

section Wrap

variable {σ : Type} [Storage σ] {refusal : Request → StoreError} {s : σ}

theorem Shut.not_readAhead (h : Shut refusal s) {size : Nat} {c : ReadAhead σ} :
    ReadAhead.wrap size s ≠ .ok c := by
  intro hw
  obtain ⟨_, _, _, hrun, -⟩ := ReadAhead.wrap_eq_ok.1 hw
  rw [h.run_cursor] at hrun
  cases hrun

theorem Shut.not_writeBehind (h : Shut refusal s) {size : Nat} {c : WriteBehind σ} :
    WriteBehind.wrap size s ≠ .ok c := by
  intro hw
  obtain ⟨_, _, _, hrun, -⟩ := WriteBehind.wrap_eq_ok.1 hw
  rw [h.run_cursor] at hrun
  cases hrun

theorem Shut.not_standard {κ : Type} (h : Shut refusal s) {sizes : Sizes}
    {c : Tower κ σ standardKinds} : Tower.standard sizes s ≠ .ok c := by
  intro hw
  obtain ⟨-, _, _, hbehind, -⟩ := Tower.standard_eq_ok hw
  exact h.not_writeBehind hbehind

end Wrap

namespace AnyTower

variable {κ : Type} {m : Medium} (hm : m.Genuine)

include hm

theorem shut_of_closed {kinds : List LayerKind} {t : Tower κ Medium kinds}
    (h : t.AllClosed ∧ t.medium = m) : Shut t.refusal t :=
  h.1.shut (h.2 ▸ hm)

theorem wrap_closed {plan : LayerPlan} {t t' : AnyTower κ Medium}
    (h : t.tower.AllClosed ∧ t.medium = m) (hw : t.wrap plan = .ok t') :
    t'.tower.AllClosed ∧ t'.medium = m := by
  have hshut := shut_of_closed hm h
  cases plan with
  | readAhead size =>
    obtain ⟨c, hc, -⟩ := ofWrapped_eq_ok hw
    exact absurd hc hshut.not_readAhead
  | writeBehind size =>
    obtain ⟨c, hc, -⟩ := ofWrapped_eq_ok hw
    exact absurd hc hshut.not_writeBehind
  | blocks size =>
    -- blocks can be seen in a closed store too, and every look at one is refused
    obtain ⟨c, hc, rfl⟩ := ofWrapped_eq_ok hw
    obtain ⟨inner, blockSize, hpos, register⟩ := c
    obtain rfl := BlockView.of_wrap hc
    exact h
  | standard sizes =>
    obtain ⟨c, hc, -⟩ := ofWrapped_eq_ok hw
    exact absurd hc hshut.not_standard

/-- Nothing opens a closed tower again or reaches its medium. -/
theorem closed_invariant :
    Tower.Invariant fun kinds (t : Tower κ Medium kinds) => t.AllClosed ∧ t.medium = m where
  kept kinds := kept_of_requests fun r t ht => by
    rw [(shut_of_closed hm ht).state r]
    exact ht
  blocks _ := Iff.rfl
  dropWindow depth _ ht := Tower.dropWindow_closed depth ht
  wrap ht hw := wrap_closed hm ht hw

end AnyTower

/-- The calls that look for blocks before all else. The others are about a buffer, which is checked
first, and about listeners. -/
def BlockCall.OfBlocks {κ : Type} : BlockCall κ → Prop
  | count | read .. | write .. | insert .. | delete .. => True
  | readWithin .. | writeWithin .. | addListener _ | eraseListener _ => False

section Blocks

variable {κ ω ρ σ : Type} [Audience κ ω] [Storage σ] {refusal : Request → StoreError}
variable {v : BlockView κ σ}

theorem run_onFirst_bind_error {σ τ α β : Type} {act : StoreM σ α} {s t : σ} {e : StoreError}
    (hrun : act.run s = (.error e, t)) (next : α → StoreM (σ × τ) β) (world : τ) :
    (act.onFirst >>= next).run (s, world) = (.error e, t, world) := by
  apply run_bind_error
  rw [run_onFirst, hrun]

theorem BlockView.run_blockCount_of_shut (h : Shut refusal v.inner) :
    blockCount.run v = (.error (refusal .length), v) := by
  have hlength : (onInner Storage.length).run v = (.error (refusal .length), v) := by
    rw [onInner, run_zoom, h.run_length]
  exact run_bind_error hlength _

theorem BlockCall.run_of_shut (h : Shut refusal v.inner) {call : BlockCall κ}
    (hcall : call.OfBlocks) (world : ω) :
    (call.run (ρ := ρ)).run (v, world) = (.error (refusal .length), v, world) := by
  have hcount := BlockView.run_blockCount_of_shut h
  have hlocate : ∀ block offset n,
      (BlockView.locate block offset n).run v = (.error (refusal .length), v) :=
    fun _ _ _ => run_bind_error hcount _
  cases call with
  | count => exact run_onFirst_bind_error hcount _ world
  | read block offset n => exact run_onFirst_bind_error (run_bind_error (hlocate _ _ _) _) _ world
  | write block offset data =>
    exact run_onFirst_bind_error (run_bind_error (hlocate _ _ _) _) _ world
  | insert index n =>
    exact run_bind_error (run_onFirst_bind_error (run_bind_error hcount _) _ world) _
  | delete index n =>
    exact run_bind_error (run_onFirst_bind_error (run_bind_error hcount _) _ world) _
  | readWithin | writeWithin | addListener | eraseListener => exact hcall.elim

theorem world_onFirst_bind {σ τ α β : Type} (act : StoreM σ α) {last : α → StoreM (σ × τ) β}
    (hlast : ∀ a p, ((last a).run p).2 = p) (s : σ) (world : τ) :
    ((act.onFirst >>= last).run (s, world)).2.2 = world := by
  rcases hr : act.run s with ⟨e | a, t⟩
  · rw [run_onFirst_bind_error hr]
  · have hfirst : act.onFirst.run (s, world) = (.ok a, t, world) := by rw [run_onFirst, hr]
    rw [run_bind_ok hfirst, hlast]

theorem BlockCall.world_of_shut (h : Shut refusal v.inner) (call : BlockCall κ) (world : ω) :
    ((call.run (ρ := ρ)).run (v, world)).2.2 = world := by
  by_cases hcall : call.OfBlocks
  · rw [run_of_shut h hcall]
  · cases call with
    | count | read | write | insert | delete => exact absurd trivial hcall
    | readWithin block offset buffer start n => exact world_onFirst_bind _ (fun _ _ => rfl) v world
    | writeWithin block offset buffer start n => exact world_onFirst_bind _ (fun _ _ => rfl) v world
    | addListener listener => rfl
    | eraseListener id => rfl

end Blocks

namespace AnyTower

variable {κ ω ς ρ : Type} [Audience κ ω] [Collector ς] [ByteSource ρ] {m : Medium}

theorem world_of_closed (hm : m.Genuine) {p : AnyTower κ Medium × ω}
    (hp : p.1.tower.AllClosed ∧ p.1.medium = m) (action : Action κ ς ρ) :
    (action.run.run p).2.2 = p.2 := by
  cases action with
  | read n =>
    rw [Action.run, run_map]
    rfl
  | step next =>
    rw [Action.run, run_map]
    cases next with
    | store call => rfl
    | invalidate depth => rfl
    | wrap plan => rfl
    | blocks call =>
      obtain ⟨⟨_ | ⟨_ | _ | _, kinds⟩, tower⟩, world⟩ := p
      case nil => rfl
      case cons.readAhead => rfl
      case cons.writeBehind => rfl
      case cons.blocks =>
        have hv : tower.inner.AllClosed ∧ tower.inner.medium = m := hp
        exact call.world_of_shut (shut_of_closed hm hv) world

/-- All is over: the medium is and stays `m`, and every call is refused, nothing done. -/
structure Ended (t : AnyTower κ Medium) (m : Medium) : Prop where
  medium : t.medium = m
  release : t.release = m
  shut : Shut t.tower.refusal t.tower
  closed : ∀ r : Request, r ≠ .close → (∀ n, r = .resize n → n ≤ maxPosition) →
    r.run.run t.tower = (.error .closed, t.tower)
  blocks : ∀ {ω ρ : Type} [Audience κ ω] {kinds : List LayerKind}
    {v : BlockView κ (Tower κ Medium kinds)}, t = ⟨.blocks :: kinds, v⟩ →
      ∀ call : BlockCall κ, call.OfBlocks → ∀ world : ω,
        (call.run (ρ := ρ)).run (v, world) = (.error .closed, v, world)

omit [Audience κ ω] in
theorem ended_of_closed (hm : m.Genuine) {t : AnyTower κ Medium}
    (ht : t.tower.AllClosed ∧ t.medium = m) : t.Ended m where
  medium := ht.2
  release := ht.1.medium_release.trans ht.2
  shut := shut_of_closed hm ht
  closed r hr hn := by
    rw [(shut_of_closed hm ht).refused r hr, Tower.refusal_eq_closed t.tower hn]
  blocks := by
    intro ω ρ _ kinds v htv call hcall world
    obtain rfl := htv
    have hv : v.inner.AllClosed ∧ v.inner.medium = m := ht
    have hlength := Tower.refusal_eq_closed v.inner (r := .length) fun _ h => Request.noConfusion h
    rw [← hlength]
    exact call.run_of_shut (shut_of_closed hm hv) hcall world

end AnyTower

/-- Once a close of a tower over memory, a file or a directory has succeeded, all is over, whatever is
done then: no call brings a byte to the medium, and no listener hears of anything. -/
theorem close_terminal {κ ω ς ρ : Type} [Audience κ ω] [Collector ς] [ByteSource ρ] {m : Medium}
    (hm : m.Genuine) (world : ω) (before after : List (Action κ ς ρ)) {t : AnyTower κ Medium}
    {heard : ω} (ht : leave (before.map Action.run) (AnyTower.ofMedium m, world) = (t, heard))
    {c : Tower κ Medium t.kinds} (hclose : Storage.close.run t.tower = (.ok (), c)) :
    ∃ u, leave (after.map Action.run) (⟨t.kinds, c⟩, heard) = (u, heard) ∧ u.Ended c.medium := by
  have hcontract := Medium.contract (f := .whole) trivial
  have hintact : t.Intact Medium.Genuine := by
    have h := AnyTower.intact_leave hcontract hm world before
    rwa [ht] at h
  obtain ⟨hsound, hp⟩ := ((AnyTower.contract_of_medium hcontract t.kinds).meets_close
    hintact).of_run_ok hclose
  have hmedium : c.medium.Genuine := hsound.good_medium
  have hclosed : c.AllClosed := hsound.allClosed hcontract (by rw [hp])
  have hrun : let q := leave (after.map Action.run) (⟨t.kinds, c⟩, heard)
      (q.1.tower.AllClosed ∧ q.1.medium = c.medium) ∧ q.2 = heard := by
    apply leave_of_step
      (p := fun q : AnyTower κ Medium × ω => (q.1.tower.AllClosed ∧ q.1.medium = c.medium) ∧ q.2 = heard)
    · intro act hact q ⟨hq, hworld⟩
      obtain ⟨action, -, rfl⟩ := List.mem_map.1 hact
      exact ⟨(AnyTower.closed_invariant hmedium).action hq action,
        (AnyTower.world_of_closed hmedium hq action).trans hworld⟩
    · exact ⟨⟨hclosed, rfl⟩, rfl⟩
  exact ⟨_, Prod.ext rfl hrun.2, AnyTower.ended_of_closed hmedium hrun.1⟩

def emptyFile : Medium := .file { name := "disk.bin", bytes := ByteArray.empty }

/-- A handle that was closed refuses a length that is too large as too large, and not as a closed store
refuses. -/
theorem closed_handle_checks_length :
    let closed := (Storage.close.run emptyFile).2
    (Storage.close.run emptyFile).1 = .ok () ∧ Storage.isClosed closed = true ∧
      ((Storage.resize (maxPosition + 1)).run closed).1 =
        .error (.argument (.positionTooLarge (maxPosition + 1))) ∧
      ((Storage.resize (maxPosition + 1)).run closed).1 ≠ .error .closed ∧
      ((Storage.seek (maxPosition + 1)).run closed).1 = .error .closed := by
  have hresize : ((Storage.resize (maxPosition + 1)).run (Storage.close.run emptyFile).2).1 =
      .error (.argument (.positionTooLarge (maxPosition + 1))) := rfl
  refine ⟨rfl, rfl, hresize, ?_, rfl⟩
  rw [hresize]
  exact fun h => StoreError.noConfusion (Except.error.inj h)

/-- A file under all kinds of layers, with a listener and a write that is held back. -/
def layeredFile : List (Action String EndlessSink ThrottledSource) :=
  [.step (.wrap (.writeBehind 4)), .step (.wrap (.readAhead 3)), .step (.wrap (.blocks 2)),
    .step (.blocks (.addListener "log")), .step (.store (.write (.ofOctets [1, 2, 3])))]

def tooLate : List (Action String EndlessSink ThrottledSource) :=
  [.step (.store (.seek (maxPosition + 1))), .step (.store .close), .step (.wrap (.blocks 1)),
    .step (.wrap (.writeBehind 8)), .step (.blocks (.insert 7 0)), .read 0,
    .step (.store (.write (.ofOctets [9])))]

/-- The close brings the write to the file, and nothing comes after it. -/
theorem close_terminal_of_layered :
    ∃ (t : AnyTower String Medium) (heard : Cast) (c : Tower String Medium t.kinds),
      leave (layeredFile.map Action.run) (AnyTower.ofMedium emptyFile, ({} : Cast)) = (t, heard) ∧
      Storage.close.run t.tower = (.ok (), c) ∧
      ∃ u, leave (tooLate.map Action.run) (⟨t.kinds, c⟩, heard) = (u, heard) ∧ u.Ended c.medium := by
  refine ⟨_, _, _, rfl, rfl, ?_⟩
  exact close_terminal (m := emptyFile) rfl ({} : Cast) layeredFile tooLate rfl rfl

end ByteTower
