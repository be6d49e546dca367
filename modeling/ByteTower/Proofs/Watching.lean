import ByteTower.Proofs.Closing
import ByteTower.Proofs.Imitation
import ByteTower.Proofs.Tally

namespace ByteTower

open StoreM

section Kept

variable {σ : Type} [Storage σ] {P : σ → Prop} (h : Kept P)

include h

theorem Kept.request (r : Request) {s : σ} (hs : P s) : P (r.run.run s).2 := by
  cases r with
  | length => simpa only [Request.run, run_map] using h.length s hs
  | resize n => simpa only [Request.run, run_map] using h.resize n s hs
  | cursor => simpa only [Request.run, run_map] using h.cursor s hs
  | seek pos => simpa only [Request.run, run_map] using h.seek pos s hs
  | read n => simpa only [Request.run, run_map] using h.read n s hs
  | write data => simpa only [Request.run, run_map] using h.write data s hs
  | flush => simpa only [Request.run, run_map] using h.flush s hs
  | close => simpa only [Request.run, run_map] using h.close s hs

/-- What calls on the wrapped store keep, calls on a layer keep: a close is the only one of them that
comes down as a close. -/
theorem ReadAhead.kept_inner : Kept fun c : ReadAhead σ => P c.inner where
  length c hc := ((imitates h.imitates).length c hc).1
  resize n c hc := ((imitates h.imitates).resize n c hc).1
  cursor c hc := ((imitates h.imitates).cursor c hc).1
  seek pos c hc := ((imitates h.imitates).seek pos c hc).1
  read n c hc := ((imitates h.imitates).read n c hc).1
  write data c hc := ((imitates h.imitates).write data c hc).1
  flush c hc := ((imitates h.imitates).flush c hc).1
  close c hc := by
    have hclose : (Storage.close : StoreM (ReadAhead σ) Unit).Ends (Over P) c := by
      apply meets_get_bind
      split
      case isTrue => exact meets_pure hc
      case isFalse =>
        have hinner : (onInner Storage.close).Ends (Over P) c := ends_iff.2 (h.close c.inner hc)
        exact hinner.bind fun _ _ hd => meets_modify hd
    exact ends_iff.1 hclose

theorem WriteBehind.kept_inner : Kept fun c : WriteBehind σ => P c.inner where
  length c hc := ((imitates h.imitates).length c hc).1
  resize n c hc := ((imitates h.imitates).resize n c hc).1
  cursor c hc := ((imitates h.imitates).cursor c hc).1
  seek pos c hc := ((imitates h.imitates).seek pos c hc).1
  read n c hc := ((imitates h.imitates).read n c hc).1
  write data c hc := ((imitates h.imitates).write data c hc).1
  flush c hc := ((imitates h.imitates).flush c hc).1
  close c hc := by
    have hclose : (Storage.close : StoreM (WriteBehind σ) Unit).Ends (Over P) c := by
      apply meets_get_bind
      split
      case isTrue => exact meets_pure hc
      case isFalse =>
        have hsettle : settle.Ends (Over P) c := ends_iff.2 (mimics_settle h.imitates hc).1
        apply hsettle.bind
        intro _ d hd
        have hinner : (onInner Storage.close).Ends (Over P) d := ends_iff.2 (h.close d.inner hd)
        exact hinner.bind fun _ _ he => meets_modify he
    exact ends_iff.1 hclose

theorem BlockView.kept_inner {κ : Type} : Kept fun v : BlockView κ σ => P v.inner where
  length v hv := h.length v.inner hv
  resize n v hv := h.resize n v.inner hv
  cursor v hv := h.cursor v.inner hv
  seek pos v hv := h.seek pos v.inner hv
  read n v hv := h.read n v.inner hv
  write data v hv := h.write data v.inner hv
  flush v hv := h.flush v.inner hv
  close v hv := h.close v.inner hv

end Kept

namespace Tower

variable {κ μ : Type} {P : μ → Prop}

theorem medium_dropWindow : ∀ {kinds : List LayerKind} (depth : Nat) (t : Tower κ μ kinds),
    (t.dropWindow depth).medium = t.medium
  | [], _, _ => rfl
  | .readAhead :: _, 0, _ => rfl
  | .writeBehind :: _, 0, _ => rfl
  | .blocks :: _, 0, _ => rfl
  | .readAhead :: _, depth + 1, c => medium_dropWindow depth c.inner
  | .writeBehind :: _, depth + 1, c => medium_dropWindow depth c.inner
  | .blocks :: _, depth + 1, v => medium_dropWindow depth v.inner

variable [Storage μ] (h : Kept P)

include h

theorem kept_medium : ∀ kinds, Kept fun t : Tower κ μ kinds => P t.medium
  | [] => h
  | .readAhead :: kinds => ReadAhead.kept_inner (kept_medium kinds)
  | .writeBehind :: kinds => WriteBehind.kept_inner (kept_medium kinds)
  | .blocks :: kinds => BlockView.kept_inner (kept_medium kinds)

end Tower

section Wrap

variable {σ : Type} [Storage σ] {P : σ → Prop} (h : Kept P) {size : Nat} {s : σ}

include h

theorem Kept.of_wrap_readAhead {c : ReadAhead σ} (hs : P s) (hw : ReadAhead.wrap size s = .ok c) :
    P c.inner := by
  obtain ⟨_, cursor, t, hrun, rfl⟩ := ReadAhead.wrap_eq_ok.1 hw
  have ht := h.cursor s hs
  rwa [hrun] at ht

theorem Kept.of_wrap_writeBehind {c : WriteBehind σ} (hs : P s)
    (hw : WriteBehind.wrap size s = .ok c) : P c.inner := by
  obtain ⟨_, cursor, t, hrun, rfl⟩ := WriteBehind.wrap_eq_ok.1 hw
  have ht := h.cursor s hs
  rwa [hrun] at ht

end Wrap

namespace AnyTower

variable {κ μ : Type} [Storage μ] {P : μ → Prop} (h : Kept P)

include h

theorem medium_of_wrap {plan : LayerPlan} {t t' : AnyTower κ μ} (ht : P t.medium)
    (hw : t.wrap plan = .ok t') : P t'.medium := by
  have hkept := Tower.kept_medium (κ := κ) h t.kinds
  cases plan with
  | readAhead size =>
    obtain ⟨c, hc, rfl⟩ := ofWrapped_eq_ok hw
    exact hkept.of_wrap_readAhead ht hc
  | writeBehind size =>
    obtain ⟨c, hc, rfl⟩ := ofWrapped_eq_ok hw
    exact hkept.of_wrap_writeBehind ht hc
  | blocks size =>
    obtain ⟨c, hc, rfl⟩ := ofWrapped_eq_ok hw
    obtain ⟨_, rfl⟩ := BlockView.wrap_eq_ok.1 hc
    exact ht
  | standard sizes =>
    obtain ⟨c, hc, rfl⟩ := ofWrapped_eq_ok hw
    obtain ⟨-, behind, ahead, hbehind, hahead, hview⟩ := Tower.standard_eq_ok hc
    obtain ⟨_, rfl⟩ := BlockView.wrap_eq_ok.1 hview
    have hinner := hkept.of_wrap_writeBehind ht hbehind
    exact (WriteBehind.kept_inner hkept).of_wrap_readAhead hinner hahead

/-- What calls on a medium keep holds after every run of the towers that are built on it. -/
theorem medium_invariant : Tower.Invariant fun kinds (t : Tower κ μ kinds) => P t.medium where
  kept := Tower.kept_medium h
  blocks _ := Iff.rfl
  dropWindow depth t ht := by
    rw [Tower.medium_dropWindow]
    exact ht
  wrap ht hw := medium_of_wrap h ht hw

theorem medium_leave {ω ς ρ : Type} [Audience κ ω] [Collector ς] [ByteSource ρ] {m : μ} (hm : P m)
    (world : ω) (actions : List (Action κ ς ρ)) :
    P (leave (actions.map Action.run) (ofMedium m, world)).1.medium :=
  (medium_invariant h).leave (p := ((ofMedium m : AnyTower κ μ), world)) hm actions

end AnyTower

/-- A call that was made: its answer, and the store before and after it. -/
structure Noted (σ : Type) where
  before : σ
  request : Request
  answer : Except StoreError Response
  after : σ

/-- A store with all calls that were made on it, the first one first. -/
structure Watched (σ : Type) where
  store : σ
  calls : List (Noted σ) := []

namespace Watched

variable {σ α : Type}

def call (r : Request) (respond : α → Response) (act : StoreM σ α) : StoreM (Watched σ) α :=
  .ofRun fun s =>
    let (answer, store) := act.run s.store
    let noted := { before := s.store, request := r, answer := answer.map respond, after := store }
    (answer, { store, calls := s.calls ++ [noted] })

variable [Storage σ]

instance : Storage (Watched σ) where
  length := call .length .number Storage.length
  resize n := call (.resize n) (fun _ => .nothing) (Storage.resize n)
  cursor := call .cursor .number Storage.cursor
  seek pos := call (.seek pos) (fun _ => .nothing) (Storage.seek pos)
  read n := call (.read n) .given (Storage.read n)
  write data := call (.write data) (fun _ => .nothing) (Storage.write data)
  flush := call .flush (fun _ => .nothing) Storage.flush
  close := call .close (fun _ => .nothing) Storage.close
  isClosed s := Storage.isClosed s.store
  release s := { s with store := Storage.release s.store }

theorem run_request (r : Request) (s : Watched σ) :
    r.run.run s = ((r.run.run s.store).1,
      { store := (r.run.run s.store).2,
        calls := s.calls ++ [⟨s.store, r, (r.run.run s.store).1, (r.run.run s.store).2⟩] }) := by
  cases r with
  | length | resize | cursor | seek | read | write | flush | close =>
    simp only [Request.run, run_map]
    rfl

/-- What every single call makes of a store and of the calls before it is so after all calls. -/
theorem kept_of_step {P : σ → List (Noted σ) → Prop}
    (h : ∀ (r : Request) (s : σ) (calls : List (Noted σ)), P s calls →
      P (r.run.run s).2 (calls ++ [⟨s, r, (r.run.run s).1, (r.run.run s).2⟩])) :
    Kept fun s : Watched σ => P s.store s.calls :=
  kept_of_requests fun r s hs => by
    rw [run_request]
    exact h r s.store s.calls hs

theorem kept {P : σ → Prop} (h : Kept P) : Kept fun s : Watched σ => P s.store :=
  kept_of_step (P := fun s _ => P s) fun r s _ hs => by
    exact h.request r hs

variable {s : Watched σ} {r : Request} {respond : α → Response} {act : StoreM σ α}

omit [Storage σ] in
theorem meets_call {good : α → Watched σ → Prop} {bad : StoreError → Watched σ → Prop}
    (h : act.Meets s.store
      (fun a t => good a ⟨t, s.calls ++ [⟨s.store, r, .ok (respond a), t⟩]⟩)
      fun e t => bad e ⟨t, s.calls ++ [⟨s.store, r, .error e, t⟩]⟩) :
    (call r respond act).Meets s good bad := by
  rcases hr : act.run s.store with ⟨e | a, t⟩
  · exact meets_of_error (by simp only [call, hr]; rfl) (h.of_run_error hr)
  · exact meets_of_ok (by simp only [call, hr]; rfl) (h.of_run_ok hr)

variable [Meaning σ] {f : Failures} {Good After : σ → Prop}

instance : Meaning (Watched σ) := ⟨fun s => plain s.store⟩

omit [Storage σ] in
theorem follows_call {loss : Memory → Memory → Prop} {models : StoreM Memory α → Prop}
    (h : Follows f Good After loss act models s.store) :
    Follows f (fun s => Good s.store) (fun s => After s.store) loss (call r respond act) models s :=
  meets_call h

/-- To be watched changes nothing of what a store does. -/
theorem contract (h : Contract f Good) : Contract f fun s : Watched σ => Good s.store where
  length s hs := follows_call (h.length s.store hs)
  cursor s hs := follows_call (h.cursor s.store hs)
  seek pos s hs := follows_call (h.seek pos s.store hs)
  read n s hs := follows_call (h.read n s.store hs)
  flush s hs := follows_call (h.flush s.store hs)
  close s hs := follows_call (h.close s.store hs)
  isClosed s hs := h.isClosed s.store hs
  bounded s hs := h.bounded s.store hs
  still _ hs := hs
  resize n s hs := follows_call (h.resize n s.store hs)
  write data s hs := follows_call (h.write data s.store hs)

end Watched

section Reckons

/-- A number that never goes down, and that goes up whenever an open good store does not find a
position, does not take bytes or does not flush although there is no reason to. -/
structure Reckons {σ : Type} [Storage σ] [Meaning σ] (Good : σ → Prop) (faults : σ → Nat) : Prop
    extends Blames Good faults where
  flush : ∀ s, Good s → (plain s).closed = false → Storage.flush.Charged faults s
  le : ∀ (r : Request) (s : σ), faults s ≤ faults (r.run.run s).2

variable {σ : Type} [Storage σ] [Meaning σ] {f : Failures} {Good : σ → Prop} {faults : σ → Nat}

theorem Counts.reckons (h : Counts faults) (Good : σ → Prop) : Reckons Good faults where
  toBlames := h.blames Good
  flush s _ _ := charged_of_map (h.charged_run .flush s)
  le r s := (h.charged_run r s).state (fun _ _ hle => hle) fun _ _ hlt => Nat.le_of_lt hlt

theorem Reckons.kept (h : Reckons Good faults) (n : Nat) : Kept fun s => n ≤ faults s :=
  kept_of_requests fun r s hs => Nat.le_trans hs (h.le r s)

omit [Storage σ] in
theorem WriteBehind.Sound.behind {size : Nat} {c : WriteBehind σ} (hc : Sound Good size c) :
    Behind (fun _ _ => True) (fun _ => Good) size 0 c := ⟨trivial, 0, Nat.le_refl 0, hc⟩

theorem WriteBehind.charged_flush (h : Contract f Good) (hb : Blames Good faults)
    (hflush : ∀ s, Good s → (plain s).closed = false → Storage.flush.Charged faults s) {size : Nat}
    {c : WriteBehind σ} (hc : Sound Good size c) (ho : c.closed = false) :
    (Storage.flush : StoreM (WriteBehind σ) Unit).Charged (fun d => faults d.inner) c := by
  have hsettle := meets_settle h.unversioned hc.behind ho
  refine meets_get_bind (meets_requireOpen_bind ho ?_)
  apply (charged_settle h hb hc ho).bind hsettle
  rintro _ d ⟨hd, -, hp⟩
  have ho' : d.closed = false := (congrArg Memory.closed hp).trans ho
  exact (hflush d.inner hd.inner (hd.closed.trans ho')).zoom fun _ => rfl

theorem Tower.charged_flush {κ : Type} (h : Contract f Good) (hrec : Reckons Good faults) :
    ∀ (kinds : List LayerKind) (t : Tower κ σ kinds),
      Sound (fun _ _ => True) (fun _ => Good) kinds 0 t → (plain t).closed = false →
      Storage.flush.Charged (fun t => faults t.medium) t
  | [], t, ht, ho => hrec.flush t ht ho
  | .readAhead :: kinds, c, ⟨_, hc⟩, ho => by
    have hinner := charged_flush h hrec kinds c.inner hc.inner (hc.closed.trans ho)
    exact meets_get_bind (meets_requireOpen_bind ho (hinner.zoom fun _ => rfl))
  | .writeBehind :: kinds, c, ⟨_, hc⟩, ho =>
    WriteBehind.charged_flush (AnyTower.contract_of_medium h kinds) (blames h hrec.toBlames kinds)
      (charged_flush h hrec kinds) hc.sound ho
  | .blocks :: kinds, v, hv, ho =>
    BlockView.charged_onInner (charged_flush h hrec kinds v.inner hv ho)

theorem Reckons.of_kept {Fine : σ → Prop} (hb : Blames Fine faults)
    (hflush : ∀ s, Fine s → (plain s).closed = false → Storage.flush.Charged faults s)
    (h : ∀ n, Kept fun s => n ≤ faults s) : Reckons Fine faults where
  toBlames := hb
  flush := hflush
  le r s := (h (faults s)).request r (Nat.le_refl _)

theorem Reckons.tower {κ : Type} (h : Reckons Good faults) (hg : Contract f Good)
    (kinds : List LayerKind) :
    Reckons (Tower.Sound (κ := κ) (fun _ _ => True) (fun _ => Good) kinds 0)
      fun t => faults t.medium :=
  .of_kept (Tower.blames hg h.toBlames kinds) (Tower.charged_flush hg h kinds)
    fun n => Tower.kept_medium (h.kept n) kinds

theorem Blames.watched (h : Blames Good faults) :
    Blames (fun s : Watched σ => Good s.store) fun s => faults s.store where
  seek pos s hs ho hpos := Watched.meets_call (h.seek pos s.store hs ho hpos)
  write data s hs ho hd hfit := Watched.meets_call (h.write data s.store hs ho hd hfit)

theorem Reckons.watched (h : Reckons Good faults) :
    Reckons (fun s : Watched σ => Good s.store) fun s => faults s.store :=
  .of_kept h.toBlames.watched (fun s hs ho => Watched.meets_call (h.flush s.store hs ho))
    fun n => Watched.kept (h.kept n)

end Reckons

structure Sent where
  /-- The bytes, with their place. -/
  extent : Extent
  /-- Whether the write succeeded. -/
  whole : Bool

structure Fetch where
  pos : Nat
  count : Nat
  /-- The number of bytes that it gave. -/
  given : Nat

namespace Noted

variable {σ : Type} [Meaning σ]

def write? (n : Noted σ) : Option Sent :=
  match n.request with
  | .write data => some ⟨⟨(plain n.before).cursor, data⟩, n.answer.isOk⟩
  | _ => none

def read? (n : Noted σ) : Option Fetch :=
  match n.request, n.answer with
  | .read count, .ok (.given result) => some ⟨(plain n.before).cursor, count, result.data.size⟩
  | .read count, _ => some ⟨(plain n.before).cursor, count, 0⟩
  | _, _ => none

end Noted

namespace Watched

section Notes

variable {σ α β : Type} {f : Noted σ → Option β} {s : Watched σ} {r : Request}

theorem filterMap_concat (f : Noted σ → Option β) (calls : List (Noted σ)) (n : Noted σ) :
    (calls ++ [n]).filterMap f = calls.filterMap f ++ (f n).toList := by
  rw [List.filterMap_append]
  cases hn : f n with
  | none => rw [List.filterMap_cons_none hn]; rfl
  | some b => rw [List.filterMap_cons_some hn]; rfl

/-- Calls of which `f` takes no note leave what it has. -/
theorem ends_filterMap (hr : ∀ before answer after, f ⟨before, r, answer, after⟩ = none)
    (respond : α → Response) (act : StoreM σ α) :
    (call r respond act).Ends (fun t => t.calls.filterMap f = s.calls.filterMap f) s := by
  apply meets_call
  apply meets_true.imp
  · intro a t _
    rw [filterMap_concat, hr]
    exact List.append_nil _
  · intro e t _
    rw [filterMap_concat, hr]
    exact List.append_nil _

end Notes

variable {σ α : Type} [Meaning σ] {s : Watched σ} {r : Request}

def writes (s : Watched σ) : List Sent := s.calls.filterMap Noted.write?

def reads (s : Watched σ) : List Fetch := s.calls.filterMap Noted.read?

theorem writes_append (store : σ) (n : Noted σ) :
    writes ⟨store, s.calls ++ [n]⟩ = s.writes ++ n.write?.toList := filterMap_concat _ _ n

theorem reads_append (store : σ) (n : Noted σ) :
    reads ⟨store, s.calls ++ [n]⟩ = s.reads ++ n.read?.toList := filterMap_concat _ _ n

theorem ends_writes (hr : ∀ before answer after, Noted.write? (σ := σ) ⟨before, r, answer, after⟩ = none)
    (respond : α → Response) (act : StoreM σ α) :
    (call r respond act).Ends (fun t => t.writes = s.writes) s := ends_filterMap hr respond act

theorem ends_reads (hr : ∀ before answer after, Noted.read? (σ := σ) ⟨before, r, answer, after⟩ = none)
    (respond : α → Response) (act : StoreM σ α) :
    (call r respond act).Ends (fun t => t.reads = s.reads) s := ends_filterMap hr respond act

variable [Storage σ]

theorem meets_write_noted (data : Bytes) : (Storage.write data : StoreM (Watched σ) Unit).Meets s
    (fun _ t => t.writes = s.writes ++ [⟨⟨(plain s).cursor, data⟩, true⟩])
    fun _ t => t.writes = s.writes ++ [⟨⟨(plain s).cursor, data⟩, false⟩] :=
  meets_call (meets_true.imp (fun _ t _ => writes_append t _) fun _ t _ => writes_append t _)

theorem meets_read_noted (n : Nat) : (Storage.read n : StoreM (Watched σ) ReadResult).Meets s
    (fun r t => t.reads = s.reads ++ [⟨(plain s).cursor, n, r.data.size⟩])
    fun _ t => t.reads = s.reads ++ [⟨(plain s).cursor, n, 0⟩] :=
  meets_call (meets_true.imp (fun _ t _ => reads_append t _) fun _ t _ => reads_append t _)

end Watched

end ByteTower
