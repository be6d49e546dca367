import ByteTower.Medium.Probe
import ByteTower.Proofs.Memory

namespace ByteTower

open StoreM

namespace Memory

def Bounded (m : Memory) : Prop := m.bytes.size ≤ maxPosition

theorem meets_resize_bounded {m : Memory} (hm : m.Bounded) (n : Nat) :
    (Storage.resize n : StoreM Memory Unit).Meets m (fun _ t => t.Bounded) fun _ t => t.Bounded := by
  cases hc : m.closed with
  | false =>
    by_cases hle : n ≤ maxPosition
    · apply meets_of_ok (run_resize hc hle)
      rw [Bounded, Bytes.size_resize]
      exact hle
    · exact meets_of_error (run_resize_refused hc (Nat.lt_of_not_le hle)) hm
  | true => exact meets_of_error (run_resize_closed hc n) hm

theorem meets_write_bounded {m : Memory} (hm : m.Bounded) (data : Bytes) :
    (Storage.write data : StoreM Memory Unit).Meets m (fun _ t => t.Bounded)
      fun _ t => t.Bounded := by
  cases hc : m.closed with
  | false =>
    by_cases hd : data.size = 0
    · exact meets_of_ok (run_write_nothing hc hd) hm
    · have hd := Nat.pos_of_ne_zero hd
      by_cases hle : m.cursor + data.size ≤ maxPosition
      · apply meets_of_ok (run_write hc hd hle)
        rw [Bounded, Bytes.size_overwrite]
        exact Nat.max_le.2 ⟨hm, hle⟩
      · exact meets_of_error (run_write_refused hc hd (Nat.lt_of_not_le hle)) hm
  | true => exact meets_of_error (run_write_closed hc data) hm

theorem contract : Contract .never Bounded where
  length _ hm := follows_self rfl (keeps_length (p := fun b => b.size ≤ maxPosition) hm)
  cursor _ hm := follows_self rfl (keeps_cursor (p := fun b => b.size ≤ maxPosition) hm)
  seek pos _ hm := follows_self rfl (keeps_seek (p := fun b => b.size ≤ maxPosition) hm pos)
  read n _ hm := follows_self ⟨n, Nat.le_refl n, Or.inr (Nat.eq_zero_or_pos n), rfl⟩
    (keeps_read (p := fun b => b.size ≤ maxPosition) hm n)
  flush _ hm := follows_self rfl (keeps_flush (p := fun b => b.size ≤ maxPosition) hm)
  close _ hm := follows_self rfl (keeps_close (p := fun b => b.size ≤ maxPosition) hm)
  isClosed _ _ := rfl
  bounded _ hm := Or.inr hm
  still _ hm := hm
  resize n _ hm := follows_self rfl (meets_resize_bounded hm n)
  write data _ hm := follows_self rfl (meets_write_bounded hm data)

end Memory

namespace Probe

instance : Meaning Probe := ⟨memory⟩

def Bound (f : Failures) (p : Probe) : Prop :=
  (∀ size, f.tear size) ∨ ∀ fault ∈ p.faults, fault.2.torn = 0

variable {f : Failures} {p : Probe}

theorem bound_setFault (hp : p.Bound f) {call : Call} {fault : Fault}
    (hf : (∀ size, f.tear size) ∨ fault.torn = 0) : (p.setFault call fault).Bound f := by
  rcases hp with hp | hp
  · exact Or.inl hp
  rcases hf with hf | hf
  · exact Or.inl hf
  apply Or.inr
  intro entry hentry
  simp only [setFault, List.mem_cons] at hentry
  -- the entry is the new one, or one of those for other calls
  rcases hentry with rfl | hentry
  · exact hf
  · exact hp entry (List.mem_filter.1 hentry).1

theorem torn_of_lookup (hp : p.Bound f) {call : Call} {fault : Fault}
    (hl : p.faults.lookup call = some fault) : (∀ size, f.tear size) ∨ fault.torn = 0 := by
  apply hp.imp id
  intro hp
  obtain ⟨l₁, l₂, hl, -⟩ := List.lookup_eq_some_iff.1 hl
  exact hp (call, fault) (hl ▸ by simp)

/-- A fault either lets a call pass, and changes at most the faults, or does what it tears. -/
theorem meets_passOr (hp : p.Bound f) (tear : Nat → Memory → Memory) (call : Call) :
    (passOr tear call).Meets p (fun _ q => q.Bound f ∧ q.memory = p.memory ∧ q.maxRead = p.maxRead)
      fun _ q => q.Bound f ∧ ∃ k, ((∀ size, f.tear size) ∨ k = 0) ∧ q.memory = tear k p.memory := by
  apply meets_get_bind
  split
  case h_1 => exact meets_pure ⟨hp, rfl, rfl⟩
  case h_2 count hl =>
    exact meets_set_bind (meets_throw ⟨hp, count, torn_of_lookup hp hl, rfl⟩)
  case h_3 grace count hl =>
    have htorn := torn_of_lookup hp hl
    exact meets_set ⟨bound_setFault hp htorn, rfl, rfl⟩

variable (hocc : f.occur) (hdrift : f.drift)

include hocc

theorem follows_passOr {α : Type} {loss : Memory → Memory → Prop} {act : StoreM Memory α}
    {models : StoreM Memory α → Prop} (hp : p.Bound f) (tear : Nat → Memory → Memory) (call : Call)
    (hl : ∀ k, ((∀ size, f.tear size) ∨ k = 0) → loss p.memory (tear k p.memory))
    (hmodel : models act) :
    Follows f (Bound f) (Bound f) loss (passOr tear call >>= fun _ => onMemory act) models p := by
  refine ((meets_passOr hp tear call).imp_error ?_).bind ?_
  · rintro e q ⟨hq, k, hk, hm⟩
    exact ⟨hq, Or.inr ⟨hocc, by simp only [plain, hm]; exact hl k hk⟩⟩
  · rintro _ q ⟨hq, hm, -⟩
    have hact : Follows f (fun _ => True) (fun _ => True) loss act models q.memory :=
      Memory.follows_act hmodel q.memory
    refine Meets.zoom (Meets.imp hact ?_ ?_)
    · rintro a m ⟨-, hrun⟩
      rw [hm] at hrun
      exact ⟨hq, hrun⟩
    · rintro e m ⟨-, hrun⟩
      rw [hm] at hrun
      exact ⟨hq, hrun⟩

theorem follows_pass {α : Type} {act : StoreM Memory α} {models : StoreM Memory α → Prop}
    (hp : p.Bound f) (call : Call) (hmodel : models act) :
    Follows f (Bound f) (Bound f) f.Spares (pass call >>= fun _ => onMemory act) models p :=
  follows_passOr hocc hp (fun _ => id) call (fun _ _ => Failures.Spares.rfl) hmodel

omit hocc in
theorem meets_checkLimit (p : Probe) (length : Nat) :
    (checkLimit length).Meets p (fun _ q => q = p) fun _ q => q = p := by
  apply meets_get_bind
  split
  · exact meets_throw rfl
  · exact meets_pure rfl

theorem follows_checkLimit {α : Type} {loss : Memory → Memory → Prop} {act : StoreM Probe α}
    {models : StoreM Memory α → Prop} (hl : ∀ m, loss m m) (hp : p.Bound f) (length : Nat)
    (hact : Follows f (Bound f) (Bound f) loss act models p) :
    Follows f (Bound f) (Bound f) loss (checkLimit length >>= fun _ => act) models p := by
  refine ((meets_checkLimit p length).imp_error ?_).bind ?_
  · rintro _ _ rfl
    exact ⟨hp, Or.inr ⟨hocc, hl _⟩⟩
  · rintro _ _ rfl
    exact hact

omit hocc in
/-- What a fault makes of the memory is what a write of the first bytes makes of it, if anything. -/
theorem tears_tear (hdrift : f.drift) {data : Bytes} {count : Nat}
    (hk : (∀ size, f.tear size) ∨ count = 0) (m : Memory) : f.Tears data m (tear data count m) := by
  have hk : f.tear data.size ∨ count = 0 := hk.imp (fun ht => ht _) id
  -- where the position is too large, the write of the first bytes is refused as a whole
  have hw := Memory.effect_write m (data.slice 0 count)
  rcases hr : (Storage.write (data.slice 0 count) : StoreM Memory Unit).run m with ⟨e | a, t⟩
  · have ht : tear data count m = m := (congrArg Prod.snd hr).trans (hw.of_run_error hr)
    rw [ht]
    exact Failures.Spares.rfl.tears data
  · have ht : tear data count m = t := congrArg Prod.snd hr
    obtain ⟨hb, hc⟩ := hw.of_run_ok hr
    rw [ht]
    exact ⟨count, hk, hb, hc, Or.inl hdrift⟩

include hdrift in
theorem contract : Contract f (Bound f) where
  length _ hp := follows_pass hocc hp .length rfl
  cursor _ hp := follows_pass hocc hp .cursor rfl
  seek _ _ hp := follows_pass hocc hp .seek rfl
  read n p hp := meets_get_bind (meets_modify_bind (follows_pass hocc
    (p := { p with traffic := .read n p.mark :: p.traffic }) hp .read
    ⟨min n (p.maxRead.getD n), Nat.min_le_left _ _, Or.inl hocc, rfl⟩))
  flush p hp := meets_modify_bind
    (follows_pass hocc (p := { p with traffic := .flush :: p.traffic }) hp .flush rfl)
  close p hp := meets_modify_bind
    (follows_pass hocc (p := { p with traffic := .close :: p.traffic }) hp .close rfl)
  isClosed _ _ := rfl
  bounded _ _ := Or.inl hocc
  still _ hp := hp
  resize n p hp := meets_modify_bind (follows_checkLimit hocc (fun _ => Failures.Spares.rfl)
    (p := { p with traffic := .resize n :: p.traffic }) hp n (follows_pass hocc
      (p := { p with traffic := .resize n :: p.traffic }) hp .resize rfl))
  write data p hp := by
    refine meets_get_bind (meets_modify_bind ?_)
    have hwrite : Follows f (Bound f) (Bound f) (f.Tears data)
        (passOr (tear data) .write >>= fun _ => onMemory (Storage.write data))
        (Eq (Storage.write data)) { p with traffic := .write data p.mark :: p.traffic } :=
      follows_passOr hocc (p := { p with traffic := .write data p.mark :: p.traffic }) hp (tear data)
        .write (fun _ hk => tears_tear hdrift hk p.memory) rfl
    split
    · exact hwrite
    · exact follows_checkLimit hocc (fun _ => Failures.Spares.rfl.tears data)
        (p := { p with traffic := .write data p.mark :: p.traffic }) hp _ hwrite

end Probe

/-- Memory whose calls are counted and fail by a schedule. -/
structure Scheduled where
  memory : Memory
  /-- Why the call with this number fails, if it does, and how many bytes it has written if it is
  a write. -/
  schedule : Nat → Option (StoreError × Nat)
  calls : Nat := 0

namespace Scheduled

def onMemory {α : Type} (act : StoreM Memory α) : StoreM Scheduled α :=
  act.zoom memory fun memory s => { s with memory }

def call {α : Type} (tear : Nat → Memory → Memory) (act : StoreM Memory α) : StoreM Scheduled α := do
  let s ← get
  match s.schedule s.calls with
  | none =>
    set { s with calls := s.calls + 1 }
    onMemory act
  | some (cause, count) =>
    set { s with memory := tear count s.memory, calls := s.calls + 1 }
    throw cause

instance : Storage Scheduled where
  length := call (fun _ => id) Storage.length
  resize n := call (fun _ => id) (Storage.resize n)
  cursor := call (fun _ => id) Storage.cursor
  seek pos := call (fun _ => id) (Storage.seek pos)
  read n := call (fun _ => id) (Storage.read n)
  write data := call (Probe.tear data) (Storage.write data)
  flush := call (fun _ => id) Storage.flush
  close := call (fun _ => id) Storage.close
  isClosed s := s.memory.closed
  release := id

instance : Meaning Scheduled := ⟨memory⟩

def Bound (f : Failures) (s : Scheduled) : Prop :=
  (∀ size, f.tear size) ∨ ∀ n entry, s.schedule n = some entry → entry.2 = 0

variable {f : Failures} (hocc : f.occur)

include hocc

theorem follows_call {α : Type} {s : Scheduled} {loss : Memory → Memory → Prop}
    {act : StoreM Memory α} {models : StoreM Memory α → Prop} (hs : s.Bound f)
    (tear : Nat → Memory → Memory)
    (hl : ∀ k, ((∀ size, f.tear size) ∨ k = 0) → loss s.memory (tear k s.memory))
    (hmodel : models act) : Follows f (Bound f) (Bound f) loss (call tear act) models s := by
  apply meets_get_bind
  split
  case h_1 =>
    have hact : Follows f (fun _ => True) (fun _ => True) loss act models s.memory :=
      Memory.follows_act hmodel s.memory
    exact meets_set_bind (Meets.zoom (hact.imp (fun _ _ => hs) fun _ _ => hs))
  case h_2 cause count hn =>
    have hloss := hl count (hs.imp id fun hs => hs _ _ hn)
    exact meets_set_bind (meets_throw ⟨hs, Or.inr ⟨hocc, hloss⟩⟩)

theorem follows_whole {α : Type} {s : Scheduled} {act : StoreM Memory α}
    {models : StoreM Memory α → Prop} (hs : s.Bound f) (hmodel : models act) :
    Follows f (Bound f) (Bound f) f.Spares (call (fun _ => id) act) models s :=
  follows_call hocc hs (fun _ => id) (fun _ _ => Failures.Spares.rfl) hmodel

theorem contract (hdrift : f.drift) : Contract f (Bound f) where
  length _ hs := follows_whole hocc hs rfl
  cursor _ hs := follows_whole hocc hs rfl
  seek _ _ hs := follows_whole hocc hs rfl
  read n _ hs := follows_whole hocc hs ⟨n, Nat.le_refl n, Or.inl hocc, rfl⟩
  flush _ hs := follows_whole hocc hs rfl
  close _ hs := follows_whole hocc hs rfl
  isClosed _ _ := rfl
  bounded _ _ := Or.inl hocc
  still _ hs := hs
  resize _ _ hs := follows_whole hocc hs rfl
  write data s hs := follows_call hocc hs (Probe.tear data)
    (fun _ hk => Probe.tears_tear hdrift hk s.memory) rfl

end Scheduled

/-- Memory whose reads are counted and come up short. -/
structure Dripping where
  memory : Memory
  /-- The most bytes that the read with this number gives. -/
  portion : Nat → Nat
  reads : Nat := 0

namespace Dripping

def onMemory {α : Type} (act : StoreM Memory α) : StoreM Dripping α :=
  act.zoom memory fun memory s => { s with memory }

instance : Storage Dripping where
  length := onMemory Storage.length
  resize n := onMemory (Storage.resize n)
  cursor := onMemory Storage.cursor
  seek pos := onMemory (Storage.seek pos)
  read n := do
    let s ← get
    set { s with reads := s.reads + 1 }
    onMemory (Storage.read (min n (s.portion s.reads)))
  write data := onMemory (Storage.write data)
  flush := onMemory Storage.flush
  close := onMemory Storage.close
  isClosed s := s.memory.closed
  release := id

instance : Meaning Dripping := ⟨memory⟩

/-- No more bytes than positions, and no read that gives nothing. -/
def Bounded (s : Dripping) : Prop := s.memory.Bounded ∧ ∀ i, 0 < s.portion i

theorem follows_onMemory {α : Type} {s : Dripping} {loss : Memory → Memory → Prop}
    {act : StoreM Memory α} {models : StoreM Memory α → Prop} (hs : ∀ i, 0 < s.portion i)
    (h : Follows .never Memory.Bounded Memory.Bounded loss act models s.memory) :
    Follows .never Bounded Bounded loss (onMemory act) models s :=
  Meets.zoom (h.imp (fun _ hm => ⟨hm, hs⟩) fun _ hm => ⟨hm, hs⟩)

theorem contract : Contract .never Bounded where
  length _ hs := follows_onMemory hs.2 (Memory.contract.length _ hs.1)
  cursor _ hs := follows_onMemory hs.2 (Memory.contract.cursor _ hs.1)
  seek pos _ hs := follows_onMemory hs.2 (Memory.contract.seek pos _ hs.1)
  read n s hs := by
    have hpos : n = 0 ∨ 0 < min n (s.portion s.reads) := by
      have := hs.2 s.reads
      omega
    refine meets_get_bind (meets_set_bind (follows_onMemory
      (s := { s with reads := s.reads + 1 }) hs.2 (Memory.follows_self ?_ ?_)))
    · exact ⟨_, Nat.min_le_left n (s.portion s.reads), Or.inr hpos, rfl⟩
    · exact Memory.keeps_read (p := fun b => b.size ≤ maxPosition) hs.1 _
  flush _ hs := follows_onMemory hs.2 (Memory.contract.flush _ hs.1)
  close _ hs := follows_onMemory hs.2 (Memory.contract.close _ hs.1)
  isClosed _ _ := rfl
  bounded _ hs := Or.inr hs.1
  still _ hs := hs
  resize n _ hs := follows_onMemory hs.2 (Memory.contract.resize n _ hs.1)
  write data _ hs := follows_onMemory hs.2 (Memory.contract.write data _ hs.1)

end Dripping

/-- A medium with the number of calls on it that have failed. -/
structure Tallied (μ : Type) where
  medium : μ
  failed : Nat := 0

namespace Tallied

variable {μ α : Type}

def call (act : StoreM μ α) : StoreM (Tallied μ) α :=
  .ofRun fun s =>
    match act.run s.medium with
    | (.ok a, medium) => (.ok a, { s with medium })
    | (.error e, medium) => (.error e, { medium, failed := s.failed + 1 })

instance [Storage μ] : Storage (Tallied μ) where
  length := call Storage.length
  resize n := call (Storage.resize n)
  cursor := call Storage.cursor
  seek pos := call (Storage.seek pos)
  read n := call (Storage.read n)
  write data := call (Storage.write data)
  flush := call Storage.flush
  close := call Storage.close
  isClosed s := Storage.isClosed s.medium
  release s := { s with medium := Storage.release s.medium }

instance [Meaning μ] : Meaning (Tallied μ) := ⟨fun s => plain s.medium⟩

theorem meets_call {act : StoreM μ α} {s : Tallied μ} {good : α → Tallied μ → Prop}
    {bad : StoreError → Tallied μ → Prop}
    (h : act.Meets s.medium (fun a m => good a { s with medium := m })
      fun e m => bad e { medium := m, failed := s.failed + 1 }) :
    (call act).Meets s good bad := by
  rcases hr : act.run s.medium with ⟨e | a, m⟩
  · exact meets_of_error (by simp only [call, hr]) (h.of_run_error hr)
  · exact meets_of_ok (by simp only [call, hr]) (h.of_run_ok hr)

variable [Meaning μ] {f : Failures} {Good After : μ → Prop}

theorem follows_call {loss : Memory → Memory → Prop} {act : StoreM μ α}
    {models : StoreM Memory α → Prop} {s : Tallied μ}
    (h : Follows f Good After loss act models s.medium) :
    Follows f (fun s => Good s.medium) (fun s => After s.medium) loss (call act) models s :=
  meets_call h

theorem contract [Storage μ] (h : Contract f Good) : Contract f fun s : Tallied μ => Good s.medium where
  length s hs := follows_call (h.length s.medium hs)
  cursor s hs := follows_call (h.cursor s.medium hs)
  seek pos s hs := follows_call (h.seek pos s.medium hs)
  read n s hs := follows_call (h.read n s.medium hs)
  flush s hs := follows_call (h.flush s.medium hs)
  close s hs := follows_call (h.close s.medium hs)
  isClosed s hs := h.isClosed s.medium hs
  bounded s hs := h.bounded s.medium hs
  still _ hs := hs
  resize n s hs := follows_call (h.resize n s.medium hs)
  write data s hs := follows_call (h.write data s.medium hs)

end Tallied

end ByteTower
