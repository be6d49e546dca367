import ByteTower.Proofs.Imitation

namespace ByteTower

open StoreM

/-- The answer to a read of `n` bytes of `m` is right, and `m'` is what the read leaves. -/
structure Memory.Reads (m : Memory) (n : Nat) (r : ReadResult) (m' : Memory) : Prop where
  eof_iff : r = .eof ↔ m.bytes.size ≤ m.cursor
  given : m.cursor < m.bytes.size → r = .bytes (m.bytes.slice m.cursor r.data.size)
  size_le : r.data.size ≤ min n (m.bytes.size - m.cursor)
  progress : m.cursor < m.bytes.size → 0 < n → 0 < r.data.size
  after : m' = { m with cursor := m.cursor + r.data.size }

namespace Memory

variable {m m' : Memory} {n : Nat} {r : ReadResult}

theorem reads_eof (hc : m.bytes.size ≤ m.cursor) (n : Nat) : m.Reads n .eof m where
  eof_iff := iff_of_true rfl hc
  given hlt := absurd hc (Nat.not_le.2 hlt)
  size_le := Nat.zero_le _
  progress hlt := absurd hc (Nat.not_le.2 hlt)
  after := rfl

theorem reads_slice (hc : m.cursor < m.bytes.size) {k : Nat} (hk : k ≤ n) (hpos : n = 0 ∨ 0 < k) :
    m.Reads n (.bytes (m.bytes.slice m.cursor k))
      { m with cursor := m.cursor + (m.bytes.slice m.cursor k).size } where
  eof_iff := iff_of_false (fun h => ReadResult.noConfusion h) (Nat.not_le.2 hc)
  given _ := congrArg ReadResult.bytes (Bytes.slice_size _ _ _).symm
  size_le := by
    simp only [ReadResult.data, Bytes.size_slice]
    omega
  progress _ hn := by
    simp only [ReadResult.data, Bytes.size_slice]
    omega
  after := rfl

/-- A shortened answer is a right one, where reads give something before the end. -/
theorem reads_of_answers (ho : m.closed = false)
    (h : Answers (Failures.never.Shortened n) m (.ok r) m') : m.Reads n r m' := by
  obtain ⟨_, ⟨k, hk, hpos, rfl⟩, hrun⟩ := h
  by_cases hc : m.cursor < m.bytes.size
  · rw [run_read ho k hc] at hrun
    obtain ⟨hr, hm⟩ := Prod.mk.inj hrun
    obtain rfl := Except.ok.inj hr
    obtain rfl := hm
    exact reads_slice hc hk (hpos.resolve_left id)
  · have hle := Nat.le_of_not_lt hc
    rw [run_read_eof ho k hle] at hrun
    obtain ⟨hr, hm⟩ := Prod.mk.inj hrun
    obtain rfl := Except.ok.inj hr
    obtain rfl := hm
    exact reads_eof hle n

end Memory

section Buffer

variable {buffer data : Bytes} {start : Nat}

/-- The caller's buffer after a read into it: what was read is in place, and all else is as it was. -/
structure Bytes.Filled (buffer : Bytes) (start : Nat) (data after : Bytes) : Prop where
  size : after.size = buffer.size
  inside : after.slice start data.size = data
  outside : ∀ i, i < start ∨ start + data.size ≤ i → after.byte? i = buffer.byte? i

theorem Bytes.filled_overwrite (h : start + data.size ≤ buffer.size) :
    buffer.Filled start data (buffer.overwrite start data) where
  size := by
    rw [size_overwrite]
    omega
  inside := by
    apply ext_byte
    grind
  outside i hi := by grind

end Buffer

namespace Tower

variable {κ μ : Type} [Meaning μ]

/-- The position lies beyond the end of a store under a layer that has bytes pending further on, and
no layer has bytes pending there. -/
def InGap (pos : Nat) : {kinds : List LayerKind} → Tower κ μ kinds → Prop
  | [], _ => False
  | .readAhead :: _, c => InGap pos c.inner
  | .writeBehind :: _, c =>
    (∃ p ∈ c.pending, (plain c.inner).bytes.size ≤ pos ∧ pos < p.start) ∨
      (∀ p ∈ c.pending, pos ∉ p.region) ∧ InGap pos c.inner
  | .blocks :: _, v => InGap pos v.inner

instance decidableInGap (pos : Nat) :
    {kinds : List LayerKind} → (t : Tower κ μ kinds) → Decidable (InGap pos t)
  | [], _ => .isFalse id
  | .readAhead :: _, c => decidableInGap pos c.inner
  | .writeBehind :: _, c =>
    have := decidableInGap pos c.inner
    inferInstanceAs (Decidable (_ ∨ _ ∧ _))
  | .blocks :: _, v => decidableInGap pos v.inner

theorem byte?_of_inGap {pos : Nat} : ∀ {kinds : List LayerKind} {t : Tower κ μ kinds},
    InGap pos t → (plain t).bytes.byte? pos = some 0
  | [], _, h => h.elim
  | .readAhead :: _, c, h => byte?_of_inGap (t := c.inner) h
  | .writeBehind :: _, c, .inl ⟨p, hp, hle, hlt⟩ => by
    show (Extent.seen c.pending (plain c.inner).bytes).byte? pos = some 0
    rw [Option.mem_def.1 hp, Extent.seen, Bytes.byte?_overwrite, if_pos hlt, if_neg (Nat.not_lt.2 hle)]
  | .writeBehind :: _, c, .inr ⟨hout, h⟩ => by
    -- what shows outside the pending bytes is what lies below
    have hzero := byte?_of_inGap (t := c.inner) h
    show (Extent.seen c.pending (plain c.inner).bytes).byte? pos = some 0
    cases hpending : c.pending with
    | none => exact hzero
    | some p =>
      have hmem := hout p hpending
      simp only [Region.mem_iff, Extent.region, Region.stop] at hmem
      have hsize := mt Bytes.byte?_eq_none.2 (by rw [hzero]; exact Option.some_ne_none 0)
      rw [Extent.seen, Bytes.byte?_overwrite]
      split
      · rw [if_pos (Nat.lt_of_not_le hsize)]
        exact hzero
      · rw [if_neg (by omega)]
        exact hzero
  | .blocks :: _, v, h => byte?_of_inGap (t := v.inner) h

end Tower

section Store

variable {σ τ : Type} [Storage σ] [Storage τ] {s : σ}

theorem run_readWithin {n : Nat} {r : ReadResult} {t : σ} (hr : (Storage.read n).run s = (.ok r, t))
    {buffer : Bytes} {start : Nat} (hfit : start + n ≤ buffer.size) :
    (Storage.readWithin buffer start n).run s = (.ok (r, buffer.overwrite start r.data), t) := by
  unfold Storage.readWithin checkSlice
  rw [if_neg (Nat.not_lt.2 hfit)]
  exact run_bind_ok hr _

theorem run_readWithin_error {n : Nat} {e : StoreError} (hr : (Storage.read n).run s = (.error e, t))
    {buffer : Bytes} {start : Nat} (hfit : start + n ≤ buffer.size) :
    (Storage.readWithin buffer start n).run s = (.error e, t) := by
  unfold Storage.readWithin checkSlice
  rw [if_neg (Nat.not_lt.2 hfit)]
  exact run_bind_error hr _

variable [Meaning σ] [Meaning τ] {Good : σ → Prop} {Fine : τ → Prop} {view : σ → τ}

/-- An open good store says where its cursor is and how long it is, and every read of it is right. -/
structure Readable (Good : σ → Prop) : Prop where
  cursor : ∀ s, Good s → (plain s).closed = false →
    Storage.cursor.Meets s (fun pos _ => pos = (plain s).cursor) fun _ _ => False
  length : ∀ s, Good s → (plain s).closed = false →
    Storage.length.Meets s (fun n _ => n = (plain s).bytes.size) fun _ _ => False
  read : ∀ n s, Good s → (plain s).closed = false →
    (Storage.read n).Meets s (fun r t => Good t ∧ (plain s).Reads n r (plain t)) fun _ _ => False

theorem Contract.readable (h : Contract .never Good) : Readable Good where
  cursor _ hs ho := (h.meets_cursor hs ho).imp (fun _ _ ht => ht.2.1) fun _ _ hf => hf.2.1
  length _ hs ho := (h.meets_length hs ho).imp (fun _ _ ht => ht.2.1) fun _ _ hf => hf.2.1
  read n s hs ho := by
    apply Meets.imp (h.read n s hs)
    · exact fun r t ht => ⟨ht.1, Memory.reads_of_answers ho ht.2⟩
    · -- in memory no read of an open store fails
      rintro e t ⟨-, ⟨_, ⟨k, -, -, rfl⟩, hrun⟩ | ⟨hf, -⟩⟩
      · by_cases hc : (plain s).cursor < (plain s).bytes.size
        · rw [Memory.run_read ho k hc] at hrun
          cases (Prod.mk.inj hrun).1
        · rw [Memory.run_read_eof ho k (Nat.le_of_not_lt hc)] at hrun
          cases (Prod.mk.inj hrun).1
      · exact hf

theorem Readable.of_readsLike (hf : Readable Fine) (h : ReadsLike Good view)
    (hp : ∀ s, Good s → plain (view s) = plain s) : Readable fun s => Good s ∧ Fine (view s) where
  cursor s hs ho := by
    have hview := hp s hs.1
    have hcursor := (h.cursor s hs.1).meets (hf.cursor (view s) hs.2 (hview ▸ ho))
    exact hcursor.imp (fun _ _ ht => hview ▸ ht.2) fun _ _ ht => ht.2
  length s hs ho := by
    have hview := hp s hs.1
    have hlength := (h.length s hs.1).meets (hf.length (view s) hs.2 (hview ▸ ho))
    exact hlength.imp (fun _ _ ht => hview ▸ ht.2) fun _ _ ht => ht.2
  read n s hs ho := by
    have hview := hp s hs.1
    have hread := (h.read n s hs.1).meets (hf.read n (view s) hs.2 (hview ▸ ho))
    refine hread.imp (fun r t ht => ⟨⟨ht.1, ht.2.1⟩, ?_⟩) fun _ _ ht => ht.2
    rw [← hview, ← hp t ht.1]
    exact ht.2.2

end Store

/-- A read of `n` bytes of a tower does what it is made for: its answer and what it leaves are right,
what it gives of a gap is zero, it touches nothing of a buffer but the bytes that it gives, and what
the store says of its cursor and its length is what the layers show. -/
def AnyTower.ReadsWell {κ μ : Type} [Storage μ] [Meaning μ] (t : AnyTower κ μ) (n : Nat) : Prop :=
  ∃ r t', (Storage.read n).run t.tower = (.ok r, t') ∧ (plain t.tower).Reads n r (plain t') ∧
    (∀ i < r.data.size, t.tower.InGap ((plain t.tower).cursor + i) → r.data.byte? i = some 0) ∧
    (∀ buffer start, start + n ≤ buffer.size →
      ∃ after, (Storage.readWithin buffer start n).run t.tower = (.ok (r, after), t') ∧
        Bytes.Filled buffer start r.data after) ∧
    (∃ u, Storage.cursor.run t.tower = (.ok (plain t.tower).cursor, u)) ∧
    (∃ u, Storage.length.run t.tower = (.ok (plain t.tower).bytes.size, u)) ∧
    ∃ u, Storage.length.run t' = (.ok (plain t.tower).bytes.size, u)

/-- Every sound tower over a medium whose reads are right reads as it should. -/
theorem Tower.exists_readable {κ μ : Type} [Storage μ] [Meaning μ] {Sane Good : μ → Prop}
    (h : Legible Good) (kinds : List LayerKind) :
    ∃ P : Tower κ μ kinds → Prop, Readable P ∧ ∀ t,
      Sound (fun _ _ => True) (fun _ => Sane) kinds 0 t → Good t.medium → P t := by
  obtain ⟨ν, _, _, view, Fine, hfine, hreads, hview⟩ := h
  have hreadable := (AnyTower.contract_of_medium (κ := κ) hfine kinds).readable
  refine ⟨_, hreadable.of_readsLike (Tower.readsLike hreads kinds) ?_, ?_⟩
  · exact fun t ht => plain_reseat (hview t.medium ht).2
  · intro t ht hgood
    obtain ⟨hmedium, hp⟩ := hview t.medium hgood
    exact ⟨hgood, sound_reseat ht hmedium hp⟩

/-- Whatever has been done before to a tower, and whatever failed in it, a read does what it is made for
as long as the tower is open and its medium has no faults left and gives a byte at least before its
end. -/
theorem read_contract {κ ω ς ρ μ : Type} [Audience κ ω] [Collector ς] [ByteSource ρ] [Storage μ]
    [Meaning μ] {f : Failures} {Sane Good : μ → Prop} (h : Contract f Sane) (hlegible : Legible Good)
    {m : μ} (hm : Sane m) (world : ω) (actions : List (Action κ ς ρ)) {t : AnyTower κ μ}
    (ht : t = (leave (actions.map Action.run) (AnyTower.ofMedium m, world)).1)
    (hgood : Good t.medium) (hopen : Storage.isClosed t.tower = false) (n : Nat) :
    t.ReadsWell n := by
  have hsound : t.Intact Sane := ht ▸ AnyTower.intact_leave h hm world actions
  have ho : (plain t.tower).closed = false :=
    ((AnyTower.contract_of_medium h t.kinds).isClosed t.tower hsound).symm.trans hopen
  obtain ⟨P, hreadable, hP⟩ := Tower.exists_readable (κ := κ) hlegible t.kinds
  have hs := hP t.tower hsound hgood
  obtain ⟨r, t', hread, hs', hreads⟩ := (hreadable.read n t.tower hs ho).exists_run
  have hbytes : (plain t').bytes = (plain t.tower).bytes := by rw [hreads.after]
  have ho' : (plain t').closed = false := by
    rw [hreads.after]
    exact ho
  refine ⟨r, t', hread, hreads, ?_, ?_, ?_, ?_, ?_⟩
  · intro i hi hgap
    have hle := hreads.size_le
    have hlt : (plain t.tower).cursor < (plain t.tower).bytes.size := by omega
    have hdata : r.data = (plain t.tower).bytes.slice (plain t.tower).cursor r.data.size :=
      congrArg ReadResult.data (hreads.given hlt)
    rw [hdata, Bytes.byte?_slice, if_pos hi]
    exact Tower.byte?_of_inGap hgap
  · intro buffer start hfit
    have hle := hreads.size_le
    exact ⟨_, run_readWithin hread hfit, Bytes.filled_overwrite (by omega)⟩
  · obtain ⟨_, u, hrun, rfl⟩ := (hreadable.cursor t.tower hs ho).exists_run
    exact ⟨u, hrun⟩
  · obtain ⟨_, u, hrun, rfl⟩ := (hreadable.length t.tower hs ho).exists_run
    exact ⟨u, hrun⟩
  · obtain ⟨_, u, hrun, rfl⟩ := (hreadable.length t' hs' ho').exists_run
    exact ⟨u, by rw [← hbytes]; exact hrun⟩

def sipping : Dripping := { memory := .ofBytes (.ofOctets [1, 2, 3]), portion := fun i => i % 2 + 1 }

/-- Two bytes are written beyond the end and held back there, with the cursor left in the gap. -/
def beyondEnd : List (Action String EndlessSink ThrottledSource) :=
  [.step (.wrap (.writeBehind 4)), .step (.store (.seek 6)),
    .step (.store (.write (.ofOctets [9, 9]))), .step (.wrap (.readAhead 3)),
    .step (.wrap (.blocks 2)), .step (.store (.seek 0)), .read 3, .step (.store (.seek 4))]

/-- A read that starts in the gap and ends in what is pending. -/
theorem read_contract_across_gap :
    sipping.Bounded ∧ ∃ t : AnyTower String Dripping,
      t = (leave (beyondEnd.map Action.run) (AnyTower.ofMedium sipping, ({} : Cast))).1 ∧
      Storage.isClosed t.tower = false ∧ t.tower.InGap 5 ∧
      ((Storage.read 4).run t.tower).1.toOption.map (fun r => Bytes.octets r.data) =
        some [0, 0, 9] ∧ t.ReadsWell 4 := by
  have hbounded : sipping.Bounded := by
    constructor
    · unfold Memory.Bounded
      decide
    · intro i
      exact Nat.succ_pos _
  refine ⟨hbounded, _, rfl, ?_, ?_, ?_, ?_⟩
  · decide +kernel
  · decide +kernel
  · decide +kernel
  · have hmedium := AnyTower.good_medium_leave Dripping.contract hbounded ({} : Cast) beyondEnd rfl
    exact read_contract Dripping.contract Dripping.contract.faultless.legible hbounded ({} : Cast)
      beyondEnd rfl hmedium (by decide +kernel) 4

end ByteTower
