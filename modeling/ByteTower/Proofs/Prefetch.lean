import ByteTower.Proofs.Delivery
import ByteTower.Proofs.Refusal
import ByteTower.Proofs.Watching

namespace ByteTower

open StoreM

namespace ReadAhead

section Serves

variable {σ : Type} [Storage σ] [Meaning σ]

/-- Where a read of `n` bytes reads, if the store has `length` bytes. -/
def wanted (c : ReadAhead σ) (n length : Nat) : Region := ⟨c.cursor, min n (length - c.cursor)⟩

def fetchSize (c : ReadAhead σ) (length : Nat) : Nat := min c.windowSize (length - c.cursor)

/-- An open layer whose wrapped store says, without a read, that it has `length` bytes. -/
structure Measured (c : ReadAhead (Watched σ)) (length : Nat) (t : Watched σ) : Prop where
  isOpen : c.closed = false
  run : Storage.length.run c.inner = (.ok length, t)
  reads : t.reads = c.inner.reads

/-- A read of `n` bytes finds some before the end, but not all of them in the window. -/
structure Lacks (c : ReadAhead σ) (n length : Nat) : Prop where
  inside : c.cursor < length
  pos : 0 < n
  uncovered : ¬c.window.region.Covers (c.wanted n length)

structure Placed (c : ReadAhead (Watched σ)) (t t' : Watched σ) : Prop where
  run : (Storage.seek c.cursor).run t = (.ok (), t')
  reads : t'.reads = c.inner.reads
  cursor : (plain t').cursor = c.cursor

/-- The layer `c` when it has made room for a fetch, over a store that is left as `t`. What is in the
buffer for a fetch is no part of what is served. -/
def prepared (c : ReadAhead σ) (length : Nat) (t : σ) : ReadAhead σ :=
  { c with inner := t, spare := c.spare.resize (c.fetchSize length) }

/-- What a read of `n` bytes of the layer `c` answers, and what it leaves. -/
inductive Serves (c : ReadAhead (Watched σ)) (n : Nat) :
    Except StoreError ReadResult → ReadAhead (Watched σ) → Prop
  | closed (hc : c.closed = true) : Serves c n (.error .closed) c
  /-- The wrapped store does not say how long it is. -/
  | unmeasured {e : StoreError} {t : Watched σ} (ho : c.closed = false)
    (hl : Storage.length.run c.inner = (.error e, t)) (hr : t.reads = c.inner.reads) :
    Serves c n (.error e) { c with inner := t }
  | eof {length : Nat} {t : Watched σ} (hm : Measured c length t) (hp : length ≤ c.cursor) :
    Serves c n (.ok .eof) { c with inner := t }
  | empty {length : Nat} {t : Watched σ} (hm : Measured c length t) (hp : c.cursor < length)
    (hn : n = 0) : Serves c n (.ok (.bytes ByteArray.empty)) { c with inner := t }
  /-- All that is wanted is in the window. -/
  | hit {length : Nat} {t : Watched σ} {data : Bytes} (hm : Measured c length t)
    (hp : c.cursor < length) (hn : 0 < n) (hw : c.window.region.Covers (c.wanted n length))
    (hd : data = c.window.read c.cursor data.size) (hsize : data.size = min n (length - c.cursor)) :
    Serves c n (.ok (.bytes data))
      { c with inner := t, cursor := c.cursor + data.size, hits := c.hits + 1 }
  /-- The place to fetch from is not found. -/
  | unplaced {length : Nat} {t t' : Watched σ} {e : StoreError} (hm : Measured c length t)
    (hl : Lacks c n length) (hs : (Storage.seek c.cursor).run t = (.error e, t'))
    (hr : t'.reads = c.inner.reads) : Serves c n (.error e) (c.prepared length t')
  | unfetched {length : Nat} {t t' t'' : Watched σ} {e : StoreError} (hm : Measured c length t)
    (hl : Lacks c n length) (hs : Placed c t t')
    (hf : (Storage.read (c.fetchSize length)).run t' = (.error e, t''))
    (hr : t''.reads = c.inner.reads ++ [⟨c.cursor, c.fetchSize length, 0⟩]) :
    Serves c n (.error e) (c.prepared length t'')
  /-- The fetch gives nothing, although it is made before the end. -/
  | barren {length : Nat} {t t' t'' : Watched σ} {result : ReadResult} (hm : Measured c length t)
    (hl : Lacks c n length) (hs : Placed c t t')
    (hf : (Storage.read (c.fetchSize length)).run t' = (.ok result, t''))
    (hnone : result.data.size = 0)
    (hr : t''.reads = c.inner.reads ++ [⟨c.cursor, c.fetchSize length, 0⟩]) :
    Serves c n (.error (.io (.gaveNothing c.cursor length))) (c.prepared length t'')
  /-- The fetch gives a window. -/
  | miss {length : Nat} {t t' t'' : Watched σ} {result : ReadResult} (hm : Measured c length t)
    (hl : Lacks c n length) (hs : Placed c t t')
    (hf : (Storage.read (c.fetchSize length)).run t' = (.ok result, t''))
    (hsome : 0 < result.data.size)
    (hr : t''.reads = c.inner.reads ++ [⟨c.cursor, c.fetchSize length, result.data.size⟩]) :
    Serves c n (.ok (.bytes (result.data.slice 0 n)))
      { (c.prepared length t'').adopt c.cursor result.data with
        cursor := c.cursor + min n result.data.size }

variable {f : Failures} {Good : σ → Prop} {size : Nat} {c d : ReadAhead (Watched σ)}

theorem meets_inner {τ α : Type} (act : StoreM τ α) (c : ReadAhead τ) : (onInner act).Meets c
    (fun a d => ∃ t, d = { c with inner := t } ∧ act.run c.inner = (.ok a, t))
    fun e d => ∃ t, d = { c with inner := t } ∧ act.run c.inner = (.error e, t) :=
  Meets.zoom (meets_iff.2 ⟨fun _ t ht => ⟨t, rfl, ht⟩, fun _ t ht => ⟨t, rfl, ht⟩⟩)

omit [Storage σ] [Meaning σ] in
theorem size_read_of_covers {w : Window} (hv : w.valid ≤ w.buffer.size) {pos n : Nat} (hn : 0 < n)
    (hw : w.region.Covers ⟨pos, n⟩) : (w.read pos n).size = n := by
  rw [Region.Covers, if_neg (Nat.ne_of_gt hn)] at hw
  obtain ⟨hstart, hstop⟩ := hw
  simp only [Window.region, Region.stop] at hstart hstop
  rw [Window.read, Bytes.size_slice]
  omega

omit [Storage σ] [Meaning σ] in
theorem read_fetched (spare data : Bytes) (pos n : Nat) :
    Window.read { start := pos, buffer := spare.overwrite 0 data, valid := data.size } pos n =
      data.slice 0 n := by
  apply Bytes.ext_octets
  have hlen : data.octets.length = data.size := Bytes.length_octets data
  simp only [Window.read, Nat.sub_self, Nat.sub_zero, Bytes.octets_slice, Bytes.octets_overwrite,
    List.drop_zero, List.take_zero, Nat.zero_sub, List.replicate_zero, List.nil_append]
  rw [List.take_append_of_le_length (by omega), List.take_eq_take_iff]
  omega

omit [Storage σ] [Meaning σ] in
theorem meets_serve_run {τ : Type} (c : ReadAhead τ) (n : Nat) (bad : StoreError → ReadAhead τ → Prop) :
    (serve n).Meets c (fun r d => r = .bytes (c.window.read c.cursor n) ∧
      d = { c with cursor := c.cursor + (c.window.read c.cursor n).size }) bad :=
  meets_get_bind (meets_set_bind (meets_pure ⟨rfl, rfl⟩))

section Miss

variable (h : Contract f Good) (hc : Sound (fun s => Good s.store) size c) {n length : Nat}
variable {t t' : Watched σ} (hm : Measured c length t) (hl : Lacks c n length)

include h hc hm hl

theorem serves_place : (onInner (Storage.seek c.cursor)).Meets (c.prepared length t)
    (fun _ d => ∃ t', d = c.prepared length t' ∧ Placed c t t' ∧ Good t'.store ∧
      (plain t').closed = false ∧ (plain t').bytes.size = length)
    fun e d => Serves c n (.error e) d := by
  have hw := Watched.contract h
  have ho := hc.closed.trans hm.isOpen
  have hinside := hl.inside
  obtain ⟨ht, hlen, hp⟩ := (hw.meets_length hc.inner ho).of_run_ok hm.run
  -- a fetch starts before the end, which is a position
  have hpos : f.occur ∨ c.cursor ≤ maxPosition :=
    (hw.bounded c.inner hc.inner).imp id fun hb => by omega
  have hquiet : (Storage.seek c.cursor : StoreM (Watched σ) Unit).Ends
      (fun t' => t'.reads = t.reads) t := Watched.ends_reads (fun _ _ _ => rfl) _ _
  refine (meets_inner (Storage.seek c.cursor) (c.prepared length t)).imp ?_ ?_
  · rintro _ _ ⟨t', rfl, hs⟩
    obtain ⟨ht', hp'⟩ := (hw.meets_seek ht (by rw [hp]; exact ho) hpos).of_run_ok hs
    rw [hp] at hp'
    refine ⟨t', rfl, ⟨hs, (hquiet.of_run_ok hs).trans hm.reads, by rw [hp']⟩, ht', ?_, ?_⟩
    · rw [hp']
      exact ho
    · rw [hp']
      exact hlen.symm
  · rintro e _ ⟨t', rfl, hs⟩
    exact .unplaced hm hl hs ((hquiet.of_run_error hs).trans hm.reads)

omit hc in
theorem serves_fetch (hs : Placed c t t') (ht : Good t'.store) (ho : (plain t').closed = false)
    (hlen : (plain t').bytes.size = length) :
    (onInner (Storage.read (c.fetchSize length))).Meets (c.prepared length t')
      (fun result d => ∃ t'', d = c.prepared length t'' ∧
        (Storage.read (c.fetchSize length)).run t' = (.ok result, t'') ∧
        t''.reads = c.inner.reads ++ [⟨c.cursor, c.fetchSize length, result.data.size⟩] ∧
        result.data.size ≤ c.fetchSize length)
      fun e d => Serves c n (.error e) d := by
  have hnoted := Watched.meets_read_noted (s := t') (c.fetchSize length)
  rw [hs.reads, hs.cursor] at hnoted
  refine (meets_inner (Storage.read (c.fetchSize length)) (c.prepared length t')).imp ?_ ?_
  · rintro result _ ⟨t'', rfl, hf⟩
    have hread := ((Watched.contract h).read (c.fetchSize length) t' ht).meets_read ho
      (by rw [hs.cursor, hlen]; exact hl.inside)
    have hr := hnoted.of_run_ok hf
    obtain ⟨-, k, hk, -, rfl, -⟩ := hread.of_run_ok hf
    refine ⟨t'', rfl, hf, hr, ?_⟩
    simp only [ReadResult.data, Bytes.size_slice]
    omega
  · rintro e _ ⟨t'', rfl, hf⟩
    exact .unfetched hm hl hs hf (hnoted.of_run_error hf)

/-- A fetch moves the wrapped cursor, reads once, and succeeds if bytes come. -/
theorem serves_refill : (refill c.cursor length).Meets { c with inner := t }
    (fun _ d => ∃ t' t'' result, Placed c t t' ∧
      (Storage.read (c.fetchSize length)).run t' = (.ok result, t'') ∧
      0 < result.data.size ∧ result.data.size ≤ c.fetchSize length ∧
      t''.reads = c.inner.reads ++ [⟨c.cursor, c.fetchSize length, result.data.size⟩] ∧
      d = (c.prepared length t'').adopt c.cursor result.data)
    fun e d => Serves c n (.error e) d := by
  refine meets_get_bind (meets_modify_bind ((serves_place h hc hm hl).bind ?_))
  rintro _ _ ⟨t', rfl, hs, ht, ho, hlen⟩
  apply (serves_fetch h hm hl hs ht ho hlen).bind
  rintro result _ ⟨t'', rfl, hf, hr, hle⟩
  split
  case isTrue hnone =>
    rw [hnone] at hr
    exact meets_throw (.barren hm hl hs hf hnone hr)
  case isFalse hsome =>
    exact meets_modify ⟨t', t'', result, hs, hf, Nat.pos_of_ne_zero hsome, hle, hr, rfl⟩

theorem serves_miss : (do
    refill c.cursor length
    serve (min n (length - c.cursor))).Meets { c with inner := t }
    (fun r d => Serves c n (.ok r) d) fun e d => Serves c n (.error e) d := by
  apply (serves_refill h hc hm hl).bind
  rintro _ _ ⟨t', t'', result, hs, hf, hsome, hle, hr, rfl⟩
  -- no more bytes come than there are before the end
  have hserved : ((c.prepared length t'').adopt c.cursor result.data).window.read c.cursor
      (min n (length - c.cursor)) = result.data.slice 0 n := by
    unfold fetchSize at hle
    refine (read_fetched _ _ _ _).trans (Bytes.ext_octets ?_)
    have hlen : result.data.octets.length = result.data.size := Bytes.length_octets _
    rw [Bytes.octets_slice, Bytes.octets_slice, List.drop_zero, List.take_eq_take_iff]
    omega
  have hsize : min n result.data.size = (result.data.slice 0 n).size := by
    rw [Bytes.size_slice, Nat.sub_zero]
  have hmiss := Serves.miss hm hl hs hf hsome hr
  rw [hsize, ← hserved] at hmiss
  refine (meets_serve_run _ _ _).imp_ok ?_
  rintro _ _ ⟨rfl, rfl⟩
  exact hmiss

end Miss

theorem serves_length (ho : c.closed = false) (n : Nat) : (onInner Storage.length).Meets c
    (fun length d => ∃ t, d = { c with inner := t } ∧ Measured c length t)
    fun e d => Serves c n (.error e) d := by
  have hquiet : (Storage.length : StoreM (Watched σ) Nat).Ends
      (fun t => t.reads = c.inner.reads) c.inner := Watched.ends_reads (fun _ _ _ => rfl) _ _
  refine (meets_inner Storage.length c).imp ?_ ?_
  · rintro length _ ⟨t, rfl, hl⟩
    exact ⟨t, rfl, ho, hl, hquiet.of_run_ok hl⟩
  · rintro e _ ⟨t, rfl, hl⟩
    exact .unmeasured ho hl (hquiet.of_run_error hl)

/-- Every read of a sound layer is answered in one of these ways. -/
theorem serves_read (h : Contract f Good) (hc : Sound (fun s => Good s.store) size c) (n : Nat) :
    (Storage.read n : StoreM (ReadAhead (Watched σ)) ReadResult).Meets c
      (fun r d => Serves c n (.ok r) d) fun e d => Serves c n (.error e) d := by
  cases ho : c.closed with
  | true => exact meets_of_error (run_refused ho _) (.closed ho)
  | false =>
    refine meets_get_bind (meets_requireOpen_bind ho ((serves_length ho n).bind ?_))
    rintro length _ ⟨t, rfl, hm⟩
    apply meets_get_bind
    split
    case isTrue hp => exact meets_pure (.eof hm hp)
    case isFalse hp =>
      have hinside : c.cursor < length := Nat.lt_of_not_le hp
      split
      case isTrue hn => exact meets_pure (.empty hm hinside hn)
      case isFalse hn =>
        have hpos := Nat.pos_of_ne_zero hn
        dsimp only
        split
        case isTrue hw =>
          have hsome : 0 < min n (length - c.cursor) := by omega
          have hsize := size_read_of_covers hc.mirrors.valid_le hsome hw
          refine meets_set_bind ((meets_serve_run _ _ _).imp_ok ?_)
          rintro _ _ ⟨rfl, rfl⟩
          exact .hit hm hinside hpos hw (by rw [hsize]) hsize
        case isFalse hw => exact serves_miss h hc hm ⟨hinside, hpos, hw⟩

theorem Serves.of_error {n : Nat} {e : StoreError} (h : Serves c n (.error e) d) :
    d = { c with inner := d.inner, spare := d.spare } := by
  cases h with
  | closed | unmeasured | unplaced | unfetched | barren => rfl

end Serves

section Quiet

variable {σ : Type} [Meaning σ] {c d : ReadAhead (Watched σ)}

/-- Nothing has been fetched, and the counts are as they were. -/
structure Quiet (c d : ReadAhead (Watched σ)) : Prop where
  reads : d.inner.reads = c.inner.reads
  hits : d.hits = c.hits
  misses : d.misses = c.misses

theorem quiet_onInner {α : Type} {act : StoreM (Watched σ) α} (hd : Quiet c d)
    (h : act.Ends (fun t => t.reads = d.inner.reads) d.inner) : (onInner act).Ends (Quiet c) d :=
  Meets.zoom (h.imp (fun _ _ ht => ⟨ht.trans hd.reads, hd.hits, hd.misses⟩)
    fun _ _ ht => ⟨ht.trans hd.reads, hd.hits, hd.misses⟩)

variable [Storage σ]

theorem quiet_write (data : Bytes) :
    (Storage.write data : StoreM (ReadAhead (Watched σ)) Unit).Ends (Quiet c) c := by
  have hself : Quiet c c := ⟨rfl, rfl, rfl⟩
  refine meets_get_bind ((ends_requireOpen hself c.closed).bind ?_)
  intro _ d hd
  split
  case isTrue => exact meets_pure hd
  case isFalse =>
    apply (ends_endOf hd _ _).bind
    intro _ d hd
    apply (quiet_onInner hd (Watched.ends_reads (fun _ _ _ => rfl) _ _)).bind
    intro _ d hd
    have hwrite : (tryCatch (onInner (Storage.write data)) fun e => do
        modify invalidate
        throw e).Ends (Quiet c) d := by
      apply Meets.handle (quiet_onInner hd (Watched.ends_reads (fun _ _ _ => rfl) _ _))
      intro e d hd
      exact meets_modify_bind (meets_throw ⟨hd.reads, hd.hits, hd.misses⟩)
    exact hwrite.bind fun _ d hd => meets_modify ⟨hd.reads, hd.hits, hd.misses⟩

/-- Nothing but a read fetches or counts. -/
theorem quiet_run {r : Request} (hr : ∀ n, r ≠ .read n) (c : ReadAhead (Watched σ)) :
    r.run.Ends (Quiet c) c := by
  have hself : Quiet c c := ⟨rfl, rfl, rfl⟩
  cases r with
  | read n => exact absurd rfl (hr n)
  | length =>
    refine Meets.map (meets_get_bind ((ends_requireOpen hself c.closed).bind ?_))
    exact fun _ d hd => quiet_onInner hd (Watched.ends_reads (fun _ _ _ => rfl) _ _)
  | cursor =>
    refine Meets.map (meets_get_bind ((ends_requireOpen hself c.closed).bind ?_))
    exact fun _ _ hd => meets_pure hd
  | seek pos =>
    refine Meets.map (meets_get_bind ((ends_requireOpen hself c.closed).bind ?_))
    exact fun _ _ hd => (ends_checkPosition hd pos).bind fun _ _ _ => meets_set ⟨rfl, rfl, rfl⟩
  | write data => exact Meets.map (quiet_write data)
  | resize n =>
    refine Meets.map (meets_get_bind ((ends_requireOpen hself c.closed).bind ?_))
    intro _ d hd
    apply (quiet_onInner hd (Watched.ends_reads (fun _ _ _ => rfl) _ _)).bind
    exact fun _ d hd => meets_modify ⟨hd.reads, hd.hits, hd.misses⟩
  | flush =>
    refine Meets.map (meets_get_bind ((ends_requireOpen hself c.closed).bind ?_))
    exact fun _ d hd => quiet_onInner hd (Watched.ends_reads (fun _ _ _ => rfl) _ _)
  | close =>
    refine Meets.map (meets_get_bind ?_)
    split
    case isTrue => exact meets_pure hself
    case isFalse =>
      apply (quiet_onInner hself (Watched.ends_reads (fun _ _ _ => rfl) _ _)).bind
      exact fun _ d hd => meets_modify ⟨hd.reads, hd.hits, hd.misses⟩

end Quiet

end ReadAhead

/-- The number of reads that gave a byte or more. -/
def fruitful (reads : List Fetch) : Nat := reads.countP fun r => 0 < r.given

@[simp] theorem fruitful_append (first second : List Fetch) :
    fruitful (first ++ second) = fruitful first + fruitful second := List.countP_append

theorem fruitful_singleton (r : Fetch) : fruitful [r] = if 0 < r.given then 1 else 0 := by
  simp [fruitful]

def gained : Except StoreError ReadResult → Nat
  | .ok result => result.data.size
  | .error _ => 0

namespace Noted

variable {σ : Type} [Meaning σ]

theorem read?_read (before after : σ) (n : Nat) (answer : Except StoreError ReadResult) :
    read? ⟨before, .read n, answer.map .given, after⟩ =
      some ⟨(plain before).cursor, n, gained answer⟩ := by
  cases answer <;> rfl

theorem read?_of_ne {r : Request} (hr : ∀ n, r ≠ .read n) (before after : σ)
    (answer : Except StoreError Response) : read? ⟨before, r, answer, after⟩ = none := by
  cases r with
  | read n => exact absurd rfl (hr n)
  | length | resize | cursor | seek | write | flush | close => rfl

end Noted

namespace ReadAhead

section Counted

variable {σ : Type} [Storage σ] [Meaning σ] {f : Failures} {Good : σ → Prop} {size n : Nat}
variable {c d : ReadAhead (Watched σ)} {answer : Except StoreError ReadResult}

theorem Serves.fetched (h : Serves c n answer d) :
    d.misses + fruitful c.inner.reads = c.misses + fruitful d.inner.reads := by
  cases h with
  | closed => rfl
  | unmeasured _ _ hr => rw [hr]
  | eof hm | empty hm | hit hm => rw [hm.reads]
  | unplaced _ _ _ hr => simp only [prepared, hr]
  | unfetched _ _ _ _ hr | barren _ _ _ _ _ hr =>
    simp only [prepared, hr, fruitful_append]
    rfl
  | miss _ _ _ _ hsome hr =>
    simp only [prepared, adopt, hr, fruitful_append, fruitful_singleton, if_pos hsome]
    omega

theorem Serves.served (h : Serves c n answer d) :
    d.hits + d.misses = c.hits + c.misses + if 0 < gained answer then 1 else 0 := by
  cases h with
  | closed | unmeasured | eof | empty | unplaced | unfetched | barren => rfl
  | @hit length _ _ _ hp hn _ _ hsize =>
    have hpos : 0 < min n (length - c.cursor) := by omega
    simp only [gained, ReadResult.data, hsize, if_pos hpos]
    omega
  | @miss _ _ _ _ result _ hl _ _ hsome _ =>
    have hn := hl.pos
    have hpos : 0 < min n (result.data.size - 0) := by omega
    simp only [gained, ReadResult.data, Bytes.size_slice, prepared, adopt] at hpos ⊢
    rw [if_pos hpos]
    omega

variable {calls : List (Noted (ReadAhead (Watched σ)))}

/-- The counts are what the notes say. -/
structure Counted (Good : σ → Prop) (size : Nat) (c : ReadAhead (Watched σ))
    (calls : List (Noted (ReadAhead (Watched σ)))) : Prop where
  sound : Sound (fun s => Good s.store) size c
  served : c.hits + c.misses = fruitful (Watched.mk c calls).reads
  fetched : c.misses = fruitful c.inner.reads

theorem sound_step (h : Contract f Good) (hc : Sound (fun s => Good s.store) size c) (r : Request) :
    Sound (fun s => Good s.store) size (r.run.run c).2 :=
  ((tracks (Watched.contract h).unversioned size).contract 0).kept.request r hc

theorem serves_run (h : Contract f Good) (hc : Sound (fun s => Good s.store) size c) (n : Nat) :
    Serves c n ((Storage.read n).run c).1 ((Storage.read n).run c).2 := by
  have hserves := serves_read h hc n
  rcases hr : (Storage.read n).run c with ⟨e | result, d⟩
  · exact hserves.of_run_error hr
  · exact hserves.of_run_ok hr

theorem Counted.step (h : Contract f Good) (hc : Counted Good size c calls) (r : Request) :
    Counted Good size (r.run.run c).2 (calls ++ [⟨c, r, (r.run.run c).1, (r.run.run c).2⟩]) := by
  have hnotes : fruitful (Watched.mk (r.run.run c).2
      (calls ++ [⟨c, r, (r.run.run c).1, (r.run.run c).2⟩])).reads = c.hits + c.misses +
        fruitful (Noted.read? ⟨c, r, (r.run.run c).1, (r.run.run c).2⟩).toList := by
    rw [hc.served, ← fruitful_append]
    exact congrArg fruitful (Watched.reads_append (s := ⟨c, calls⟩) _ _)
  suffices hcounts : (r.run.run c).2.hits + (r.run.run c).2.misses =
        c.hits + c.misses +
          fruitful (Noted.read? ⟨c, r, (r.run.run c).1, (r.run.run c).2⟩).toList ∧
      (r.run.run c).2.misses = fruitful (r.run.run c).2.inner.reads from
    ⟨sound_step h hc.sound r, hcounts.1.trans hnotes.symm, hcounts.2⟩
  by_cases hr : ∃ n, r = .read n
  · obtain ⟨n, rfl⟩ := hr
    have hserves := serves_run h hc.sound n
    have hfetched := hserves.fetched
    rw [hc.fetched] at hfetched
    simp only [Request.run, run_map]
    rw [Noted.read?_read, Option.toList_some, fruitful_singleton]
    exact ⟨hserves.served, by omega⟩
  · have hother : ∀ n, r ≠ .read n := fun n hn => hr ⟨n, hn⟩
    have hquiet := ends_iff.1 (quiet_run hother c)
    rw [Noted.read?_of_ne hother, hquiet.hits, hquiet.misses, hquiet.reads]
    exact ⟨rfl, hc.fetched⟩

theorem Counted.kept (h : Contract f Good) :
    Kept fun u : Watched (ReadAhead (Watched σ)) => Counted Good size u.store u.calls :=
  Watched.kept_of_step fun r _ _ hc => hc.step h r

omit [Storage σ] in
theorem Counted.invalidate (hc : Counted Good size c calls) : Counted Good size c.invalidate calls :=
  ⟨hc.sound.invalidate, hc.served, hc.fetched⟩

theorem Counted.of_wrap (h : Contract f Good) {s : σ} (hs : Good s) (hw : wrap size ⟨s, []⟩ = .ok c) :
    Counted Good size c [] := by
  have hsound := (ReadAhead.of_wrap ((Watched.contract h).unversioned.reading 0) hs hw).1
  obtain ⟨_, cursor, t, hrun, rfl⟩ := wrap_eq_ok.1 hw
  have hcursor : (Storage.cursor : StoreM (Watched σ) Nat).Ends (fun t => t.reads = []) ⟨s, []⟩ :=
    Watched.ends_reads (fun _ _ _ => rfl) _ _
  have hnone := ends_iff.1 hcursor
  rw [hrun] at hnone
  exact ⟨hsound, rfl, (congrArg fruitful hnone).symm⟩

end Counted

/-- What is done next to a layer: something to a tower that is built on it, or its window is
dropped. -/
inductive Usage (κ ς ρ : Type)
  | act (next : Action κ ς ρ)
  | invalidate

section Runs

variable {κ ω ς ρ : Type} [Audience κ ω] [Collector ς] [ByteSource ρ]

def Usage.run {σ : Type} [Storage σ] :
    Usage κ ς ρ → StoreM (AnyTower κ (Watched (ReadAhead (Watched σ))) × ω) Unit
  | act next => next.run
  | invalidate =>
    modify fun p => (p.1.mapMedium fun u => { u with store := u.store.invalidate }, p.2)

theorem Counted.leave {σ : Type} [Storage σ] [Meaning σ] {f : Failures} {Good : σ → Prop} {size : Nat}
    {c : ReadAhead (Watched σ)} {calls : List (Noted (ReadAhead (Watched σ)))}
    (h : Contract f Good) (hc : Counted Good size c calls) (world : ω)
    (usages : List (Usage κ ς ρ)) {u : Watched (ReadAhead (Watched σ))}
    (hu : u = (leave (usages.map Usage.run) (AnyTower.ofMedium ⟨c, calls⟩, world)).1.medium) :
    Counted Good size u.store u.calls := by
  have hstep : ∀ act ∈ usages.map Usage.run, ∀ p : AnyTower κ (Watched (ReadAhead (Watched σ))) × ω,
      Counted Good size p.1.medium.store p.1.medium.calls →
      Counted Good size (act.run p).2.1.medium.store (act.run p).2.1.medium.calls := by
    intro act hact p hp
    obtain ⟨usage, -, rfl⟩ := List.mem_map.1 hact
    cases usage with
    | act next => exact (AnyTower.medium_invariant (Counted.kept h)).action hp next
    | invalidate =>
      have hmedium := Tower.medium_mapMedium (fun u : Watched (ReadAhead (Watched σ)) =>
        { u with store := u.store.invalidate }) p.1.tower
      have hcounted := congrArg (fun u => Counted Good size u.store u.calls) hmedium
      exact hcounted.mpr hp.invalidate
  rw [hu]
  exact leave_of_step hstep hc

end Runs

end ReadAhead

section Runs

variable {κ ω ς ρ μ : Type} [Audience κ ω] [Collector ς] [ByteSource ρ] [Storage μ] [Meaning μ]

/-- Over any tower, whatever is built on it and done there, and however often its window is dropped:
a read of a layer is served from the window, or by one fetch, or with no fetch at all, and one that
fails leaves the window, the counts and the cursor. Nothing else fetches. The layer counts the reads
that gave a byte or more, and among them the fetches that did. -/
theorem prefetch_accounted {f : Failures} {Good : μ → Prop} (h : Contract f Good) {m : μ} (hm : Good m)
    (world world' : ω) (below : List (Action κ ς ρ)) (above : List (ReadAhead.Usage κ ς ρ))
    {t : AnyTower κ μ} (ht : t = (leave (below.map Action.run) (AnyTower.ofMedium m, world)).1)
    {size : Nat} {c : ReadAhead (Watched (Tower κ μ t.kinds))}
    (hc : ReadAhead.wrap size ⟨t.tower, []⟩ = .ok c)
    {u : Watched (ReadAhead (Watched (Tower κ μ t.kinds)))}
    (hu : u = (leave (above.map ReadAhead.Usage.run)
      (AnyTower.ofMedium ⟨c, []⟩, world')).1.medium) :
    u.store.windowSize = size ∧
      (∀ n, ReadAhead.Serves u.store n ((Storage.read n).run u.store).1
        ((Storage.read n).run u.store).2) ∧
      (∀ n e d, (Storage.read n).run u.store = (.error e, d) →
        d = { u.store with inner := d.inner, spare := d.spare }) ∧
      (∀ r : Request, (∀ n, r ≠ .read n) →
        (r.run.run u.store).2.inner.reads = u.store.inner.reads) ∧
      u.store.invalidate.inner.reads = u.store.inner.reads ∧
      (Storage.release u.store).inner.reads = u.store.inner.reads ∧
      u.store.hits + u.store.misses = fruitful u.reads ∧
      u.store.misses = fruitful u.store.inner.reads := by
  have hintact : t.Intact Good := ht ▸ AnyTower.intact_leave h hm world below
  have hcontract := AnyTower.contract_of_medium (κ := κ) h t.kinds
  have hcounted := (ReadAhead.Counted.of_wrap hcontract hintact hc).leave hcontract world' above hu
  refine ⟨hcounted.sound.windowSize, ReadAhead.serves_run hcontract hcounted.sound, ?_, ?_, rfl, rfl,
    hcounted.served, hcounted.fetched⟩
  · intro n e d hrun
    exact ((ReadAhead.serves_read hcontract hcounted.sound n).of_run_error hrun).of_error
  · intro r hr
    exact (ends_iff.1 (ReadAhead.quiet_run hr u.store)).reads

end Runs

def unsteady : AnyTower String (Tallied Scheduled) := AnyTower.ofMedium stumbling

/-- Reads while calls fail, then reads that give bytes, and one at the end. -/
def retries : List (ReadAhead.Usage String EndlessSink ThrottledSource) :=
  [.act (.read 2), .act (.read 2), .act (.step (.wrap (.blocks 2))), .act (.read 2), .act (.read 2),
    .act (.read 3), .invalidate, .act (.read 1)]

/-- The first read does not find its place, and the fetch of the second one fails. Then there are two
misses with a hit between them. -/
theorem prefetch_accounted_of_retries :
    ∃ (c : ReadAhead (Watched (Tower String (Tallied Scheduled) unsteady.kinds)))
      (u : Watched (ReadAhead (Watched (Tower String (Tallied Scheduled) unsteady.kinds)))),
      ReadAhead.wrap 4 ⟨unsteady.tower, []⟩ = .ok c ∧
      u = (leave (retries.map ReadAhead.Usage.run)
        (AnyTower.ofMedium ⟨c, []⟩, ({} : Cast))).1.medium ∧
      (u.store.inner.reads.map fun r => (r.pos, r.count, r.given)) =
        [(0, 4, 0), (0, 4, 4), (4, 2, 2)] ∧
      (u.reads.map fun r => r.given) = [0, 0, 2, 2, 2, 0] ∧ u.store.hits = 1 ∧
      u.store.misses = 2 ∧ u.store.hits + u.store.misses = fruitful u.reads ∧
      u.store.misses = fruitful u.store.inner.reads := by
  have hgood : stumbling.medium.Bound .torn := Or.inl fun _ => trivial
  have hrun := fun (c : ReadAhead (Watched (Tower String (Tallied Scheduled) unsteady.kinds)))
      (hc : ReadAhead.wrap 4 ⟨unsteady.tower, []⟩ = .ok c) =>
    prefetch_accounted (Tallied.contract (Scheduled.contract trivial trivial)) hgood ({} : Cast)
      ({} : Cast) [] retries (t := unsteady) rfl hc rfl
  refine ⟨_, _, rfl, rfl, ?_, ?_, ?_, ?_, (hrun _ rfl).2.2.2.2.2.2⟩
  · decide +kernel
  · decide +kernel
  · decide +kernel
  · decide +kernel

end ByteTower
