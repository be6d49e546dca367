import ByteTower.Proofs.Reader

namespace ByteTower

open StoreM Storage

section Loop

variable {σ : Type} [Storage σ] {wanted fuel : Nat} {s t u : σ} {got : Bytes} {r : ReadResult}

/-- Reads into the state's buffer from `filled` on, in at most `fuel` reads, until it has `wanted`
bytes. -/
def Storage.readFully (wanted : Nat) : (fuel filled : Nat) → StoreM (σ × Bytes) Unit
  | 0, _ => pure ()
  | fuel + 1, filled =>
    if filled < wanted then do
      let (_, buffer) ← get
      let (result, buffer) ← onFirst (readWithin buffer filled (wanted - filled))
      modify fun (s, _) => (s, buffer)
      if result.data.size = 0 then throw (.io (.endedEarly filled wanted))
      else readFully wanted fuel (filled + result.data.size)
    else pure ()

-- What `gather` does, by what the next read does.

theorem gather_of_enough (h : wanted ≤ got.size) (fuel : Nat) :
    (gather wanted fuel).run (s, got) = (.ok (), s, got) := by
  cases fuel with
  | zero => rfl
  | succ fuel =>
    simp only [gather, run_bind, run_get]
    rw [if_neg (Nat.not_lt.2 h), run_pure]

theorem gather_of_error (h : got.size < wanted) {e : StoreError}
    (hr : (Storage.read (wanted - got.size)).run s = (.error e, t)) (fuel : Nat) :
    (gather wanted (fuel + 1)).run (s, got) = (.error e, t, got) := by
  simp only [gather, run_bind, run_get]
  rw [if_pos h, run_bind, run_onFirst, hr]

theorem gather_of_none (h : got.size < wanted)
    (hr : (Storage.read (wanted - got.size)).run s = (.ok r, t)) (hz : r.data.size = 0) (fuel : Nat) :
    (gather wanted (fuel + 1)).run (s, got) = (.error (.io (.endedEarly got.size wanted)), t, got) := by
  simp only [gather, run_bind, run_get]
  rw [if_pos h, run_bind, run_onFirst, hr]
  simp only [hz, if_pos, run_throw]

theorem gather_of_some (h : got.size < wanted)
    (hr : (Storage.read (wanted - got.size)).run s = (.ok r, t)) (hz : r.data.size ≠ 0) (fuel : Nat) :
    (gather wanted (fuel + 1)).run (s, got) = (gather wanted fuel).run (t, got ++ r.data) := by
  simp only [gather, run_bind, run_get]
  rw [if_pos h, run_bind, run_onFirst, hr]
  simp only [hz, if_false, run_bind, run_modify]

/-- Reads for what is still wanted of `wanted` bytes, one after the other and none of them empty, have
given `got` and led from `s` to this state. -/
inductive Draws (wanted : Nat) (s : σ) : Bytes → σ → Prop
  | nothing : Draws wanted s ByteArray.empty s
  | read {got : Bytes} {t u : σ} {r : ReadResult} : Draws wanted s got t → got.size < wanted →
      (Storage.read (wanted - got.size)).run t = (.ok r, u) → r.data.size ≠ 0 →
      Draws wanted s (got ++ r.data) u

/-- How the reads come to an end: with all that is wanted, with an empty read, or with one that
fails. -/
inductive Stops (wanted : Nat) (s : σ) : Except StoreError Unit → Bytes → σ → Prop
  | enough {got : Bytes} {t : σ} : Draws wanted s got t → wanted ≤ got.size →
      Stops wanted s (.ok ()) got t
  | ended {got : Bytes} {t u : σ} {r : ReadResult} : Draws wanted s got t → got.size < wanted →
      (Storage.read (wanted - got.size)).run t = (.ok r, u) → r.data.size = 0 →
      Stops wanted s (.error (.io (.endedEarly got.size wanted))) got u
  | failed {got : Bytes} {t u : σ} {e : StoreError} : Draws wanted s got t → got.size < wanted →
      (Storage.read (wanted - got.size)).run t = (.error e, u) → Stops wanted s (.error e) got u

/-- Whatever the store does, the reads come to an end, and more rounds than bytes change nothing. -/
theorem Draws.exists_stops {got : Bytes} {t : σ} (hd : Draws wanted s got t) :
    ∃ outcome all u, Stops wanted s outcome all u ∧ ∀ fuel, wanted ≤ got.size + fuel →
      (gather wanted fuel).run (t, got) = (outcome, u, all) := by
  by_cases h : wanted ≤ got.size
  · exact ⟨_, got, t, .enough hd h, fun fuel _ => gather_of_enough h fuel⟩
  have hlt := Nat.lt_of_not_le h
  rcases hr : (Storage.read (wanted - got.size)).run t with ⟨e | r, u⟩
  · refine ⟨_, got, u, .failed hd hlt hr, fun fuel hfuel => ?_⟩
    obtain ⟨fuel, rfl⟩ : ∃ k, fuel = k + 1 := Nat.exists_eq_add_one.2 (by omega)
    exact gather_of_error hlt hr fuel
  by_cases hz : r.data.size = 0
  · refine ⟨_, got, u, .ended hd hlt hr hz, fun fuel hfuel => ?_⟩
    obtain ⟨fuel, rfl⟩ : ∃ k, fuel = k + 1 := Nat.exists_eq_add_one.2 (by omega)
    exact gather_of_none hlt hr hz fuel
  · have hsize : (got ++ r.data).size = got.size + r.data.size := ByteArray.size_append
    obtain ⟨outcome, all, v, hstops, hrun⟩ := exists_stops (.read hd hlt hr hz)
    refine ⟨outcome, all, v, hstops, fun fuel hfuel => ?_⟩
    obtain ⟨fuel, rfl⟩ : ∃ k, fuel = k + 1 := Nat.exists_eq_add_one.2 (by omega)
    rw [gather_of_some hlt hr hz]
    exact hrun fuel (by omega)
termination_by wanted - got.size
decreasing_by omega

theorem run_readFully {buffer : Bytes} (hfit : wanted ≤ buffer.size) (fuel : Nat) (got : Bytes) :
    (readFully wanted fuel got.size).run (t, buffer.overwrite 0 got) =
      (((gather wanted fuel).run (t, got)).1, ((gather wanted fuel).run (t, got)).2.1,
        buffer.overwrite 0 ((gather wanted fuel).run (t, got)).2.2) := by
  induction fuel generalizing t got with
  | zero => rfl
  | succ fuel ih =>
    by_cases h : wanted ≤ got.size
    · rw [gather_of_enough h, readFully, if_neg (Nat.not_lt.2 h), run_pure]
    have hlt := Nat.lt_of_not_le h
    have hroom : got.size + (wanted - got.size) ≤ (buffer.overwrite 0 got).size := by
      rw [Bytes.size_overwrite]
      omega
    simp only [readFully, if_pos hlt, run_bind, run_get, run_onFirst]
    rcases hr : (Storage.read (wanted - got.size)).run t with ⟨e | r, u⟩
    · rw [run_readWithin_error hr hroom, gather_of_error hlt hr]
    · rw [run_readWithin hr hroom]
      simp only [run_modify]
      by_cases hz : r.data.size = 0
      · rw [if_pos hz, gather_of_none hlt hr hz, run_throw, ← Bytes.overwrite_append,
          ByteArray.size_eq_zero_iff.1 hz, ByteArray.append_empty]
      · rw [if_neg hz, gather_of_some hlt hr hz, ← Bytes.overwrite_append, ← ByteArray.size_append]
        exact ih _

end Loop

section Contract

variable {σ : Type} [Storage σ] [Meaning σ] {Good : σ → Prop} {wanted : Nat} {s t : σ} {got : Bytes}

/-- Whatever the reads gave is what lies from the cursor on, and the cursor is behind it. -/
structure Drawn (wanted : Nat) (s : σ) (got : Bytes) (t : σ) : Prop where
  given : got = (plain s).bytes.slice (plain s).cursor got.size
  size_le : got.size ≤ wanted
  after : plain t = { plain s with cursor := (plain s).cursor + got.size }

theorem Reader.drawn (h : Reader Good) (hs : Good s) (ho : (plain s).closed = false)
    (hd : Draws wanted s got t) : Good t ∧ Drawn wanted s got t := by
  induction hd with
  | nothing => exact ⟨hs, (Bytes.slice_zero _ _).symm, Nat.zero_le _, rfl⟩
  | @read got t u r _ hlt hr hz ih =>
    obtain ⟨ht, hgiven, hsize, hafter⟩ := ih
    have ho' : (plain t).closed = false := by
      rw [hafter]
      exact ho
    obtain ⟨hu, hreads⟩ := (h _ t ht ho').of_run_ok hr
    have hle := hreads.size_le
    have hdata := (hreads.advanced hz).1
    have hend := hreads.after
    rw [hafter] at hdata hend
    refine ⟨hu, Bytes.append_eq_slice hgiven hdata, ?_, ?_⟩
    · rw [ByteArray.size_append]
      omega
    · rw [hend, ByteArray.size_append, Nat.add_assoc]

/-- What reads that insist make of a buffer, how they end, and what they leave. -/
inductive Fills (s : σ) (buffer : Bytes) : Except StoreError Unit → Bytes → σ → Prop
  | full {t : σ} (enough : buffer.size = 0 ∨ (plain s).cursor + buffer.size ≤ (plain s).bytes.size)
      (after : plain t = { plain s with cursor := (plain s).cursor + buffer.size }) :
      Fills s buffer (.ok ()) ((plain s).bytes.slice (plain s).cursor buffer.size) t
  | early {filled : Bytes} {t : σ} (nonempty : buffer.size ≠ 0)
      (short : (plain s).bytes.size < (plain s).cursor + buffer.size)
      (given : buffer.Filled 0 (plain s).rest filled) (after : plain t = (plain s).atEnd) :
      Fills s buffer
        (.error (.io (.endedEarly ((plain s).bytes.size - (plain s).cursor) buffer.size))) filled t
  /-- A read for what was still wanted has failed. -/
  | broken {got filled : Bytes} {u t : σ} {e : StoreError} (drawn : Draws buffer.size s got u)
      (wanted : got.size < buffer.size)
      (failed : (Storage.read (buffer.size - got.size)).run u = (.error e, t))
      (given : got = (plain s).bytes.slice (plain s).cursor got.size)
      (size : filled.size = buffer.size) (begins : filled.slice 0 got.size = got)
      (after : plain t = { plain s with cursor := (plain s).cursor + got.size }) :
      Fills s buffer (.error e) filled t

variable {buffer : Bytes} {outcome : Except StoreError Unit}

omit [Storage σ] in
theorem Drawn.ended (hd : Drawn wanted s got t) (hend : (plain t).bytes.size ≤ (plain t).cursor) :
    got = (plain s).rest ∧ got.size = (plain s).bytes.size - (plain s).cursor ∧
      plain t = (plain s).atEnd := by
  have hgiven := congrArg ByteArray.size hd.given
  rw [Bytes.size_slice] at hgiven
  rw [hd.after] at hend
  have hsize : got.size = (plain s).bytes.size - (plain s).cursor := by
    simp only at hend
    omega
  have hrest : (plain s).rest.size = got.size := by
    rw [Memory.rest, Bytes.size_slice]
    omega
  refine ⟨?_, hsize, ?_⟩
  · rw [hd.given, ← hrest]
    exact Bytes.slice_size _ _ _
  · have hmax : (plain s).cursor + got.size = max (plain s).cursor (plain s).bytes.size := by omega
    rw [hd.after, hmax]
    rfl

theorem Reader.fills (h : Reader Good) (hs : Good s) (ho : (plain s).closed = false)
    (hstops : Stops buffer.size s outcome got t) :
    Good t ∧ (plain t).bytes = (plain s).bytes ∧ Fills s buffer outcome (buffer.overwrite 0 got) t := by
  cases hstops with
  | enough hd hle =>
    obtain ⟨ht, hdrawn⟩ := h.drawn hs ho hd
    have hsize := Nat.le_antisymm hdrawn.size_le hle
    have hgiven := hdrawn.given
    have hslice := congrArg ByteArray.size hgiven
    rw [hsize] at hgiven hslice
    rw [Bytes.size_slice] at hslice
    refine ⟨ht, by rw [hdrawn.after], ?_⟩
    rw [Bytes.overwrite_whole hsize, hgiven]
    exact .full (by omega) (by rw [hdrawn.after, hsize])
  | @ended _ u _ r hd hlt hr hz =>
    obtain ⟨hu, hdrawn⟩ := h.drawn hs ho hd
    have ho' : (plain u).closed = false := by
      rw [hdrawn.after]
      exact ho
    obtain ⟨ht, hreads⟩ := (h _ u hu ho').of_run_ok hr
    obtain ⟨hend, hsame⟩ := hreads.ended (Nat.sub_pos_of_lt hlt) hz
    obtain ⟨hrest, hsize, hatEnd⟩ := hdrawn.ended hend
    refine ⟨ht, by rw [hsame, hatEnd]; rfl, ?_⟩
    rw [hsize] at hlt ⊢
    have hfilled : buffer.Filled 0 (plain s).rest (buffer.overwrite 0 (plain s).rest) :=
      Bytes.filled_overwrite (by rw [← hrest]; omega)
    rw [hrest]
    exact .early (by omega) (by omega) hfilled (hsame.trans hatEnd)
  | @failed _ u _ e hd hlt hr =>
    obtain ⟨hu, hdrawn⟩ := h.drawn hs ho hd
    have ho' : (plain u).closed = false := by
      rw [hdrawn.after]
      exact ho
    obtain ⟨ht, hsame⟩ := (h _ u hu ho').of_run_error hr
    have hfilled : buffer.Filled 0 got (buffer.overwrite 0 got) :=
      Bytes.filled_overwrite (by omega)
    refine ⟨ht, by rw [hsame, hdrawn.after], ?_⟩
    exact .broken hd hlt hr hdrawn.given hfilled.size hfilled.inside (hsame.trans hdrawn.after)

theorem Reader.run_readExactly (h : Reader Good) (hs : Good s) (ho : (plain s).closed = false)
    (hstops : Stops buffer.size s outcome got t)
    (hrun : (gather buffer.size buffer.size).run (s, ByteArray.empty) = (outcome, t, got)) :
    (readExactly buffer.size).run s = (outcome.map fun _ => buffer.overwrite 0 got, t) := by
  simp only [readExactly, hrun]
  cases hstops with
  | enough hd hle =>
    have hsize := Nat.le_antisymm (h.drawn hs ho hd).2.size_le hle
    rw [Bytes.overwrite_whole hsize]
    rfl
  | ended | failed => rfl

/-- Where no read fails, it makes no difference how they split what they give: the outcome, the buffer
and the cursor are those of a byte string in memory. -/
theorem Fills.unsplit {filled : Bytes} (ho : (plain s).closed = false)
    (hf : Fills s buffer outcome filled t) :
    (readExactly buffer.size).run (plain s) = (outcome.map fun _ => filled, plain t) ∨
      ∃ got u e, Draws buffer.size s got u ∧ outcome = .error e ∧
        (Storage.read (buffer.size - got.size)).run u = (.error e, t) := by
  cases hf with
  | full henough hafter =>
    left
    rw [Memory.run_readExactly ho (by omega), hafter]
    rfl
  | early hne hshort hgiven hafter =>
    left
    rw [Memory.run_readExactly_early ho (by omega), hafter]
    rfl
  | broken hd hlt hr _ _ _ _ => exact Or.inr ⟨_, _, _, hd, rfl, hr⟩

/-- What a read that insists on filling `buffer` does to a store `s`. -/
structure Insists (s : σ) (buffer : Bytes) (outcome : Except StoreError Unit) (filled : Bytes)
    (t : σ) : Prop where
  /-- The loop ends by itself: more rounds than bytes change nothing. -/
  run : ∀ rounds ≥ buffer.size, (readFully buffer.size rounds 0).run (s, buffer) = (outcome, t, filled)
  exactly : (readExactly buffer.size).run s = (outcome.map fun _ => filled, t)
  bytes : (plain t).bytes = (plain s).bytes
  fills : Fills s buffer outcome filled t
  unsplit : (readExactly buffer.size).run (plain s) = (outcome.map fun _ => filled, plain t) ∨
    ∃ got u e, Draws buffer.size s got u ∧ outcome = .error e ∧
      (Storage.read (buffer.size - got.size)).run u = (.error e, t)

/-- A read that insists fills its buffer with the bytes from the cursor on, whatever the parts in which
they come. It fails where they end before, or with the error of a read that fails, and then the buffer
begins with what was given until there. -/
theorem readFully_hides_short_reads (h : Reader Good) (hs : Good s) (ho : (plain s).closed = false)
    (buffer : Bytes) : ∃ outcome filled t, Good t ∧ Insists s buffer outcome filled t := by
  obtain ⟨outcome, got, t, hstops, hrun⟩ :=
    (Draws.nothing : Draws buffer.size s ByteArray.empty s).exists_stops
  obtain ⟨ht, hbytes, hfills⟩ := h.fills hs ho hstops
  refine ⟨outcome, buffer.overwrite 0 got, t, ht, ?_, ?_, hbytes, hfills, hfills.unsplit ho⟩
  · intro rounds hrounds
    have hgather := hrun rounds (Nat.le_add_left_of_le hrounds)
    have hloop := run_readFully (t := s) (Nat.le_refl buffer.size) rounds ByteArray.empty
    rw [hgather, Bytes.overwrite_empty] at hloop
    exact hloop
  · exact h.run_readExactly hs ho hstops (hrun buffer.size (Nat.le_add_left _ _))

end Contract

def losing : Scheduled where
  memory := .ofBytes (.ofOctets [1, 2, 3, 4, 5, 6])
  schedule n := if n = 8 then some (.io (.reported .other "lost"), 0) else none

theorem bound_losing : losing.Bound Failures.whole.steady := by
  right
  intro n entry hentry
  simp only [losing] at hentry
  split at hentry
  case isTrue => exact Option.some.inj hentry ▸ rfl
  case isFalse => cases hentry

/-- One byte is held back, and the window gives two bytes a read. -/
def sips : List (Action String EndlessSink ThrottledSource) :=
  [.step (.wrap (.writeBehind 4)), .step (.store (.write (.ofOctets [9]))),
    .step (.wrap (.readAhead 2))]

/-- The second of two reads fails, below two layers: the buffer keeps the two bytes of the first. -/
theorem readFully_keeps_what_was_given : ∃ t : AnyTower String Scheduled,
    t = (leave (sips.map Action.run) (AnyTower.ofMedium losing, ({} : Cast))).1 ∧
    ((readFully 4 4 0).run (t.tower, .zeros 4)).1.toOption = none ∧
    ((readFully 4 4 0).run (t.tower, .zeros 4)).2.2 = .ofOctets [2, 3, 0, 0] ∧
    (plain t.tower).closed = false ∧ t.Intact (Scheduled.Bound Failures.whole.steady) ∧
    ∃ outcome filled u, Insists t.tower (.zeros 4) outcome filled u := by
  obtain ⟨t, ht⟩ : ∃ t : AnyTower String Scheduled,
      t = (leave (sips.map Action.run) (AnyTower.ofMedium losing, ({} : Cast))).1 := ⟨_, rfl⟩
  have hsound := AnyTower.intact_of_leave Scheduled.contract_steady bound_losing ({} : Cast) sips ht
  have hopen : (plain t.tower).closed = false := by
    rw [ht]
    decide +kernel
  have hreader := Tower.reader (κ := String) Scheduled.contract_steady id (Scheduled.progresses _)
    t.kinds
  obtain ⟨outcome, filled, u, -, hinsists⟩ :=
    readFully_hides_short_reads hreader hsound hopen (.zeros 4)
  refine ⟨t, ht, ?_, ?_, hopen, hsound, outcome, filled, u, hinsists⟩
  · rw [ht]
    decide +kernel
  · rw [ht]
    decide +kernel

end ByteTower
