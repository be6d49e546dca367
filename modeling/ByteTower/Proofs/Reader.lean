import ByteTower.Proofs.ReadContract

namespace ByteTower

open StoreM

namespace Memory.Reads

variable {m m' : Memory} {n : Nat} {r : ReadResult} (h : m.Reads n r m')

include h

theorem advanced (hr : r.data.size ≠ 0) :
    r.data = m.bytes.slice m.cursor r.data.size ∧ m' = m.advance r.data.size := by
  have hle := h.size_le
  have hgiven := congrArg ReadResult.data (h.given (by omega))
  have hsize : (m.bytes.slice m.cursor r.data.size).size = r.data.size :=
    congrArg ByteArray.size hgiven.symm
  exact ⟨hgiven, by rw [advance, hsize, h.after]⟩

theorem ended (hn : 0 < n) (hr : r.data.size = 0) : m.bytes.size ≤ m.cursor ∧ m' = m := by
  constructor
  · apply Nat.le_of_not_lt
    intro hcur
    exact Nat.ne_of_gt (h.progress hcur hn) hr
  · rw [h.after, hr]
    rfl

end Memory.Reads

section Store

variable {σ : Type} [Storage σ] [Meaning σ] {f : Failures} {Good : σ → Prop}

/-- Every read of an open good store is right, or it fails and leaves the cursor and the bytes. -/
def Reader (Good : σ → Prop) : Prop :=
  ∀ n s, Good s → (plain s).closed = false →
    (Storage.read n).Meets s (fun r t => Good t ∧ (plain s).Reads n r (plain t))
      fun _ t => Good t ∧ plain t = plain s

theorem Readable.reader (h : Readable Good) : Reader Good :=
  fun n s hs ho => (h.read n s hs ho).imp_error fun _ _ hf => hf.elim

theorem Failures.Spares.eq (hdrift : ¬f.drift) {m m' : Memory} (h : f.Spares m m') : m' = m := by
  obtain ⟨bytes, cursor, closed⟩ := m
  obtain ⟨bytes', cursor', closed'⟩ := m'
  obtain ⟨rfl, rfl, hcur⟩ := h
  obtain rfl := hcur.resolve_left hdrift
  rfl

/-- Stores that keep their contract read well, if no failing call loses their cursor and no read comes
back empty before the end. -/
theorem Reading.reader (h : Reading f Good) (hdrift : ¬f.drift) (hp : Progresses False Good) :
    Reader Good := by
  intro n s hs ho
  by_cases hcur : (plain s).cursor < (plain s).bytes.size
  · have hread := (h.read n s hs).meets_read ho hcur
    by_cases hn : n = 0
    · refine hread.imp ?_ fun _ _ ht => ⟨ht.1, ht.2.2.eq hdrift⟩
      rintro _ t ⟨ht, k, hk, -, rfl, hplain⟩
      exact ⟨ht, hplain ▸ Memory.reads_slice hcur hk (Or.inl hn)⟩
    · have hsome := hp n s hs ho hcur (Nat.pos_of_ne_zero hn)
      refine (hread.and hsome).imp ?_ fun _ _ ht => ⟨ht.1.1, ht.1.2.2.eq hdrift⟩
      rintro _ t ⟨⟨ht, k, hk, -, rfl, hplain⟩, hfalse | hpos⟩
      · exact hfalse.elim
      · simp only [ReadResult.data, Bytes.size_slice] at hpos
        exact ⟨ht, hplain ▸ Memory.reads_slice hcur hk (Or.inr (by omega))⟩
  · have hle := Nat.le_of_not_lt hcur
    refine ((h.read n s hs).meets_read_eof ho hle).imp ?_ fun _ _ ht => ⟨ht.1, ht.2.2.eq hdrift⟩
    rintro _ t ⟨ht, rfl, hplain⟩
    exact ⟨ht, hplain ▸ Memory.reads_eof hle n⟩

/-- A window that was fetched has bytes to serve, whatever fetched it. -/
theorem ReadAhead.progresses (h : Reading f Good) {size : Nat} :
    Progresses False (Sound (σ := σ) Good size) := by
  intro n c hc ho hcur hn
  apply (meets_read h hc ho .never n).imp
  · exact fun r c' hr => Or.inr ((Memory.reads_of_answers ho hr.2).progress hcur hn)
  · exact fun _ _ _ => trivial

theorem WriteBehind.progresses (h : Reading f Good) (hp : Progresses False Good) {size : Nat} :
    Progresses False (Sound (σ := σ) Good size) := by
  intro n c hc ho hcur hn
  apply (meets_read (g := .never) h hc ho hp n).imp
  · exact fun r c' hr => Or.inr ((Memory.reads_of_answers ho hr.2).progress hcur hn)
  · exact fun _ _ _ => trivial

theorem BlockView.progresses {κ : Type} (hp : Progresses False Good) :
    Progresses False fun v : BlockView κ σ => Good v.inner := by
  intro n v hv ho hcur hn
  have hcall : (onInner (Storage.read n)).Meets v (fun r _ => False ∨ 0 < r.data.size)
      fun _ _ => True := Meets.zoom (hp n v.inner hv ho hcur hn)
  exact hcall

end Store

namespace Tower

variable {κ μ : Type} [Storage μ] [Meaning μ] {f : Failures} {Good : μ → Prop}

theorem progresses (h : Contract f Good) (hp : Progresses False Good) : ∀ kinds : List LayerKind,
    Progresses False (Sound (κ := κ) (fun _ _ => True) (fun _ => Good) kinds 0)
  | [] => hp
  | .readAhead :: kinds => fun n c ⟨_, hc⟩ =>
    ReadAhead.progresses (AnyTower.contract_of_medium (κ := κ) h kinds).toReading n c hc
  | .writeBehind :: kinds => fun n c ⟨_, hc⟩ =>
    WriteBehind.progresses (AnyTower.contract_of_medium (κ := κ) h kinds).toReading
      (progresses h hp kinds) n c hc.sound
  | .blocks :: kinds => BlockView.progresses (progresses h hp kinds)

/-- A tower reads well over a medium that keeps its contract, loses no cursor and gives something
before its end. -/
theorem reader (h : Contract f Good) (hdrift : ¬f.drift) (hp : Progresses False Good)
    (kinds : List LayerKind) : Reader (Sound (κ := κ) (fun _ _ => True) (fun _ => Good) kinds 0) :=
  (AnyTower.contract_of_medium h kinds).toReading.reader hdrift (progresses h hp kinds)

end Tower

namespace Probe

theorem tear_zero (data : Bytes) (m : Memory) : tear data 0 m = m := by
  rw [tear, Bytes.slice_zero]
  cases hc : m.closed with
  | true => exact congrArg Prod.snd (Memory.run_write_closed hc _)
  | false => exact congrArg Prod.snd (Memory.run_write_nothing hc rfl)

end Probe

namespace Scheduled

theorem contract_steady : Contract Failures.whole.steady (Bound Failures.whole.steady) where
  length _ hs := follows_whole trivial hs rfl
  cursor _ hs := follows_whole trivial hs rfl
  seek _ _ hs := follows_whole trivial hs rfl
  read n _ hs := follows_whole trivial hs ⟨n, Nat.le_refl n, Or.inl trivial, rfl⟩
  flush _ hs := follows_whole trivial hs rfl
  close _ hs := follows_whole trivial hs rfl
  isClosed _ _ := rfl
  bounded _ _ := Or.inl trivial
  still _ hs := hs
  resize _ _ hs := follows_whole trivial hs rfl
  write data s hs := by
    refine follows_call trivial hs (Probe.tear data) ?_ rfl
    rintro k (htear | rfl)
    · exact (htear 0).elim
    · rw [Probe.tear_zero]
      exact Failures.Spares.rfl.tears data

theorem progresses (Good : Scheduled → Prop) : Progresses False Good := by
  intro n s _ ho hcur hn
  apply meets_get_bind
  split
  case h_1 =>
    refine meets_set_bind (Meets.zoom (meets_of_ok (Memory.run_read ho n hcur) (Or.inr ?_)))
    have hsize := Bytes.size_slice (plain s).bytes (plain s).cursor n
    simp only [ReadResult.data]
    omega
  case h_2 => exact meets_set_bind (meets_throw trivial)

end Scheduled

end ByteTower
