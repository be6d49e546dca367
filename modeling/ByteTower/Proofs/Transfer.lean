import ByteTower.Proofs.Memory
import ByteTower.Store.Transfer

namespace ByteTower

open StoreM Storage

variable {σ : Type} [Storage σ] [Meaning σ] {f : Failures} {Good : σ → Prop} {s : σ}

namespace Memory

def Gathers (m : Memory) (wanted : Nat) (got all : Bytes) (m' : Memory) : Prop :=
  wanted - got.size ≤ m.bytes.size - m.cursor ∧
    all = got ++ m.bytes.slice m.cursor (wanted - got.size) ∧
    m' = { m with cursor := m.cursor + (wanted - got.size) }

def EndsEarly (m : Memory) (wanted : Nat) (got : Bytes) (e : StoreError) (m' : Memory) : Prop :=
  m.bytes.size - m.cursor < wanted - got.size ∧
    e = .io (.endedEarly (got.size + (m.bytes.size - m.cursor)) wanted) ∧ m' = m.atEnd

variable {m m' : Memory} {wanted k : Nat} {got all : Bytes} {e : StoreError}

theorem gathers_enough (h : wanted ≤ got.size) : m.Gathers wanted got got m := by
  have hzero : wanted - got.size = 0 := by omega
  rw [Gathers, hzero, Bytes.slice_zero, ByteArray.append_empty]
  exact ⟨Nat.zero_le _, rfl, rfl⟩

theorem Gathers.of_advance (hk : k ≤ wanted - got.size)
    (h : (m.advance k).Gathers wanted (got ++ m.bytes.slice m.cursor k) all m') :
    m.Gathers wanted got all m' := by
  obtain ⟨hle, hall, hp⟩ := h
  have hsize := Bytes.size_slice m.bytes m.cursor k
  have hjoin := Bytes.slice_append_slice m.bytes m.cursor k hk
  have hneed : wanted - (got ++ m.bytes.slice m.cursor k).size =
      wanted - got.size - (m.bytes.slice m.cursor k).size := by
    rw [ByteArray.size_append]
    omega
  rw [hneed] at hle hall hp
  simp only [advance] at hle hall hp
  have hfits : wanted - got.size ≤ m.bytes.size - m.cursor := by omega
  have hcursor : m.cursor + (m.bytes.slice m.cursor k).size +
      (wanted - got.size - (m.bytes.slice m.cursor k).size) = m.cursor + (wanted - got.size) := by
    omega
  refine ⟨hfits, ?_, ?_⟩
  · rw [hall, ByteArray.append_assoc, hjoin hfits]
  · rw [hp, hcursor]

theorem EndsEarly.of_advance (hk : k ≤ wanted - got.size)
    (h : (m.advance k).EndsEarly wanted (got ++ m.bytes.slice m.cursor k) e m') :
    m.EndsEarly wanted got e m' := by
  obtain ⟨hlt, he, hp⟩ := h
  have hsize := Bytes.size_slice m.bytes m.cursor k
  rw [ByteArray.size_append] at hlt he
  rw [atEnd_advance] at hp
  simp only [advance] at hlt he
  have hgot : got.size + (m.bytes.slice m.cursor k).size +
      (m.bytes.size - (m.cursor + (m.bytes.slice m.cursor k).size)) =
      got.size + (m.bytes.size - m.cursor) := by omega
  refine ⟨by omega, ?_, hp⟩
  rw [he, hgot]

end Memory

/-- Whatever was gathered before, the rest is gathered, or the store ends before it is, or a read
fails. -/
theorem meets_gather
    (hread : ∀ n s, Good s → Follows f Good Good f.Spares (Storage.read n) (f.Shortened n) s)
    {wanted fuel : Nat} {got : Bytes} (hs : Good s) (ho : (plain s).closed = false)
    (hfuel : wanted ≤ got.size + fuel) :
    (gather wanted fuel).Meets (s, got)
      (fun _ p => Good p.1 ∧ (plain s).Gathers wanted got p.2 (plain p.1))
      fun e p => Good p.1 ∧ ((plain s).EndsEarly wanted got e (plain p.1) ∨
        f.occur ∧ (plain p.1).bytes = (plain s).bytes ∧ (plain p.1).closed = false) := by
  -- each round leaves one less to spend, and one that goes on has gathered a byte at least
  induction fuel generalizing s got with
  | zero => exact meets_pure ⟨hs, Memory.gathers_enough hfuel⟩
  | succ fuel ih =>
    apply meets_get_bind
    dsimp only
    split
    case isFalse hfull => exact meets_pure ⟨hs, Memory.gathers_enough (Nat.le_of_not_lt hfull)⟩
    case isTrue hlt =>
      by_cases hcur : (plain s).cursor < (plain s).bytes.size
      · have hcall : (onFirst (Storage.read (wanted - got.size))).Meets (s, got)
            (fun r p => p.2 = got ∧ Good p.1 ∧ ∃ k ≤ wanted - got.size,
              (f.occur ∨ wanted - got.size = 0 ∨ 0 < k) ∧
              r = .bytes ((plain s).bytes.slice (plain s).cursor k) ∧
              plain p.1 = (plain s).advance k)
            fun _ p => Missed f Good s p.1 :=
          Meets.zoom (((hread _ s hs).meets_read ho hcur).imp_ok fun _ _ ht => ⟨rfl, ht⟩)
        refine (hcall.imp_error fun _ _ ht =>
          ⟨ht.1, Or.inr ⟨ht.2.1, ht.2.2.1, ht.2.2.2.1.trans ho⟩⟩).bind ?_
        rintro _ ⟨t, all⟩ ⟨hall, ht, k, hk, hpos, rfl, hp⟩
        obtain rfl : got = all := hall.symm
        have hsize := Bytes.size_slice (plain s).bytes (plain s).cursor k
        split
        case isTrue hz =>
          -- before the end, a read that gives nothing is a failure of the store
          have hz : ((plain s).bytes.slice (plain s).cursor k).size = 0 := hz
          have hocc : f.occur := hpos.resolve_right (by omega)
          exact meets_throw ⟨ht, Or.inr ⟨hocc, by rw [hp]; rfl, by rw [hp]; exact ho⟩⟩
        case isFalse hz =>
          have hz : ((plain s).bytes.slice (plain s).cursor k).size ≠ 0 := hz
          have hfuel' : wanted ≤ (got ++ (plain s).bytes.slice (plain s).cursor k).size + fuel := by
            rw [ByteArray.size_append]
            omega
          have hrest := ih ht (by rw [hp]; exact ho) hfuel'
          rw [hp] at hrest
          apply meets_modify_bind
          apply hrest.imp
          · rintro _ p ⟨hu, hall⟩
            exact ⟨hu, hall.of_advance hk⟩
          · rintro e p ⟨hu, hearly | hloss⟩
            · exact ⟨hu, Or.inl (hearly.of_advance hk)⟩
            · exact ⟨hu, Or.inr hloss⟩
      · have hle := Nat.le_of_not_lt hcur
        have hcall : (onFirst (Storage.read (wanted - got.size))).Meets (s, got)
            (fun r p => p.2 = got ∧ Good p.1 ∧ r = .eof ∧ plain p.1 = plain s)
            fun _ p => Missed f Good s p.1 :=
          Meets.zoom (((hread _ s hs).meets_read_eof ho hle).imp_ok fun _ _ ht => ⟨rfl, ht⟩)
        refine (hcall.imp_error fun _ _ ht =>
          ⟨ht.1, Or.inr ⟨ht.2.1, ht.2.2.1, ht.2.2.2.1.trans ho⟩⟩).bind ?_
        rintro _ ⟨t, all⟩ ⟨hall, ht, rfl, hp⟩
        obtain rfl : got = all := hall.symm
        -- the store has ended, and what was gathered is all there was
        have hzero : (plain s).bytes.size - (plain s).cursor = 0 := by omega
        refine meets_throw ⟨ht, Or.inl ⟨by omega, by rw [hzero]; rfl, ?_⟩⟩
        rw [hp, Memory.atEnd_of_le hle]

omit [Meaning σ] in
theorem meets_readExactly_of_gather {n : Nat} {good : Bytes → σ → Prop}
    {bad : StoreError → σ → Prop}
    (h : (gather n n).Meets (s, ByteArray.empty) (fun _ p => good p.2 p.1) fun e p => bad e p.1) :
    (readExactly n).Meets s good bad := by
  rcases hr : (gather n n).run (s, ByteArray.empty) with ⟨e | ⟨⟩, t, got⟩
  · refine meets_of_error ?_ (h.of_run_error hr)
    simp only [readExactly, hr]
  · refine meets_of_ok ?_ (h.of_run_ok hr)
    simp only [readExactly, hr]

section ReadExactly

variable (hread : ∀ n s, Good s → Follows f Good Good f.Spares (Storage.read n) (f.Shortened n) s)
variable (hs : Good s)

include hread hs

theorem meets_readExactly (ho : (plain s).closed = false) (n : Nat) :
    (readExactly n).Meets s
      (fun data t => Good t ∧ n ≤ (plain s).bytes.size - (plain s).cursor ∧
        data = (plain s).bytes.slice (plain s).cursor n ∧
        plain t = { plain s with cursor := (plain s).cursor + n })
      fun e t => Good t ∧
        ((plain s).bytes.size - (plain s).cursor < n ∧
          e = .io (.endedEarly ((plain s).bytes.size - (plain s).cursor) n) ∧
          plain t = { plain s with cursor := max (plain s).cursor (plain s).bytes.size } ∨
        f.occur ∧ (plain t).bytes = (plain s).bytes ∧ (plain t).closed = false) := by
  have hfuel : n ≤ ByteArray.empty.size + n := Nat.le_add_left n _
  have hg := meets_gather hread hs ho hfuel
  refine meets_readExactly_of_gather (hg.imp ?_ ?_)
  · rintro _ ⟨t, got⟩ ⟨ht, hle, hgot, hp⟩
    exact ⟨ht, hle, by rw [hgot, ByteArray.empty_append]; rfl, hp⟩
  · rintro e ⟨t, got⟩ ⟨ht, ⟨hlt, he, hp⟩ | hloss⟩
    · refine ⟨ht, Or.inl ⟨hlt, ?_, hp⟩⟩
      rw [he, show ByteArray.empty.size = 0 from rfl, Nat.zero_add]
    · exact ⟨ht, Or.inr hloss⟩

theorem meets_readExactly_closed (hc : (plain s).closed = true) {n : Nat} (hn : 0 < n) :
    (readExactly n).Meets s (fun _ _ => False)
      fun e t => Good t ∧
        (e = .closed ∧ plain t = plain s ∨ f.occur ∧ f.Spares (plain s) (plain t)) := by
  obtain ⟨n, rfl⟩ := Nat.exists_eq_add_of_lt hn
  rw [Nat.zero_add]
  have hcall : (onFirst (Storage.read (n + 1))).Meets (s, ByteArray.empty) (fun _ _ => False)
      fun e p => Good p.1 ∧
        (e = .closed ∧ plain p.1 = plain s ∨ f.occur ∧ f.Spares (plain s) (plain p.1)) :=
    Meets.zoom ((hread (n + 1) s hs).meets_read_closed hc)
  refine meets_readExactly_of_gather (meets_get_bind ?_)
  exact hcall.bind fun _ _ hf => hf.elim

end ReadExactly

namespace Memory

variable {m : Memory} {n : Nat}

theorem follows_read (m : Memory) (n : Nat) :
    Follows .never (fun _ => True) (fun _ => True) Failures.never.Spares (Storage.read n)
      (Failures.never.Shortened n) m :=
  follows_act ⟨n, Nat.le_refl n, Or.inr (Nat.eq_zero_or_pos n), rfl⟩ m

theorem run_readExactly (ho : m.closed = false) (hn : n ≤ m.bytes.size - m.cursor) :
    (readExactly n).run m =
      (.ok (m.bytes.slice m.cursor n), { m with cursor := m.cursor + n }) := by
  have hm := meets_readExactly (fun n m _ => follows_read m n) (s := m) trivial ho n
  rcases hr : (readExactly n).run m with ⟨e | data, t⟩
  · obtain ⟨-, ⟨hlt, -⟩ | ⟨hf, -⟩⟩ := hm.of_run_error hr
    · exact absurd hn (Nat.not_le.2 hlt)
    · exact hf.elim
  · obtain ⟨-, -, rfl, hp⟩ := hm.of_run_ok hr
    exact congrArg (Prod.mk _) hp

theorem run_readExactly_early (ho : m.closed = false) (hn : m.bytes.size - m.cursor < n) :
    (readExactly n).run m =
      (.error (.io (.endedEarly (m.bytes.size - m.cursor) n)),
        { m with cursor := max m.cursor m.bytes.size }) := by
  have hm := meets_readExactly (fun n m _ => follows_read m n) (s := m) trivial ho n
  rcases hr : (readExactly n).run m with ⟨e | data, t⟩
  · obtain ⟨-, ⟨-, rfl, hp⟩ | ⟨hf, -⟩⟩ := hm.of_run_error hr
    · exact congrArg (Prod.mk _) hp
    · exact hf.elim
  · exact absurd (hm.of_run_ok hr).2.1 (Nat.not_le.2 hn)

theorem run_readExactly_closed (hc : m.closed = true) (hn : 0 < n) :
    (readExactly n).run m = (.error .closed, m) := by
  have hm := meets_readExactly_closed (fun n m _ => follows_read m n) (s := m) trivial hc hn
  rcases hr : (readExactly n).run m with ⟨e | data, t⟩
  · obtain ⟨-, ⟨rfl, hp⟩ | ⟨hf, -⟩⟩ := hm.of_run_error hr
    · exact congrArg (Prod.mk _) hp
    · exact hf.elim
  · exact (hm.of_run_ok hr).elim

theorem effect_readExactly (m : Memory) (n : Nat) :
    (readExactly n).Meets m
      (fun data t => t.bytes = m.bytes ∧ data.size = n ∧ data = m.bytes.slice m.cursor n)
      fun _ t => t.bytes = m.bytes := by
  cases hc : m.closed with
  | false =>
    by_cases hn : n ≤ m.bytes.size - m.cursor
    · refine meets_of_ok (run_readExactly hc hn) ⟨rfl, ?_, rfl⟩
      rw [Bytes.size_slice, Nat.min_eq_left hn]
    · exact meets_of_error (run_readExactly_early hc (Nat.lt_of_not_le hn)) rfl
  | true =>
    by_cases hn : n = 0
    · subst hn
      exact meets_of_ok rfl ⟨rfl, rfl, (Bytes.slice_zero _ _).symm⟩
    · exact meets_of_error (run_readExactly_closed hc (Nat.pos_of_ne_zero hn)) rfl

end Memory

/-- A read that insists does what it does in memory, or fails having moved the cursor at most. -/
theorem Reading.readExactly (h : Reading f Good) (hs : Good s) (n : Nat) :
    Follows f Good Good f.drifting.Spares (Storage.readExactly n) (Eq (Storage.readExactly n)) s := by
  cases hc : (plain s).closed with
  | false =>
    apply (meets_readExactly h.read hs hc n).imp
    · rintro _ t ⟨ht, hle, rfl, hp⟩
      exact ⟨ht, _, rfl, hp ▸ Memory.run_readExactly hc hle⟩
    · rintro _ t ⟨ht, ⟨hlt, rfl, hp⟩ | ⟨hocc, hb, ho⟩⟩
      · exact ⟨ht, Or.inl ⟨_, rfl, hp ▸ Memory.run_readExactly_early hc hlt⟩⟩
      · exact ⟨ht, Or.inr ⟨hocc, hb, ho.trans hc.symm, Or.inl trivial⟩⟩
  | true =>
    by_cases hn : n = 0
    · subst hn
      exact meets_of_ok rfl ⟨hs, _, rfl, rfl⟩
    · have hn := Nat.pos_of_ne_zero hn
      refine (meets_readExactly_closed h.read hs hc hn).imp (fun _ _ hf => hf.elim) ?_
      rintro _ t ⟨ht, ⟨rfl, hp⟩ | ⟨hocc, hb, ho, -⟩⟩
      · refine ⟨ht, Or.inl ⟨_, rfl, ?_⟩⟩
        rw [hp]
        exact Memory.run_readExactly_closed hc hn
      · exact ⟨ht, Or.inr ⟨hocc, hb, ho, Or.inl trivial⟩⟩

end ByteTower
