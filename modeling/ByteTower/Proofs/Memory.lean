import ByteTower.Proofs.Contract

namespace ByteTower

open StoreM

namespace Memory

variable {m : Memory}

theorem run_length (ho : m.closed = false) :
    (Storage.length : StoreM Memory Nat).run m = (.ok m.bytes.size, m) := by
  simp [Storage.length, run_bind, requireOpen, ho]

theorem run_resize (ho : m.closed = false) {n : Nat} (hn : n ≤ maxPosition) :
    (Storage.resize n : StoreM Memory Unit).run m =
      (.ok (), { m with bytes := m.bytes.resize n, cursor := min m.cursor n }) := by
  simp [Storage.resize, resize, run_bind, requireOpen, ho, checkPosition, Nat.not_lt.2 hn]

theorem run_resize_refused (ho : m.closed = false) {n : Nat} (hn : maxPosition < n) :
    (Storage.resize n : StoreM Memory Unit).run m =
      (.error (.argument (.positionTooLarge n)), m) := by
  simp [Storage.resize, resize, run_bind, requireOpen, ho, checkPosition, hn]

theorem run_cursor (ho : m.closed = false) :
    (Storage.cursor : StoreM Memory Nat).run m = (.ok m.cursor, m) := by
  simp [Storage.cursor, run_bind, requireOpen, ho]

theorem run_seek (ho : m.closed = false) {pos : Nat} (hp : pos ≤ maxPosition) :
    (Storage.seek pos : StoreM Memory Unit).run m = (.ok (), { m with cursor := pos }) := by
  simp [Storage.seek, run_bind, requireOpen, ho, checkPosition, Nat.not_lt.2 hp]

theorem run_seek_refused (ho : m.closed = false) {pos : Nat} (hp : maxPosition < pos) :
    (Storage.seek pos : StoreM Memory Unit).run m =
      (.error (.argument (.positionTooLarge pos)), m) := by
  simp [Storage.seek, run_bind, requireOpen, ho, checkPosition, hp]

theorem run_read_eof (ho : m.closed = false) (n : Nat) (hc : m.bytes.size ≤ m.cursor) :
    (Storage.read n : StoreM Memory ReadResult).run m = (.ok .eof, m) := by
  simp [Storage.read, read, run_bind, requireOpen, ho, hc]

theorem run_read (ho : m.closed = false) (n : Nat) (hc : m.cursor < m.bytes.size) :
    (Storage.read n : StoreM Memory ReadResult).run m =
      (.ok (.bytes (m.bytes.slice m.cursor n)),
        { m with cursor := m.cursor + (m.bytes.slice m.cursor n).size }) := by
  simp [Storage.read, read, run_bind, requireOpen, ho, Nat.not_le.2 hc, Except.map]

theorem run_write_nothing (ho : m.closed = false) {data : Bytes} (hd : data.size = 0) :
    (Storage.write data : StoreM Memory Unit).run m = (.ok (), m) := by
  simp [Storage.write, write, run_bind, requireOpen, ho, hd]

theorem run_write (ho : m.closed = false) {data : Bytes} (hd : 0 < data.size)
    (hfit : m.cursor + data.size ≤ maxPosition) :
    (Storage.write data : StoreM Memory Unit).run m =
      (.ok (), { m with
        bytes := m.bytes.overwrite m.cursor data, cursor := m.cursor + data.size }) := by
  simp [Storage.write, write, run_bind, requireOpen, ho, Nat.ne_of_gt hd, endOf, Nat.not_lt.2 hfit]

theorem run_write_refused (ho : m.closed = false) {data : Bytes} (hd : 0 < data.size)
    (hfit : maxPosition < m.cursor + data.size) :
    (Storage.write data : StoreM Memory Unit).run m =
      (.error (.argument (.transferTooLong data.size m.cursor)), m) := by
  simp [Storage.write, write, run_bind, requireOpen, ho, Nat.ne_of_gt hd, endOf, hfit]

theorem run_flush (ho : m.closed = false) :
    (Storage.flush : StoreM Memory Unit).run m = (.ok (), m) := by
  simp [Storage.flush, run_bind, requireOpen, ho]

theorem run_close : (Storage.close : StoreM Memory Unit).run m = (.ok (), { m with closed := true }) :=
  rfl

-- Once it is closed, a byte string in memory refuses every call but the one to close it.

theorem run_length_closed (hc : m.closed = true) :
    (Storage.length : StoreM Memory Nat).run m = (.error .closed, m) := by
  simp [Storage.length, run_bind, requireOpen, hc, Except.map]

theorem run_resize_closed (hc : m.closed = true) (n : Nat) :
    (Storage.resize n : StoreM Memory Unit).run m = (.error .closed, m) := by
  simp [Storage.resize, resize, run_bind, requireOpen, hc]

theorem run_cursor_closed (hc : m.closed = true) :
    (Storage.cursor : StoreM Memory Nat).run m = (.error .closed, m) := by
  simp [Storage.cursor, run_bind, requireOpen, hc, Except.map]

theorem run_seek_closed (hc : m.closed = true) (pos : Nat) :
    (Storage.seek pos : StoreM Memory Unit).run m = (.error .closed, m) := by
  simp [Storage.seek, run_bind, requireOpen, hc]

theorem run_read_closed (hc : m.closed = true) (n : Nat) :
    (Storage.read n : StoreM Memory ReadResult).run m = (.error .closed, m) := by
  simp [Storage.read, read, run_bind, requireOpen, hc]

theorem run_write_closed (hc : m.closed = true) (data : Bytes) :
    (Storage.write data : StoreM Memory Unit).run m = (.error .closed, m) := by
  simp [Storage.write, write, run_bind, requireOpen, hc]

theorem run_flush_closed (hc : m.closed = true) :
    (Storage.flush : StoreM Memory Unit).run m = (.error .closed, m) := by
  simp [Storage.flush, run_bind, requireOpen, hc]

theorem follows_self {α : Type} {f : Failures} {Good After : Memory → Prop}
    {loss : Memory → Memory → Prop} {act : StoreM Memory α} {models : StoreM Memory α → Prop}
    {m : Memory} (hmodel : models act)
    (h : act.Meets m (fun _ t => After t) fun _ t => Good t) :
    Follows f Good After loss act models m := by
  refine meets_iff.2 ⟨fun a t hr => ⟨h.of_run_ok hr, act, hmodel, hr⟩, fun e t hr => ?_⟩
  exact ⟨h.of_run_error hr, Or.inl ⟨act, hmodel, hr⟩⟩

theorem follows_act {α : Type} {f : Failures} {loss : Memory → Memory → Prop} {act : StoreM Memory α}
    {models : StoreM Memory α → Prop} (hmodel : models act) (m : Memory) :
    Follows f (fun _ => True) (fun _ => True) loss act models m :=
  follows_self hmodel (meets_iff.2 ⟨fun _ _ _ => trivial, fun _ _ _ => trivial⟩)

-- A call that fails changes nothing, and few calls change bytes.

variable {p : Bytes → Prop}

theorem keeps_length (hp : p m.bytes) :
    (Storage.length : StoreM Memory Nat).Meets m (fun _ t => p t.bytes) fun _ t => p t.bytes := by
  cases hc : m.closed with
  | false => exact meets_of_ok (run_length hc) hp
  | true => exact meets_of_error (run_length_closed hc) hp

theorem keeps_cursor (hp : p m.bytes) :
    (Storage.cursor : StoreM Memory Nat).Meets m (fun _ t => p t.bytes) fun _ t => p t.bytes := by
  cases hc : m.closed with
  | false => exact meets_of_ok (run_cursor hc) hp
  | true => exact meets_of_error (run_cursor_closed hc) hp

theorem effect_seek (m : Memory) (pos : Nat) :
    (Storage.seek pos : StoreM Memory Unit).Meets m (fun _ t => t = { m with cursor := pos })
      fun _ t => t = m := by
  cases hc : m.closed with
  | false =>
    by_cases hle : pos ≤ maxPosition
    · exact meets_of_ok (run_seek hc hle) (by rw [hc])
    · exact meets_of_error (run_seek_refused hc (Nat.lt_of_not_le hle)) rfl
  | true => exact meets_of_error (run_seek_closed hc pos) rfl

theorem keeps_seek (hp : p m.bytes) (pos : Nat) :
    (Storage.seek pos : StoreM Memory Unit).Meets m (fun _ t => p t.bytes) fun _ t => p t.bytes :=
  (effect_seek m pos).imp (fun _ _ ht => ht ▸ hp) fun _ _ ht => ht ▸ hp

theorem keeps_read (hp : p m.bytes) (n : Nat) :
    (Storage.read n : StoreM Memory ReadResult).Meets m (fun _ t => p t.bytes)
      fun _ t => p t.bytes := by
  cases hc : m.closed with
  | false =>
    by_cases hle : m.bytes.size ≤ m.cursor
    · exact meets_of_ok (run_read_eof hc n hle) hp
    · exact meets_of_ok (run_read hc n (Nat.lt_of_not_le hle)) hp
  | true => exact meets_of_error (run_read_closed hc n) hp

theorem keeps_flush (hp : p m.bytes) :
    (Storage.flush : StoreM Memory Unit).Meets m (fun _ t => p t.bytes) fun _ t => p t.bytes := by
  cases hc : m.closed with
  | false => exact meets_of_ok (run_flush hc) hp
  | true => exact meets_of_error (run_flush_closed hc) hp

theorem keeps_close (hp : p m.bytes) :
    (Storage.close : StoreM Memory Unit).Meets m (fun _ t => p t.bytes) fun _ t => p t.bytes :=
  meets_of_ok run_close hp

theorem effect_resize (m : Memory) (n : Nat) :
    (Storage.resize n : StoreM Memory Unit).Meets m (fun _ t => t.bytes = m.bytes.resize n)
      fun _ t => t = m := by
  cases hc : m.closed with
  | false =>
    by_cases hle : n ≤ maxPosition
    · exact meets_of_ok (run_resize hc hle) rfl
    · exact meets_of_error (run_resize_refused hc (Nat.lt_of_not_le hle)) rfl
  | true => exact meets_of_error (run_resize_closed hc n) rfl

theorem effect_write (m : Memory) (data : Bytes) :
    (Storage.write data : StoreM Memory Unit).Meets m
      (fun _ t => t.bytes = m.bytes.put m.cursor data ∧ t.closed = m.closed) fun _ t => t = m := by
  cases hc : m.closed with
  | false =>
    by_cases hd : data.size = 0
    · exact meets_of_ok (run_write_nothing hc hd) ⟨(Bytes.put_of_size_eq_zero hd _ _).symm, hc⟩
    · have hd := Nat.pos_of_ne_zero hd
      by_cases hle : m.cursor + data.size ≤ maxPosition
      · exact meets_of_ok (run_write hc hd hle) ⟨(Bytes.put_of_pos hd _ _).symm, hc⟩
      · exact meets_of_error (run_write_refused hc hd (Nat.lt_of_not_le hle)) rfl
  | true => exact meets_of_error (run_write_closed hc data) rfl

theorem run_write_eq_ok {m m' : Memory} {data : Bytes} :
    (Storage.write data : StoreM Memory Unit).run m = (.ok (), m') ↔
      m.closed = false ∧ (data.size = 0 ∨ m.cursor + data.size ≤ maxPosition) ∧
        m' = { m with bytes := m.bytes.put m.cursor data, cursor := m.cursor + data.size } := by
  constructor
  · intro h
    have ho : m.closed = false := by
      cases hc : m.closed with
      | false => rfl
      | true =>
        rw [run_write_closed hc] at h
        cases (Prod.mk.inj h).1
    by_cases hd : data.size = 0
    · rw [run_write_nothing ho hd] at h
      rw [Bytes.put_of_size_eq_zero hd, hd]
      exact ⟨ho, Or.inl rfl, (Prod.mk.inj h).2.symm⟩
    · have hpos := Nat.pos_of_ne_zero hd
      by_cases hfit : m.cursor + data.size ≤ maxPosition
      · rw [run_write ho hpos hfit] at h
        rw [Bytes.put_of_pos hpos]
        exact ⟨ho, Or.inr hfit, (Prod.mk.inj h).2.symm⟩
      · rw [run_write_refused ho hpos (Nat.lt_of_not_le hfit)] at h
        cases (Prod.mk.inj h).1
  · rintro ⟨ho, hfit, rfl⟩
    by_cases hd : data.size = 0
    · rw [run_write_nothing ho hd, Bytes.put_of_size_eq_zero hd, hd]
      rfl
    · have hpos := Nat.pos_of_ne_zero hd
      rw [run_write ho hpos (hfit.resolve_left hd), Bytes.put_of_pos hpos]

theorem run_write_append {m m' m'' : Memory} {first second : Bytes}
    (hfirst : (Storage.write first : StoreM Memory Unit).run m = (.ok (), m'))
    (hsecond : (Storage.write second : StoreM Memory Unit).run m' = (.ok (), m'')) :
    (Storage.write (first ++ second) : StoreM Memory Unit).run m = (.ok (), m'') := by
  obtain ⟨ho, hfit, rfl⟩ := run_write_eq_ok.1 hfirst
  obtain ⟨-, hfit', rfl⟩ := run_write_eq_ok.1 hsecond
  have hsize : (first ++ second).size = first.size + second.size := ByteArray.size_append
  refine run_write_eq_ok.2 ⟨ho, ?_, ?_⟩
  · dsimp only at hfit'
    omega
  · rw [Bytes.put_append, hsize, Nat.add_assoc]

-- What is left of a byte string in memory, and what reading makes of that.

def rest (m : Memory) : Bytes := m.bytes.slice m.cursor m.bytes.size

def atEnd (m : Memory) : Memory := { m with cursor := max m.cursor m.bytes.size }

def advance (m : Memory) (k : Nat) : Memory :=
  { m with cursor := m.cursor + (m.bytes.slice m.cursor k).size }

theorem rest_of_le (hc : m.bytes.size ≤ m.cursor) : m.rest = ByteArray.empty := by
  apply ByteArray.size_eq_zero_iff.1
  rw [rest, Bytes.size_slice]
  omega

theorem atEnd_of_le (hc : m.bytes.size ≤ m.cursor) : m.atEnd = m := by
  rw [atEnd, Nat.max_eq_left hc]

theorem slice_append_rest (m : Memory) (k : Nat) :
    m.bytes.slice m.cursor k ++ (m.advance k).rest = m.rest :=
  Bytes.slice_append_slice_size m.bytes m.cursor k

theorem atEnd_advance (m : Memory) (k : Nat) : (m.advance k).atEnd = m.atEnd := by
  have hsize := Bytes.size_slice m.bytes m.cursor k
  have hmax : max (m.cursor + (m.bytes.slice m.cursor k).size) m.bytes.size =
      max m.cursor m.bytes.size := by omega
  simp only [atEnd, advance, hmax]

end Memory

variable {σ : Type} [Storage σ] [Meaning σ] {f : Failures} {Good After : σ → Prop} {s : σ}

-- Calls on an open store. A call that fails changes no byte, a write apart.

section Read

variable {n : Nat}

theorem Follows.meets_read
    (h : Follows f Good Good f.Spares (Storage.read n) (f.Shortened n) s)
    (ho : (plain s).closed = false) (hc : (plain s).cursor < (plain s).bytes.size) :
    (Storage.read n).Meets s
      (fun r t => Good t ∧ ∃ k ≤ n, (f.occur ∨ n = 0 ∨ 0 < k) ∧
        r = .bytes ((plain s).bytes.slice (plain s).cursor k) ∧
        plain t = { plain s with
          cursor := (plain s).cursor + ((plain s).bytes.slice (plain s).cursor k).size })
      fun _ t => Missed f Good s t := by
  apply Meets.imp h
  · rintro r t ⟨ht, _, ⟨k, hk, hpos, rfl⟩, hrun⟩
    rw [Memory.run_read ho k hc] at hrun
    obtain ⟨hr, hp⟩ := Prod.mk.inj hrun
    exact ⟨ht, k, hk, hpos, (Except.ok.inj hr).symm, hp.symm⟩
  · rintro e t ⟨ht, ⟨_, ⟨k, _, _, rfl⟩, hrun⟩ | hmiss⟩
    · rw [Memory.run_read ho k hc] at hrun
      cases (Prod.mk.inj hrun).1
    · exact ⟨ht, hmiss⟩

theorem Follows.meets_read_eof
    (h : Follows f Good Good f.Spares (Storage.read n) (f.Shortened n) s)
    (ho : (plain s).closed = false) (hc : (plain s).bytes.size ≤ (plain s).cursor) :
    (Storage.read n).Meets s (fun r t => Good t ∧ r = .eof ∧ plain t = plain s)
      fun _ t => Missed f Good s t := by
  apply Meets.imp h
  · rintro r t ⟨ht, _, ⟨k, _, _, rfl⟩, hrun⟩
    rw [Memory.run_read_eof ho k hc] at hrun
    obtain ⟨hr, hp⟩ := Prod.mk.inj hrun
    exact ⟨ht, (Except.ok.inj hr).symm, hp.symm⟩
  · rintro e t ⟨ht, ⟨_, ⟨k, _, _, rfl⟩, hrun⟩ | hmiss⟩
    · rw [Memory.run_read_eof ho k hc] at hrun
      cases (Prod.mk.inj hrun).1
    · exact ⟨ht, hmiss⟩

theorem Follows.meets_read_closed
    (h : Follows f Good Good f.Spares (Storage.read n) (f.Shortened n) s)
    (hc : (plain s).closed = true) :
    (Storage.read n).Meets s (fun _ _ => False) fun e t =>
      Good t ∧ (e = .closed ∧ plain t = plain s ∨ f.occur ∧ f.Spares (plain s) (plain t)) := by
  apply h.meets_refused
  rintro _ ⟨k, -, -, rfl⟩
  exact Memory.run_read_closed hc k

end Read

/-- A read of an open good store that succeeds before the end gives something, unless it may be
`mute`. -/
def Progresses (mute : Prop) (Good : σ → Prop) : Prop :=
  ∀ n s, Good s → (plain s).closed = false → (plain s).cursor < (plain s).bytes.size → 0 < n →
    (Storage.read n).Meets s (fun r _ => mute ∨ 0 < r.data.size) fun _ _ => True

theorem Reading.progresses (h : Reading f Good) : Progresses f.occur Good := by
  intro n s hs ho hcur hn
  apply ((h.read n s hs).meets_read ho hcur).imp
  · rintro _ t ⟨-, k, -, hpos, rfl, -⟩
    have hsize := Bytes.size_slice (plain s).bytes (plain s).cursor k
    simp only [ReadResult.data, hsize]
    exact hpos.imp_right fun hk => by omega
  · exact fun _ _ _ => trivial

namespace Reading

variable (h : Reading f Good) (hs : Good s)

include h hs

theorem meets_length (ho : (plain s).closed = false) :
    Storage.length.Meets s (fun n t => Good t ∧ n = (plain s).bytes.size ∧ plain t = plain s)
      fun _ t => Missed f Good s t :=
  (h.length s hs).meets (Memory.run_length ho)

theorem meets_cursor (ho : (plain s).closed = false) :
    Storage.cursor.Meets s (fun n t => Good t ∧ n = (plain s).cursor ∧ plain t = plain s)
      fun _ t => Missed f Good s t :=
  (h.cursor s hs).meets (Memory.run_cursor ho)

theorem of_run_cursor_ok {pos : Nat} {t : σ}
    (hr : (Storage.cursor : StoreM σ Nat).run s = (.ok pos, t)) :
    Good t ∧ (plain s).closed = false ∧ pos = (plain s).cursor ∧ plain t = plain s := by
  obtain ⟨ht, _, rfl, hm⟩ := Meets.of_run_ok (h.cursor s hs) hr
  cases hc : (plain s).closed with
  | false =>
    rw [Memory.run_cursor hc] at hm
    obtain ⟨hpos, hp⟩ := Prod.mk.inj hm
    exact ⟨ht, rfl, (Except.ok.inj hpos).symm, hp.symm⟩
  | true =>
    rw [Memory.run_cursor_closed hc] at hm
    cases (Prod.mk.inj hm).1

theorem exists_run_cursor_ok (ho : (plain s).closed = false) (hf : ¬f.occur) :
    ∃ t, (Storage.cursor : StoreM σ Nat).run s = (.ok (plain s).cursor, t) := by
  have hm := h.meets_cursor hs ho
  rcases hr : (Storage.cursor : StoreM σ Nat).run s with ⟨e | pos, t⟩
  · exact absurd (hm.of_run_error hr).2.1 hf
  · exact ⟨t, by rw [(hm.of_run_ok hr).2.1]⟩

theorem exists_run_cursor_closed (hc : (plain s).closed = true) (hf : ¬f.occur) :
    ∃ t, (Storage.cursor : StoreM σ Nat).run s = (.error .closed, t) := by
  have hrefused : ∀ model, Storage.cursor = model →
      model.run (plain s) = (.error .closed, plain s) := by
    rintro _ rfl
    exact Memory.run_cursor_closed hc
  have hm := (h.cursor s hs).meets_refused hrefused
  rcases hr : (Storage.cursor : StoreM σ Nat).run s with ⟨e | pos, t⟩
  · obtain ⟨-, ⟨rfl, -⟩ | ⟨hocc, -⟩⟩ := hm.of_run_error hr
    · exact ⟨t, rfl⟩
    · exact absurd hocc hf
  · exact (hm.of_run_ok hr).elim

/-- A position beyond the largest one is refused; that counts as a failure for no reason. -/
theorem meets_seek (ho : (plain s).closed = false) {pos : Nat} (hp : f.occur ∨ pos ≤ maxPosition) :
    (Storage.seek pos).Meets s (fun _ t => Good t ∧ plain t = { plain s with cursor := pos })
      fun _ t => Missed f Good s t := by
  by_cases hle : pos ≤ maxPosition
  · exact ((h.seek pos s hs).meets (Memory.run_seek ho hle)).imp_ok fun _ _ ht => ⟨ht.1, ht.2.2⟩
  · have hrefused : ∀ model, Storage.seek pos = model →
        model.run (plain s) = (.error (.argument (.positionTooLarge pos)), plain s) := by
      rintro _ rfl
      exact Memory.run_seek_refused ho (Nat.lt_of_not_le hle)
    apply ((h.seek pos s hs).meets_refused hrefused).imp (fun _ _ hf => hf.elim)
    rintro e t ⟨ht, ⟨-, hpt⟩ | hmiss⟩
    · exact ⟨ht, hp.resolve_right hle, hpt ▸ Failures.Spares.rfl⟩
    · exact ⟨ht, hmiss⟩

theorem meets_flush (ho : (plain s).closed = false) :
    Storage.flush.Meets s (fun _ t => Good t ∧ plain t = plain s) fun _ t => Missed f Good s t :=
  ((h.flush s hs).meets (Memory.run_flush ho)).imp_ok fun _ _ ht => ⟨ht.1, ht.2.2⟩

theorem meets_close :
    Storage.close.Meets s (fun _ t => Good t ∧ plain t = { plain s with closed := true })
      fun _ t => Missed f Good s t :=
  ((h.close s hs).meets Memory.run_close).imp_ok fun _ _ ht => ⟨ht.1, ht.2.2⟩

end Reading

namespace Writing

variable (h : Writing f Good After) (hs : Good s) (ho : (plain s).closed = false)

include h hs ho

theorem meets_resize {n : Nat} (hn : n ≤ maxPosition) :
    (Storage.resize n).Meets s
      (fun _ t => After t ∧
        plain t = { plain s with
          bytes := (plain s).bytes.resize n, cursor := min (plain s).cursor n })
      fun _ t => Missed f Good s t :=
  ((h.resize n s hs).meets (Memory.run_resize ho hn)).imp_ok fun _ _ ht => ⟨ht.1, ht.2.2⟩

theorem meets_resize_refused {n : Nat} (hn : maxPosition < n) :
    (Storage.resize n).Meets s (fun _ _ => False)
      fun e t => Good t ∧ (e = .argument (.positionTooLarge n) ∧ plain t = plain s ∨
        f.occur ∧ f.Spares (plain s) (plain t)) := by
  apply (h.resize n s hs).meets_refused
  rintro _ rfl
  exact Memory.run_resize_refused ho hn

theorem meets_write {data : Bytes} (hd : 0 < data.size)
    (hfit : (plain s).cursor + data.size ≤ maxPosition) :
    (Storage.write data).Meets s
      (fun _ t => After t ∧ plain t = { plain s with
        bytes := (plain s).bytes.overwrite (plain s).cursor data
        cursor := (plain s).cursor + data.size })
      fun _ t => Good t ∧ f.occur ∧ f.Tears data (plain s) (plain t) :=
  ((h.write data s hs).meets (Memory.run_write ho hd hfit)).imp_ok fun _ _ ht => ⟨ht.1, ht.2.2⟩

theorem meets_write_refused {data : Bytes} (hd : 0 < data.size)
    (hfit : maxPosition < (plain s).cursor + data.size) :
    (Storage.write data).Meets s (fun _ _ => False)
      fun e t => Good t ∧ (e = .argument (.transferTooLong data.size (plain s).cursor) ∧
        plain t = plain s ∨ f.occur ∧ f.Tears data (plain s) (plain t)) := by
  apply (h.write data s hs).meets_refused
  rintro _ rfl
  exact Memory.run_write_refused ho hd hfit

end Writing

/-- What no call but a write and a change of length can alter: anything about the bytes. -/
theorem Reading.and_bytes (h : Reading f Good) (p : Bytes → Prop) :
    Reading f fun s => Good s ∧ p (plain s).bytes where
  length s hs := (h.length s hs.1).and_bytes (by rintro _ rfl; exact Memory.keeps_length hs.2)
    fun m hm => hm.1 ▸ hs.2
  cursor s hs := (h.cursor s hs.1).and_bytes (by rintro _ rfl; exact Memory.keeps_cursor hs.2)
    fun m hm => hm.1 ▸ hs.2
  seek pos s hs := (h.seek pos s hs.1).and_bytes (by rintro _ rfl; exact Memory.keeps_seek hs.2 pos)
    fun m hm => hm.1 ▸ hs.2
  read n s hs := (h.read n s hs.1).and_bytes
    (by rintro _ ⟨k, _, _, rfl⟩; exact Memory.keeps_read hs.2 k) fun m hm => hm.1 ▸ hs.2
  flush s hs := (h.flush s hs.1).and_bytes (by rintro _ rfl; exact Memory.keeps_flush hs.2)
    fun m hm => hm.1 ▸ hs.2
  close s hs := (h.close s hs.1).and_bytes (by rintro _ rfl; exact Memory.keeps_close hs.2)
    fun m hm => hm.1 ▸ hs.2
  isClosed s hs := h.isClosed s hs.1
  bounded s hs := h.bounded s hs.1

/-- A store that keeps its contract does so through all versions of its bytes. -/
theorem Contract.tracks (h : Contract f Good) {v : Nat → Bytes → Prop}
    (hv : ∀ i, f.Respects (v i)) : Tracks f v fun i s => Good s ∧ v i (plain s).bytes where
  reading i := h.toReading.and_bytes (v i)
  writing i j _ := {
    still s hs hj := ⟨hs.1, hj⟩
    resize n s hs := by
      have hbytes : ∀ model, Storage.resize n = model →
          model.Meets (plain s) (fun _ _ => True) fun _ m => v i m.bytes := by
        rintro _ rfl
        exact (Memory.effect_resize (plain s) n).imp (fun _ _ _ => trivial) fun _ _ ht => ht ▸ hs.2
      have hboth := (h.resize n s hs.1).and_bytes (q := fun _ => True) hbytes
        fun m hm => hm.1 ▸ hs.2
      exact hboth.imp (fun _ ht => ht) fun _ ht hj => ⟨ht.1, hj⟩
    write data s hs := by
      have hbytes : ∀ model, Storage.write data = model →
          model.Meets (plain s) (fun _ _ => True) fun _ m => v i m.bytes := by
        rintro _ rfl
        exact (Memory.effect_write (plain s) data).imp (fun _ _ _ => trivial) fun _ _ ht => ht ▸ hs.2
      -- a torn write leaves the version as it was, since the version respects such writes
      have hboth := (h.write data s hs.1).and_bytes (q := fun _ => True) hbytes
        fun m hm => (hv i).of_tears hm hs.2
      exact hboth.imp (fun _ ht => ht) fun _ ht hj => ⟨ht.1, hj⟩ }
  respects := hv

end ByteTower
