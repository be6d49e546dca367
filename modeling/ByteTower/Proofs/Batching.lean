import Mathlib.Data.List.Chain
import ByteTower.Proofs.Coalescing

namespace ByteTower

open StoreM

theorem length_flatMap_octets (pieces : List Bytes) :
    (pieces.flatMap Bytes.octets).length = total pieces := by
  induction pieces with
  | nil => rfl
  | cons b pieces ih =>
    rw [List.flatMap_cons, List.length_append, ih, Bytes.length_octets, total_cons]

def placed (start : Nat) : List Bytes → List Extent
  | [] => []
  | b :: pieces => ⟨start, b⟩ :: placed (start + b.size) pieces

theorem placed_append (start : Nat) (first second : List Bytes) :
    placed start (first ++ second) = placed start first ++ placed (start + total first) second := by
  induction first generalizing start with
  | nil => rfl
  | cons b first ih =>
    have hassoc : start + b.size + total first = start + (b.size + total first) := by omega
    simp only [List.cons_append, placed, total_cons, ih, hassoc]

/-- The pieces hold the bytes of the chunks in order. None of them is empty or longer than `size`, and
two neighbours are longer than that together. -/
structure Packs (size : Nat) (chunks pieces : List Bytes) : Prop where
  octets : pieces.flatMap Bytes.octets = chunks.flatMap Bytes.octets
  fits : ∀ b ∈ pieces, 0 < b.size ∧ b.size ≤ size
  crowded : pieces.IsChain fun a b => size < a.size + b.size

namespace Packs

variable {size : Nat} {chunks pieces : List Bytes} {last data : Bytes}

theorem nil : Packs size [] [] := ⟨rfl, fun _ hb => absurd hb List.not_mem_nil, .nil⟩

theorem single (hd : 0 < data.size) (hle : data.size ≤ size) : Packs size [data] [data] :=
  ⟨rfl, fun _ hb => List.mem_singleton.1 hb ▸ ⟨hd, hle⟩, .singleton data⟩

theorem total (h : Packs size chunks pieces) : ByteTower.total pieces = ByteTower.total chunks := by
  rw [← length_flatMap_octets, h.octets, length_flatMap_octets]

theorem join (h : Packs size chunks (pieces ++ [last])) (hle : last.size + data.size ≤ size) :
    Packs size (chunks ++ [data]) (pieces ++ [last ++ data]) where
  octets := by
    have hoctets := h.octets
    simp only [List.flatMap_append, List.flatMap_singleton, Bytes.octets_append] at hoctets ⊢
    rw [← hoctets, List.append_assoc]
  fits b hb := by
    rcases List.mem_append.1 hb with hb | hb
    · exact h.fits b (List.mem_append_left _ hb)
    · obtain rfl := List.mem_singleton.1 hb
      have hlast := h.fits last (List.mem_append_right _ (List.mem_singleton.2 rfl))
      rw [ByteArray.size_append]
      omega
  crowded := by
    obtain ⟨hpieces, -, hlast⟩ := List.isChain_append.1 h.crowded
    refine List.isChain_append.2 ⟨hpieces, .singleton _, fun a ha b hb => ?_⟩
    obtain rfl := Option.some.inj hb
    have hbefore := hlast a ha last rfl
    rw [ByteArray.size_append]
    omega

theorem next (h : Packs size chunks (pieces ++ [last])) (hd : 0 < data.size) (hle : data.size ≤ size)
    (hlong : size < last.size + data.size) :
    Packs size (chunks ++ [data]) (pieces ++ [last] ++ [data]) where
  octets := by
    rw [List.flatMap_append, h.octets, List.flatMap_append]
  fits b hb := by
    rcases List.mem_append.1 hb with hb | hb
    · exact h.fits b hb
    · exact List.mem_singleton.1 hb ▸ ⟨hd, hle⟩
  crowded := by
    refine List.isChain_append.2 ⟨h.crowded, .singleton _, fun a ha b hb => ?_⟩
    obtain rfl := Option.some.inj hb
    rw [List.getLast?_concat] at ha
    obtain rfl := Option.some.inj ha
    exact hlong

end Packs

/-- Two neighbours take more than `size` bytes, so there are no more pairs of them than the bytes have
room for, and one piece without a neighbour at most. -/
theorem length_le_of_crowded {size : Nat} : ∀ {pieces : List Bytes},
    (pieces.IsChain fun a b => size < a.size + b.size) →
      pieces.length ≤ 2 * (total pieces / (size + 1)) + 1
  | [], _ => Nat.zero_le _
  | [_], _ => Nat.le_add_left 1 _
  | a :: b :: pieces, h => by
    obtain ⟨hab, hrest⟩ := List.isChain_cons_cons.1 h
    have ih := length_le_of_crowded hrest.tail
    have hle : total pieces + (size + 1) ≤ total (a :: b :: pieces) := by
      simp only [total_cons]
      omega
    have hdiv := Nat.div_le_div_right (c := size + 1) hle
    rw [Nat.add_div_right _ (show 0 < size + 1 from Nat.succ_pos size)] at hdiv
    simp only [List.length_cons, List.tail_cons] at ih ⊢
    omega

def writeAll {σ : Type} [Storage σ] (chunks : List Bytes) : StoreM σ Unit := do
  chunks.forM Storage.write
  Storage.flush

theorem Extent.absorb_stop (p : Extent) (data : Bytes) :
    p.absorb p.stop data = ⟨p.start, p.bytes ++ data⟩ := by
  have hbytes : p.bytes.overwrite (p.stop - p.start) data = p.bytes ++ data := by
    apply Bytes.ext_octets
    have hlen : p.bytes.octets.length = p.bytes.size := Bytes.length_octets _
    have hstop : p.stop - p.start = p.bytes.size := Nat.add_sub_cancel_left _ _
    rw [Bytes.octets_overwrite, hstop, Bytes.octets_append, List.take_of_length_le (by omega),
      List.drop_eq_nil_of_le (by omega)]
    simp
  rw [absorb, hbytes]

namespace WriteBehind

variable {σ : Type} [Meaning σ] {f : Failures} {Good : σ → Prop} {size p : Nat}
variable {start : List Sent} {chunks pieces : List Bytes} {c : WriteBehind (Watched σ)}

/-- After writes of these chunks from `p` on the pieces have been sent, and the last of all is held
back. -/
structure Gathers (Good : σ → Prop) (size p : Nat) (start : List Sent) (chunks pieces : List Bytes)
    (c : WriteBehind (Watched σ)) : Prop where
  sound : Sound (fun s => Good s.store) size c
  isOpen : c.closed = false
  cursor : c.cursor = p + total chunks
  writes : c.inner.writes = start ++ (placed p pieces).map (⟨·, true⟩)
  pending : chunks = [] ∧ pieces = [] ∧ c.pending = none ∨
    ∃ last, c.pending = some ⟨p + total pieces, last⟩ ∧ Packs size chunks (pieces ++ [last])

theorem Gathers.stop (h : Gathers Good size p start chunks pieces c) {last : Bytes}
    (hpacks : Packs size chunks (pieces ++ [last])) :
    (⟨p + total pieces, last⟩ : Extent).stop = c.cursor := by
  have htotal := hpacks.total
  rw [h.cursor, ← htotal]
  simp [Extent.stop, Nat.add_assoc]

theorem Gathers.of_joins (h : Gathers Good size p start chunks pieces c) {data : Bytes} {q : Extent}
    (hq : c.merged? c.cursor data = some q) :
    ∃ last, q = ⟨p + total pieces, last⟩ ∧ Packs size (chunks ++ [data]) (pieces ++ [last]) := by
  obtain ⟨_, hp, -, -, hfit, rfl⟩ := merged?_eq_some hq
  obtain ⟨-, -, hnone⟩ | ⟨last, hlast, hpacks⟩ := h.pending
  · exact absurd (hp.symm.trans hnone) (Option.some_ne_none _)
  · obtain rfl := Option.some.inj (hlast.symm.trans hp)
    have hstop := h.stop hpacks
    have hshort : last.size + data.size ≤ size := by
      rw [h.sound.capacity, ← hstop] at hfit
      simp only [Extent.stop] at hfit
      omega
    refine ⟨last ++ data, ?_, hpacks.join hshort⟩
    rw [← hstop, Extent.absorb_stop]

theorem Gathers.of_replaces (h : Gathers Good size p start chunks pieces c) {data : Bytes}
    (hd : 0 < data.size) (hle : data.size ≤ size) (hq : c.merged? c.cursor data = none) :
    ∃ pieces', c.inner.writes ++ settled c.pending = start ++ (placed p pieces').map (⟨·, true⟩) ∧
      c.cursor = p + total pieces' ∧ Packs size (chunks ++ [data]) (pieces' ++ [data]) := by
  obtain ⟨rfl, rfl, hnone⟩ | ⟨last, hlast, hpacks⟩ := h.pending
  · refine ⟨[], ?_, h.cursor, .single hd hle⟩
    rw [hnone, h.writes]
    exact List.append_nil _
  · have hstop := h.stop hpacks
    have hlong : size < last.size + data.size := by
      refine Nat.lt_of_not_le fun hshort => ?_
      have hstart : p + total pieces ≤ c.cursor := by
        rw [← hstop]
        exact Nat.le_add_right _ _
      have hfit : max (c.cursor + data.size) (⟨p + total pieces, last⟩ : Extent).stop -
          (p + total pieces) ≤ c.capacity := by
        rw [h.sound.capacity, ← hstop]
        simp only [Extent.stop]
        omega
      have hmerged := merged?_of_joins hlast hstart (Nat.le_of_eq hstop.symm) hfit
      exact absurd (hmerged.symm.trans hq) (Option.some_ne_none _)
    refine ⟨pieces ++ [last], ?_, ?_, hpacks.next hd hle hlong⟩
    · rw [h.writes, hlast, placed_append, List.map_append, List.append_assoc]
      rfl
    · rw [total_append, ← hstop]
      simp [Extent.stop, Nat.add_assoc]

theorem Gathers.of_sends (h : Gathers Good size p start chunks pieces c) {data : Bytes}
    (hd : 0 < data.size) (hle : data.size ≤ size) {sent : List Sent} {pending : Option Extent}
    (hs : Sends c (.write data) sent pending true) :
    ∃ pieces', c.inner.writes ++ sent = start ++ (placed p pieces').map (⟨·, true⟩) ∧
      ∃ last, pending = some ⟨p + total pieces', last⟩ ∧
        Packs size (chunks ++ [data]) (pieces' ++ [last]) := by
  cases hs with
  | nothing hr | settles hr => exact absurd (hr hd) (by decide)
  | joins hr _ hq =>
    cases hr
    obtain ⟨last, rfl, hpacks⟩ := h.of_joins hq
    refine ⟨pieces, ?_, last, rfl, hpacks⟩
    rw [List.append_nil]
    exact h.writes
  | replaces hr _ _ hq =>
    cases hr
    obtain ⟨pieces', hw, hcur, hpacks⟩ := h.of_replaces hd hle hq
    exact ⟨pieces', hw, data, by rw [hcur], hpacks⟩
  | passes hr hlong =>
    cases hr
    rw [h.sound.capacity] at hlong
    exact absurd hle (Nat.not_le_of_lt hlong)

variable [Storage σ] {faults : σ → Nat}

theorem Gathers.write (h : Contract f Good) (hb : Blames Good faults)
    (hc : Gathers Good size p start chunks pieces c) {data : Bytes} (hd : 0 < data.size)
    (hle : data.size ≤ size) (hfit : p + total (chunks ++ [data]) ≤ maxPosition) :
    (Storage.write data : StoreM (WriteBehind (Watched σ)) Unit).Meets c
      (fun _ d => (∃ pieces', Gathers Good size p start (chunks ++ [data]) pieces' d) ∧
        faults c.inner.store ≤ faults d.inner.store)
      fun _ d => faults c.inner.store < faults d.inner.store := by
  have hfit' : c.cursor + data.size ≤ maxPosition := by
    rw [hc.cursor]
    simpa [Nat.add_assoc] using hfit
  have hsends := sends_write h hc.sound hc.isOpen hd hfit'
  have hcharge := charged_write (Watched.contract h) hb.watched hc.sound hc.isOpen hd hfit'
  have hcontract := (tracks (Watched.contract h).unversioned size).contract 0
  have hplain := hcontract.meets_write hc.sound.behind hc.isOpen hd hfit'
  refine ((hsends.and hplain).and hcharge).imp ?_ fun _ _ hd => hd.2
  rintro _ d ⟨⟨⟨sent, hw, hsends⟩, hbehind, hp⟩, hle'⟩
  obtain ⟨pieces', hwrites, hpending⟩ := hc.of_sends hd hle hsends
  refine ⟨⟨pieces', hbehind.sound, ?_, ?_, hw.trans hwrites, .inr hpending⟩, hle'⟩
  · exact (congrArg Memory.closed hp).trans hc.isOpen
  · have hcursor : d.cursor = c.cursor + data.size := congrArg Memory.cursor hp
    rw [hcursor, hc.cursor]
    simp [Nat.add_assoc]

theorem Gathers.forM (h : Contract f Good) (hrec : Reckons Good faults) :
    ∀ {next chunks pieces : List Bytes} {c : WriteBehind (Watched σ)},
      Gathers Good size p start chunks pieces c →
      (∀ data ∈ next, 0 < data.size ∧ data.size ≤ size) →
      p + total (chunks ++ next) ≤ maxPosition →
      (next.forM Storage.write : StoreM (WriteBehind (Watched σ)) Unit).Meets c
        (fun _ d => (∃ pieces', Gathers Good size p start (chunks ++ next) pieces' d) ∧
          faults c.inner.store ≤ faults d.inner.store)
        fun _ d => faults c.inner.store < faults d.inner.store
  | [], chunks, pieces, c, hc, _, _ => by
    rw [List.append_nil]
    exact meets_pure ⟨⟨pieces, hc⟩, Nat.le_refl _⟩
  | data :: next, chunks, pieces, c, hc, hsmall, hfit => by
    obtain ⟨hd, hle⟩ := hsmall data List.mem_cons_self
    have happend : chunks ++ data :: next = chunks ++ [data] ++ next := by simp
    rw [happend] at hfit ⊢
    have hfit' : p + total (chunks ++ [data]) ≤ maxPosition := by
      rw [total_append] at hfit
      omega
    show (Storage.write data >>= fun _ => next.forM Storage.write : StoreM _ Unit).Meets c _ _
    apply (hc.write h hrec.toBlames hd hle hfit').bind
    rintro _ d ⟨⟨_, hd⟩, hle'⟩
    have hrest := hd.forM h hrec (fun data hmem => hsmall data (List.mem_cons_of_mem _ hmem)) hfit
    exact hrest.imp (fun _ _ he => ⟨he.1, Nat.le_trans hle' he.2⟩)
      fun _ _ he => Nat.lt_of_le_of_lt hle' he

theorem Gathers.flush (h : Contract f Good) (hrec : Reckons Good faults)
    (hc : Gathers Good size p start chunks pieces c) :
    (Storage.flush : StoreM (WriteBehind (Watched σ)) Unit).Meets c
      (fun _ d => d.pending = none ∧ ∃ pieces',
        d.inner.writes = start ++ (placed p pieces').map (⟨·, true⟩) ∧ Packs size chunks pieces')
      fun _ d => faults c.inner.store < faults d.inner.store := by
  have hcharge := charged_flush (Watched.contract h) hrec.watched.toBlames hrec.watched.flush
    hc.sound hc.isOpen
  have hflush : (Storage.flush : StoreM (WriteBehind (Watched σ)) Unit).Meets c
      (fun _ d => d.pending = none ∧ d.inner.writes = c.inner.writes ++ settled c.pending)
      fun _ _ => True := by
    refine meets_get_bind (meets_requireOpen_bind hc.isOpen ?_)
    apply ((ships_settle h hc.sound hc.isOpen).imp_error fun _ _ _ => trivial).bind
    rintro _ d ⟨⟨-, hnone, -⟩, hw⟩
    have hinner : (onInner Storage.flush).Ends (Idle d) d :=
      idle_onInner ⟨rfl, rfl⟩ (Watched.ends_writes (fun _ _ _ => rfl) _ _)
    exact hinner.imp (fun _ _ he => ⟨he.1.trans hnone, he.2.trans hw⟩) fun _ _ _ => trivial
  refine (hflush.and hcharge).imp ?_ fun _ _ hd => hd.2
  rintro _ d ⟨⟨hnone, hw⟩, -⟩
  refine ⟨hnone, ?_⟩
  rw [hw, hc.writes]
  obtain ⟨rfl, rfl, hclean⟩ | ⟨last, hlast, hpacks⟩ := hc.pending
  · exact ⟨[], by rw [hclean]; exact List.append_nil _, .nil⟩
  · refine ⟨pieces ++ [last], ?_, hpacks⟩
    rw [hlast, placed_append, List.map_append, List.append_assoc]
    rfl

theorem gathers_writeAll (h : Contract f Good) (hrec : Reckons Good faults)
    (hc : Sound (fun s => Good s.store) size c) (ho : c.closed = false) (hclean : c.pending = none)
    (hsmall : ∀ data ∈ chunks, 0 < data.size ∧ data.size ≤ size)
    (hfit : c.cursor + total chunks ≤ maxPosition) :
    (writeAll chunks : StoreM (WriteBehind (Watched σ)) Unit).Meets c
      (fun _ d => d.pending = none ∧ ∃ pieces, d.inner.writes =
        c.inner.writes ++ (placed c.cursor pieces).map (⟨·, true⟩) ∧ Packs size chunks pieces)
      fun _ d => faults c.inner.store < faults d.inner.store := by
  have hstart : Gathers Good size c.cursor c.inner.writes [] [] c :=
    ⟨hc, ho, rfl, (List.append_nil _).symm, .inl ⟨rfl, rfl, hclean⟩⟩
  apply (hstart.forM h hrec hsmall hfit).bind
  rintro _ d ⟨⟨_, hd⟩, hle⟩
  exact (hd.flush h hrec).imp_error fun _ _ he => Nat.lt_of_le_of_lt hle he

end WriteBehind

section Runs

variable {κ ω ς ρ μ : Type} [Audience κ ω] [Collector ς] [ByteSource ρ] [Storage μ] [Meaning μ]
variable {f : Failures} {Good : μ → Prop} (h : Contract f Good) {m : μ} (hm : Good m)
variable (world world' : ω) (below above : List (Action κ ς ρ)) {t : AnyTower κ μ}
variable (ht : t = (leave (below.map Action.run) (AnyTower.ofMedium m, world)).1) {size : Nat}
variable {c : WriteBehind (Watched (Tower κ μ t.kinds))}
variable (hc : WriteBehind.wrap size ⟨t.tower, []⟩ = .ok c)
variable {u : Watched (WriteBehind (Watched (Tower κ μ t.kinds)))}
variable (hu : u = (leave (above.map Action.run) (AnyTower.ofMedium ⟨c, []⟩, world')).1.medium)

include h hm ht hc hu

/-- An open layer that holds nothing back, after any run. Small writes from its cursor on and a flush
are taken if there is no fault. They reach the store below as pieces one behind the other, with the
same bytes in the same order. No piece is longer than may be held back, and two neighbours are, so
there are few of them. -/
theorem sequential_writes_gathered (ho : u.store.closed = false) (hclean : u.store.pending = none)
    {chunks : List Bytes} (hsmall : ∀ data ∈ chunks, 0 < data.size ∧ data.size ≤ size)
    (hfit : u.store.cursor + total chunks ≤ maxPosition) {faults : μ → Nat}
    (hrec : Reckons Good faults)
    (hsame : faults ((writeAll chunks).run u.store).2.inner.store.medium =
      faults u.store.inner.store.medium) :
    ∃ d pieces, (writeAll chunks).run u.store = (.ok (), d) ∧ d.pending = none ∧
      d.inner.writes = u.store.inner.writes ++ (placed u.store.cursor pieces).map (⟨·, true⟩) ∧
      Packs size chunks pieces ∧ pieces.length ≤ 2 * (total chunks / (size + 1)) + 1 := by
  have hcontract := AnyTower.contract_of_medium (κ := κ) h t.kinds
  have htraffic := WriteBehind.traffic_leave h hm world world' below above ht hc hu
  have hgathers := WriteBehind.gathers_writeAll hcontract (hrec.tower h t.kinds) htraffic.sound ho
    hclean hsmall hfit
  rcases hr : (writeAll chunks).run u.store with ⟨e | _, d⟩
  · rw [hr] at hsame
    exact absurd hsame (Nat.ne_of_gt (hgathers.of_run_error hr))
  · obtain ⟨hnone, pieces, hw, hpacks⟩ := hgathers.of_run_ok hr
    have hcount := length_le_of_crowded hpacks.crowded
    rw [hpacks.total] at hcount
    exact ⟨d, pieces, rfl, hnone, hw, hpacks, hcount⟩

end Runs

def flushed : List (Action String EndlessSink ThrottledSource) :=
  [.step (.store (.write (.ofOctets [9, 9]))), .step (.store .flush)]

def quarters : List Bytes :=
  [.ofOctets [1, 2, 3], .ofOctets [4], .ofOctets [5, 6], .ofOctets [7, 8, 9]]

/-- Four writes go down as three pieces, which is as many as there may be. -/
theorem sequential_writes_gathered_of_quarters :
    ∃ (c : WriteBehind (Watched (Tower String (Tallied Memory) windowed.kinds)))
      (u : Watched (WriteBehind (Watched (Tower String (Tallied Memory) windowed.kinds)))),
      WriteBehind.wrap 4 ⟨windowed.tower, []⟩ = .ok c ∧
      u = (leave (flushed.map Action.run) (AnyTower.ofMedium ⟨c, []⟩, ({} : Cast))).1.medium ∧
      (((writeAll quarters).run u.store).2.inner.writes.map
        fun w => (w.extent.start, w.extent.bytes.octets)) =
        [(0, [9, 9]), (2, [1, 2, 3, 4]), (6, [5, 6]), (8, [7, 8, 9])] ∧
      ∃ d pieces, (writeAll quarters).run u.store = (.ok (), d) ∧ d.pending = none ∧
        d.inner.writes = u.store.inner.writes ++ (placed u.store.cursor pieces).map (⟨·, true⟩) ∧
        Packs 4 quarters pieces ∧ pieces.length ≤ 2 * (total quarters / 5) + 1 := by
  have hgood : faultless.medium.Bounded := by
    show faultless.medium.bytes.size ≤ maxPosition
    decide
  have hrun := fun (c : WriteBehind (Watched (Tower String (Tallied Memory) windowed.kinds)))
      (hc : WriteBehind.wrap 4 ⟨windowed.tower, []⟩ = .ok c) =>
    sequential_writes_gathered (Tallied.contract Memory.contract) hgood ({} : Cast) ({} : Cast) _
      flushed (t := windowed) rfl hc rfl
  refine ⟨_, _, rfl, rfl, ?_, hrun _ rfl ?_ ?_ ?_ ?_ (Tallied.counts_failed.reckons _) ?_⟩
  · decide +kernel
  · decide +kernel
  · decide +kernel
  · decide +kernel
  · decide +kernel
  · decide +kernel

end ByteTower
