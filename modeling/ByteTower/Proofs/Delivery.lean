import ByteTower.Proofs.Tally

namespace ByteTower

open StoreM

namespace Tower

variable {κ μ : Type}

/-- No layer holds anything back. -/
def Settled : {kinds : List LayerKind} → Tower κ μ kinds → Prop
  | [], _ => True
  | .readAhead :: _, c => Settled c.inner
  | .writeBehind :: _, c => c.pending = none ∧ Settled c.inner
  | .blocks :: _, v => Settled v.inner

theorem Settled.bytes_medium [Meaning μ] : ∀ {kinds : List LayerKind} {t : Tower κ μ kinds},
    Settled t → (plain t.medium).bytes = (plain t).bytes
  | [], _, _ => rfl
  | .readAhead :: _, c, h => bytes_medium (t := c.inner) h
  | .writeBehind :: _, c, h => by
    show (plain (medium c.inner)).bytes = Extent.seen c.pending (plain c.inner).bytes
    rw [h.1, Extent.seen]
    exact bytes_medium h.2
  | .blocks :: _, v, h => bytes_medium (t := v.inner) h

end Tower

theorem WriteBehind.settle_pending {σ : Type} [Storage σ] (c : WriteBehind σ) :
    settle.Meets c (fun _ d => d.pending = none) fun _ _ => True := by
  apply meets_get_bind
  split
  case h_1 hnone => exact meets_pure hnone
  case h_2 => exact meets_true.bind fun _ _ _ => meets_true.bind fun _ _ _ => meets_modify rfl

theorem WriteBehind.release_of_open {σ : Type} [Storage σ] {c : WriteBehind σ}
    (ho : c.closed = false) :
    Storage.release c =
      { (settle.run c).2 with inner := Storage.release (settle.run c).2.inner } := by
  show release c = _
  rw [release, ho]
  rfl

namespace Tower

variable {κ μ : Type} [Storage μ]

/-- A flush that succeeds has reached every layer. -/
theorem flush_settled : ∀ {kinds : List LayerKind} (t : Tower κ μ kinds),
    Storage.flush.Meets t (fun _ u => Settled u) fun _ _ => True
  | [], _ => meets_true
  | .readAhead :: _, c => by
    have hinner : (ReadAhead.onInner Storage.flush).Meets c (fun _ d => Settled d.inner)
        fun _ _ => True := Meets.zoom (flush_settled c.inner)
    apply meets_get_bind
    cases ho : c.closed with
    | true => exact meets_of_error rfl trivial
    | false => exact hinner
  | .writeBehind :: _, c => by
    apply meets_get_bind
    cases ho : c.closed with
    | true => exact meets_of_error rfl trivial
    | false =>
      apply (WriteBehind.settle_pending c).bind
      intro _ d hd
      have hinner : (WriteBehind.onInner Storage.flush).Meets d
          (fun _ e => e.pending = none ∧ Settled e.inner) fun _ _ => True :=
        Meets.zoom ((flush_settled d.inner).imp_ok fun _ _ hu => ⟨hd, hu⟩)
      exact hinner
  | .blocks :: _, v => by
    have hinner : (BlockView.onInner Storage.flush).Meets v (fun _ w => Settled w.inner)
        fun _ _ => True := Meets.zoom (flush_settled v.inner)
    exact hinner

variable [Meaning μ] {f : Failures} {Good : μ → Prop} (h : Contract f Good)

include h

theorem close_settled : ∀ {kinds : List LayerKind} {t : Tower κ μ kinds},
    Sound (fun _ _ => True) (fun _ => Good) kinds 0 t → (plain t).closed = false →
      Storage.close.Meets t (fun _ u => Settled u) fun _ _ => True
  | [], _, _, _ => meets_true
  | .readAhead :: _, c, ⟨_, hc⟩, ho => by
    have hinner : (ReadAhead.onInner Storage.close).Meets c (fun _ d => Settled d.inner)
        fun _ _ => True := Meets.zoom (close_settled hc.inner (hc.closed.trans ho))
    apply meets_get_bind
    rw [if_neg (Bool.not_eq_true _ ▸ ho)]
    apply hinner.bind
    intro _ d hd
    exact meets_modify hd
  | .writeBehind :: kinds, c, ⟨_, hc⟩, ho => by
    have htracks := Tower.tracks (κ := κ) h.unversioned kinds
    apply meets_get_bind
    rw [if_neg (Bool.not_eq_true _ ▸ ho)]
    have hsettle := WriteBehind.meets_settle htracks hc ho
    apply (hsettle.imp_error fun _ _ _ => trivial).bind
    intro _ d ⟨hd, hnone, hp⟩
    have hod : d.closed = false := (congrArg Memory.closed hp).trans ho
    have hinner : (WriteBehind.onInner Storage.close).Meets d
        (fun _ e => e.pending = none ∧ Settled e.inner) fun _ _ => True :=
      Meets.zoom ((close_settled hd.inner (hd.closed.trans hod)).imp_ok fun _ _ hu => ⟨hnone, hu⟩)
    apply hinner.bind
    intro _ e he
    exact meets_modify he
  | .blocks :: _, v, hv, ho => by
    have hinner : (BlockView.onInner Storage.close).Meets v (fun _ w => Settled w.inner)
        fun _ _ => True := Meets.zoom (close_settled (t := v.inner) hv ho)
    exact hinner

/-- Letting go of an open tower loses nothing unless a call of the medium fails. -/
theorem release_delivers {failed : μ → Nat} (hb : Blames Good failed)
    (hlet : ∀ m : μ, Storage.release m = m) :
    ∀ {kinds : List LayerKind} {t : Tower κ μ kinds},
      Sound (fun _ _ => True) (fun _ => Good) kinds 0 t → (plain t).closed = false →
        failed t.medium ≤ failed (Storage.release t).medium ∧
          (failed (Storage.release t).medium = failed t.medium →
            (plain (Storage.release t).medium).bytes = (plain t).bytes)
  | [], m, _, _ => by
    have hleaf : ∀ m : μ, failed m ≤ failed (Storage.release m) ∧
        (failed (Storage.release m) = failed m →
          (plain (Storage.release m)).bytes = (plain m).bytes) := by
      intro m
      rw [hlet]
      exact ⟨Nat.le_refl _, fun _ => rfl⟩
    exact hleaf m
  | .readAhead :: _, c, ⟨_, hc⟩, ho =>
    release_delivers (t := c.inner) hb hlet hc.inner (hc.closed.trans ho)
  | .writeBehind :: kinds, c, ⟨_, hc⟩, ho => by
    have hsettle := (WriteBehind.meets_settle (Tower.tracks (κ := κ) h.unversioned kinds) hc ho).and
      (WriteBehind.charged_settle (AnyTower.contract_of_medium h kinds)
        (Tower.blames h hb kinds) hc.sound ho)
    have hmedium : (Storage.release c).medium =
        (Storage.release (WriteBehind.settle.run c).2.inner).medium :=
      congrArg (fun d : Tower κ μ (.writeBehind :: kinds) => d.medium) (WriteBehind.release_of_open ho)
    rw [hmedium]
    rcases hr : WriteBehind.settle.run c with ⟨e | _, d⟩
    · -- the count has gone up, and letting go of the layers below does not bring it down
      obtain ⟨⟨hd, _, _, hclosed, _⟩, hlt⟩ := hsettle.of_run_error hr
      have hopen := hd.sound.closed.trans (hclosed.trans ho)
      have hbelow := release_delivers hb hlet hd.sound.inner hopen
      have hup := Nat.lt_of_lt_of_le hlt hbelow.1
      exact ⟨Nat.le_of_lt hup, fun heq => absurd heq (Nat.ne_of_gt hup)⟩
    · obtain ⟨⟨hd, hnone, hp⟩, hle⟩ := hsettle.of_run_ok hr
      have hopen := hd.closed.trans ((congrArg Memory.closed hp).trans ho)
      have hbelow := release_delivers hb hlet hd.inner hopen
      have hshown : (plain d).bytes = (plain d.inner).bytes := by
        show Extent.seen d.pending (plain d.inner).bytes = _
        rw [hnone, Extent.seen]
      refine ⟨Nat.le_trans hle hbelow.1, fun heq => ?_⟩
      have hquiet := Nat.le_antisymm (heq ▸ hle) hbelow.1
      exact (hbelow.2 hquiet).trans (hshown.symm.trans (congrArg Memory.bytes hp))
  | .blocks :: _, v, hv, ho => release_delivers (t := v.inner) hb hlet hv ho

end Tower

/-- Nothing is held back, and the medium has the bytes `b`. -/
structure Tower.Delivered {κ μ : Type} [Meaning μ] {kinds : List LayerKind} (t : Tower κ μ kinds)
    (b : Bytes) : Prop where
  settled : t.Settled
  bytes : (plain t.medium).bytes = b

namespace AnyTower

variable {κ μ : Type} [Storage μ] [Meaning μ]

/-- Whichever way a tower is made to hand on what it shows, it does so. -/
structure Delivers (t : AnyTower κ μ) : Prop where
  flush : ∀ u, Storage.flush.run t.tower = (.ok (), u) → u.Delivered (plain t.tower).bytes
  close : Storage.isClosed t.tower = false →
    ∀ u, Storage.close.run t.tower = (.ok (), u) → u.Delivered (plain t.tower).bytes
  /-- A close that fails leaves all to a later one. -/
  retry : Storage.isClosed t.tower = false →
    ∀ e u, Storage.close.run t.tower = (.error e, u) →
      Storage.isClosed u = false ∧ (plain u).bytes = (plain t.tower).bytes ∧
      ∀ requests : List Request, (∀ r ∈ requests, ∀ pos, r.mutation? pos = none) →
        let w := leave (requests.map Request.run) u
        Storage.isClosed w = false →
          ∀ w', Storage.close.run w = (.ok (), w') → w'.Delivered (plain t.tower).bytes
  /-- While the owner lets go of the tower no call of the medium fails, however that is counted. -/
  release : Storage.isClosed t.tower = false →
    ∀ failed : μ → Nat, Counts failed → failed t.release = failed t.medium →
      (plain t.release).bytes = (plain t.tower).bytes

variable {f : Failures} {Good : μ → Prop} (h : Contract f Good)

include h

theorem close_delivers {kinds : List LayerKind} {t u : Tower κ μ kinds}
    (ht : Tower.Sound (fun _ _ => True) (fun _ => Good) kinds 0 t)
    (ho : Storage.isClosed t = false) (hu : Storage.close.run t = (.ok (), u)) :
    u.Delivered (plain t).bytes := by
  have hc := contract_of_medium (κ := κ) h kinds
  have hopen : (plain t).closed = false := (hc.isClosed t ht).symm.trans ho
  have hsettled := (Tower.close_settled h ht hopen).of_run_ok hu
  obtain ⟨-, hp⟩ := (hc.meets_close ht).of_run_ok hu
  exact ⟨hsettled, by rw [hsettled.bytes_medium, hp]⟩

theorem Intact.delivers (hlet : ∀ m : μ, Storage.release m = m) {t : AnyTower κ μ}
    (ht : t.Intact Good) : t.Delivers := by
  have hc := contract_of_medium (κ := κ) h t.kinds
  have hopen : Storage.isClosed t.tower = false → (plain t.tower).closed = false :=
    fun ho => (hc.isClosed t.tower ht).symm.trans ho
  constructor
  case flush =>
    intro u hu
    have hsettled := (Tower.flush_settled t.tower).of_run_ok hu
    obtain ⟨-, _, rfl, hrun⟩ := Meets.of_run_ok (hc.flush t.tower ht) hu
    have hkeeps := Memory.keeps_flush (p := fun b => b = (plain t.tower).bytes) rfl
    exact ⟨hsettled, hsettled.bytes_medium.trans (hkeeps.of_run_ok hrun)⟩
  case close =>
    intro ho u hu
    exact close_delivers h ht ho hu
  case retry =>
    intro ho e u hu
    obtain ⟨hsound, -, hb, hclosed, -⟩ := (hc.meets_close ht).of_run_error hu
    refine ⟨?_, hb, ?_⟩
    · rw [hc.isClosed u hsound, hclosed]
      exact hopen ho
    · intro requests hstill w hw w' hrun
      obtain ⟨hsoundw, hbw⟩ := Request.bytes_leave hc hsound hstill
      rw [← hb, ← hbw]
      exact close_delivers h hsoundw hw hrun
  case release =>
    intro ho failed hcounts hquiet
    exact (Tower.release_delivers h (hcounts.blames Good) hlet ht (hopen ho)).2 hquiet

end AnyTower

/-- Whatever has been done before to a tower and whichever calls of the medium have failed in it, a
flush and a close that succeed and the end of an open tower deliver all that the tower shows. -/
theorem delivery {κ ω ς ρ μ : Type} [Audience κ ω] [Collector ς] [ByteSource ρ] [Storage μ]
    [Meaning μ] {Good : μ → Prop} (h : Contract .torn Good) (hlet : ∀ m : μ, Storage.release m = m)
    {m : μ} (hm : Good m) (world : ω) (actions : List (Action κ ς ρ)) :
    (leave (actions.map Action.run) (AnyTower.ofMedium m, world)).1.Delivers :=
  AnyTower.Intact.delivers h hlet (AnyTower.intact_leave h hm world actions)

/-- Six bytes with a tally. The third call fails, after a byte if it is a write, and so does the
sixth. -/
def stumbling : Tallied Scheduled where
  medium :=
    { memory := .ofBytes (.ofOctets [1, 2, 3, 4, 5, 6])
      schedule := fun n => if n = 2 ∨ n = 5 then some (.io (.reported .other "lost"), 1) else none }

def heldBack : List (Action String EndlessSink ThrottledSource) :=
  [.step (.wrap (.writeBehind 2)), .step (.wrap (.readAhead 3)), .step (.wrap (.writeBehind 4)),
    .step (.wrap (.blocks 2)), .step (.store (.write (.ofOctets [9, 9, 9]))), .step (.store .flush)]

/-- The flush stops after a byte. Then a close fails as well, and the next one does not; and if the
tower is let go of at once, no further call fails. -/
theorem delivery_after_failures :
    ∃ t : AnyTower String (Tallied Scheduled),
      t = (leave (heldBack.map Action.run) (AnyTower.ofMedium stumbling, ({} : Cast))).1 ∧
      Bytes.octets t.medium.medium.memory.bytes = [9, 2, 3, 4, 5, 6] ∧
      (Storage.close.run t.tower).1.isOk = false ∧
      (Storage.close.run (Storage.close.run t.tower).2).1.isOk = true ∧
      t.release.failed = t.medium.failed ∧
      Bytes.octets t.release.medium.memory.bytes = [9, 9, 9, 4, 5, 6] ∧ t.Delivers := by
  refine ⟨_, rfl, ?_, ?_, ?_, ?_, ?_, ?_⟩
  · decide +kernel
  · decide +kernel
  · decide +kernel
  · decide +kernel
  · decide +kernel
  · exact delivery (Tallied.contract (Scheduled.contract trivial trivial)) (fun _ => rfl)
      (Or.inl fun _ => trivial) ({} : Cast) heldBack

end ByteTower
