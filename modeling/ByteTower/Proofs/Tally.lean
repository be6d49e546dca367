import ByteTower.Proofs.Media
import ByteTower.Proofs.Request
import ByteTower.Proofs.Run

namespace ByteTower

open StoreM

def Counts {μ : Type} [Storage μ] (failed : μ → Nat) : Prop :=
  ∀ (r : Request) (m : μ),
    r.run.Meets m (fun _ t => failed t = failed m) fun _ t => failed t = failed m + 1

theorem Tallied.counts_failed {μ : Type} [Storage μ] : Counts (failed : Tallied μ → Nat) := by
  intro r m
  -- every call is tallied, and either way the tally is the count by definition
  have hcall : ∀ {α : Type} (act : StoreM μ α), (call act).Meets m
      (fun _ t => t.failed = m.failed) fun _ t => t.failed = m.failed + 1 :=
    fun act => meets_call (meets_true.imp (fun _ _ _ => rfl) fun _ _ _ => rfl)
  cases r with
  | length | resize | cursor | seek | read | write | flush | close => exact Meets.map (hcall _)

namespace StoreM

variable {σ τ α β : Type} {failed : σ → Nat} {act : StoreM σ α} {s : σ}

/-- The count never goes down, and where `act` fails it goes up. -/
def Charged (failed : σ → Nat) (act : StoreM σ α) (s : σ) : Prop :=
  act.Meets s (fun _ t => failed s ≤ failed t) fun _ t => failed s < failed t

theorem charged_of_map {g : α → β} (h : (g <$> act).Charged failed s) : act.Charged failed s := by
  apply meets_iff.2
  constructor
  · intro a t hr
    exact Meets.of_run_ok h (a := g a) (by rw [run_map, hr]; rfl)
  · intro e t hr
    exact Meets.of_run_error h (e := e) (by rw [run_map, hr]; rfl)

theorem Charged.bind {next : α → StoreM σ β} {mid : α → σ → Prop} {bad : StoreError → σ → Prop}
    (h : act.Charged failed s) (hm : act.Meets s mid bad)
    (hn : ∀ a t, mid a t → (next a).Charged failed t) : (act >>= next).Charged failed s := by
  have hboth := (Meets.and h hm).imp_error fun _ _ ht => ht.1
  apply hboth.bind
  intro a t ht
  apply (hn a t ht.2).imp
  · intro _ u hu
    exact Nat.le_trans ht.1 hu
  · intro _ u hu
    exact Nat.lt_of_le_of_lt ht.1 hu

theorem Charged.zoom {part : τ → σ} {put : σ → τ → τ} {t : τ} (h : act.Charged failed (part t))
    (hput : ∀ s, part (put s t) = s) : (act.zoom part put).Charged (fun t => failed (part t)) t := by
  apply Meets.zoom
  simp only [hput]
  exact h

end StoreM

variable {σ : Type} [Storage σ] [Meaning σ]

/-- An open good store finds its positions and takes bytes unless a call of its medium fails. -/
structure Blames (Good : σ → Prop) (failed : σ → Nat) : Prop where
  seek : ∀ pos s, Good s → (plain s).closed = false → pos ≤ maxPosition →
    (Storage.seek pos).Charged failed s
  write : ∀ data s, Good s → (plain s).closed = false → 0 < data.size →
    (plain s).cursor + data.size ≤ maxPosition → (Storage.write data).Charged failed s

omit [Meaning σ] in
theorem Counts.charged_run {failed : σ → Nat} (h : Counts failed) (r : Request) (s : σ) :
    r.run.Charged failed s :=
  (h r s).imp (fun _ _ ht => Nat.le_of_eq ht.symm) fun _ _ ht => Nat.lt_of_succ_le (Nat.le_of_eq ht.symm)

theorem Counts.blames {failed : σ → Nat} (h : Counts failed) (Good : σ → Prop) :
    Blames Good failed where
  seek pos s _ _ _ := charged_of_map (h.charged_run (.seek pos) s)
  write data s _ _ _ _ := charged_of_map (h.charged_run (.write data) s)

namespace ReadAhead

variable {f : Failures} {Good : σ → Prop} {failed : σ → Nat} {size : Nat} {c : ReadAhead σ}

theorem charged_write (h : Contract f Good) (hb : Blames Good failed) (hc : Sound Good size c)
    (ho : c.closed = false) {data : Bytes} (hd : 0 < data.size)
    (hfit : c.cursor + data.size ≤ maxPosition) :
    (Storage.write data : StoreM (ReadAhead σ) Unit).Charged (fun d => failed d.inner) c := by
  have hopen := hc.closed.trans ho
  have hpos : c.cursor ≤ maxPosition := by omega
  refine meets_get_bind (meets_requireOpen_bind ho ?_)
  rw [if_neg (Nat.ne_of_gt hd)]
  apply meets_endOf_bind hfit
  have hseek : (onInner (Storage.seek c.cursor)).Charged (fun d => failed d.inner) c :=
    (hb.seek c.cursor c.inner hc.inner hopen hpos).zoom fun _ => rfl
  apply hseek.bind (meets_onInner hc (h.meets_seek hc.inner hopen (Or.inr hpos)))
  rintro _ _ ⟨t, rfl, ht, hp⟩
  have hwrite : (Storage.write data).Charged failed t := by
    apply hb.write data t ht
    · rw [hp]
      exact hopen
    · exact hd
    · rw [hp]
      exact hfit
  have hkept : (tryCatch (onInner (Storage.write data)) fun e => do
      modify invalidate
      throw e).Charged (fun d => failed d.inner) { c with inner := t } := by
    have hcall : (onInner (Storage.write data)).Charged (fun d => failed d.inner)
        { c with inner := t } := hwrite.zoom fun _ => rfl
    apply Meets.handle hcall
    intro e d hlt
    exact meets_modify_bind (meets_throw hlt)
  apply hkept.bind meets_true
  intro _ _ _
  exact meets_modify (Nat.le_refl _)

end ReadAhead

namespace WriteBehind

variable {f : Failures} {Good : σ → Prop} {failed : σ → Nat} {size : Nat} {c : WriteBehind σ}

variable (h : Contract f Good) (hb : Blames Good failed) (hc : Sound Good size c)
variable (ho : c.closed = false)

include h hb hc ho

theorem charged_put {pos : Nat} {data : Bytes} (hd : 0 < data.size)
    (hfit : pos + data.size ≤ maxPosition) :
    (do
      onInner (Storage.seek pos)
      onInner (Storage.write data)).Charged (fun d : WriteBehind σ => failed d.inner) c := by
  have hopen := hc.closed.trans ho
  have hpos : pos ≤ maxPosition := by omega
  have hseek : (onInner (Storage.seek pos)).Charged (fun d => failed d.inner) c :=
    (hb.seek pos c.inner hc.inner hopen hpos).zoom fun _ => rfl
  apply hseek.bind (meets_onInner hc (h.meets_seek hc.inner hopen (Or.inr hpos)))
  rintro _ _ ⟨t, rfl, ht, hp⟩
  have hwrite : (Storage.write data).Charged failed t := by
    apply hb.write data t ht
    · rw [hp]
      exact hopen
    · exact hd
    · rw [hp]
      exact hfit
  exact hwrite.zoom fun _ => rfl

theorem charged_settle : settle.Charged (fun d => failed d.inner) c := by
  apply meets_get_bind
  split
  case h_1 => exact meets_pure (Nat.le_refl _)
  case h_2 p hsome =>
    obtain ⟨hpos, -, hstop⟩ := hc.pending p hsome
    rw [← bind_assoc]
    apply (charged_put h hb hc ho hpos hstop).bind meets_true
    intro _ _ _
    exact meets_modify (Nat.le_refl _)

theorem charged_write {data : Bytes} (hd : 0 < data.size)
    (hfit : c.cursor + data.size ≤ maxPosition) :
    (Storage.write data : StoreM (WriteBehind σ) Unit).Charged (fun d => failed d.inner) c := by
  refine meets_get_bind (meets_requireOpen_bind ho ?_)
  rw [if_neg (Nat.ne_of_gt hd)]
  apply meets_endOf_bind hfit
  split
  case h_1 => exact meets_set (Nat.le_refl _)
  case h_2 =>
    have hbehind : Behind (fun _ _ => True) (fun _ => Good) size 0 c :=
      ⟨trivial, 0, Nat.le_refl 0, hc⟩
    apply (charged_settle h hb hc ho).bind (meets_settle h.unversioned hbehind ho)
    intro _ c₁ ⟨hc₁, _, hp₁⟩
    have ho₁ : c₁.closed = false := (congrArg Memory.closed hp₁).trans ho
    -- what is left is a write that goes through, or no call at all
    have hlast : ∀ c₂ : WriteBehind σ, (modify fun d => { d with cursor := c.cursor + data.size } :
        StoreM (WriteBehind σ) PUnit).Charged (fun d => failed d.inner) c₂ := by
      intro c₂
      exact meets_modify (Nat.le_refl _)
    split
    case isTrue =>
      dsimp only
      rw [← bind_assoc]
      exact (charged_put h hb hc₁ ho₁ hd hfit).bind meets_true fun _ c₂ _ => hlast c₂
    case isFalse => exact meets_modify_bind (hlast _)

end WriteBehind

omit [Storage σ] [Meaning σ] in
theorem BlockView.charged_onInner {κ α : Type} {failed : σ → Nat} {v : BlockView κ σ}
    {act : StoreM σ α} (h : act.Charged failed v.inner) :
    (onInner act).Charged (fun w => failed w.inner) v := h.zoom fun _ => rfl

namespace Tower

variable {κ μ : Type} [Storage μ] [Meaning μ] {f : Failures} {Good : μ → Prop} {failed : μ → Nat}

/-- Whatever its layers, a tower fails to write only where its medium fails. -/
theorem blames (h : Contract f Good) (hb : Blames Good failed) : ∀ kinds : List LayerKind,
    Blames (Sound (κ := κ) (fun _ _ => True) (fun _ => Good) kinds 0) fun t => failed t.medium
  | [] => hb
  | .readAhead :: kinds => by
    have hinner := blames h hb kinds
    have hcontract := AnyTower.contract_of_medium (κ := κ) h kinds
    constructor
    · intro pos c _ ho hpos
      exact meets_get_bind (meets_requireOpen_bind ho (meets_checkPosition_bind hpos
        (meets_set (Nat.le_refl _))))
    · intro data c ⟨size, hc⟩ ho hd hfit
      exact ReadAhead.charged_write hcontract hinner hc ho hd hfit
  | .writeBehind :: kinds => by
    have hinner := blames h hb kinds
    have hcontract := AnyTower.contract_of_medium (κ := κ) h kinds
    constructor
    · intro pos c _ ho hpos
      exact meets_get_bind (meets_requireOpen_bind ho (meets_checkPosition_bind hpos
        (meets_set (Nat.le_refl _))))
    · intro data c ⟨size, hc⟩ ho hd hfit
      exact WriteBehind.charged_write hcontract hinner hc.sound ho hd hfit
  | .blocks :: kinds => by
    have hinner := blames h hb kinds
    constructor
    · intro pos v hv ho hpos
      exact BlockView.charged_onInner (hinner.seek pos v.inner hv ho hpos)
    · intro data v hv ho hd hfit
      exact BlockView.charged_onInner (hinner.write data v.inner hv ho hd hfit)

end Tower

end ByteTower
