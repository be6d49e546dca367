import ByteTower.Proofs.BlockView
import ByteTower.Proofs.ReadAhead
import ByteTower.Proofs.WriteBehind
import ByteTower.Tower.Any

namespace ByteTower

namespace Tower

section Standard

variable {κ σ : Type} [Storage σ]

theorem standard_eq_ok {sizes : Sizes} {s : σ} {c : Tower κ σ standardKinds}
    (hw : Tower.standard sizes s = .ok c) :
    sizes.check = .ok () ∧ ∃ (behind : WriteBehind σ) (ahead : ReadAhead (WriteBehind σ)),
      WriteBehind.wrap sizes.buffer s = .ok behind ∧
        ReadAhead.wrap sizes.window behind = .ok ahead ∧ BlockView.wrap sizes.block ahead = .ok c := by
  unfold Tower.standard at hw
  split at hw
  case h_1 => cases hw
  case h_2 hcheck =>
    split at hw
    case h_1 => cases hw
    case h_2 behind hbehind =>
      split at hw
      case h_1 => cases hw
      case h_2 ahead hahead =>
        split at hw
        case h_1 => cases hw
        case h_2 view hview =>
          obtain rfl := Except.ok.inj hw
          exact ⟨hcheck, behind, ahead, hbehind, hahead, hview⟩

end Standard

variable {κ μ : Type} [Meaning μ]

instance meaning : (kinds : List LayerKind) → Meaning (Tower κ μ kinds)
  | [] => inferInstanceAs (Meaning μ)
  | .readAhead :: kinds =>
    letI : Meaning (Tower κ μ kinds) := meaning kinds
    inferInstanceAs (Meaning (ReadAhead (Tower κ μ kinds)))
  | .writeBehind :: kinds =>
    letI : Meaning (Tower κ μ kinds) := meaning kinds
    inferInstanceAs (Meaning (WriteBehind (Tower κ μ kinds)))
  | .blocks :: kinds =>
    letI : Meaning (Tower κ μ kinds) := meaning kinds
    inferInstanceAs (Meaning (BlockView κ (Tower κ μ kinds)))

/-- A tower that shows version `i` of its bytes and whose layers are all sound. -/
def Sound (v : Nat → Bytes → Prop) (Good : Nat → μ → Prop) :
    (kinds : List LayerKind) → Nat → Tower κ μ kinds → Prop
  | [], i, m => Good i m
  | .readAhead :: kinds, i, c => ∃ size, ReadAhead.Sound (Sound v Good kinds i) size c
  | .writeBehind :: kinds, i, c => ∃ size, WriteBehind.Behind v (Sound v Good kinds) size i c
  | .blocks :: kinds, i, c => Sound v Good kinds i c.inner

variable [Storage μ] {f : Failures} {v : Nat → Bytes → Prop} {Good : Nat → μ → Prop}

theorem tracks (h : Tracks f v Good) :
    ∀ kinds, Tracks f v (Sound (κ := κ) v Good kinds)
  | [] => h
  | .readAhead :: kinds =>
    Tracks.exists (fun size => (ReadAhead.tracks (tracks h kinds) size).mono (Failures.steady_le f)
      h.respects) h.respects
  | .writeBehind :: kinds =>
    Tracks.exists (fun size => (WriteBehind.tracks (tracks h kinds) size).mono
      (Failures.le_trans (Failures.sparing_le _ size) (Failures.steady_le f)) h.respects) h.respects
  | .blocks :: kinds => BlockView.tracks (tracks h kinds)

omit [Storage μ] in
theorem Sound.version (hv : ∀ i m, Good i m → v i (plain m).bytes) :
    ∀ {kinds : List LayerKind} {i : Nat} {t : Tower κ μ kinds},
      Sound v Good kinds i t → v i (plain t).bytes
  | [], i, m, ht => hv i m ht
  | .readAhead :: _, i, c, ⟨_, hc⟩ => (Sound.version hv hc.inner : v i (plain c.inner).bytes)
  | .writeBehind :: _, _, _, ⟨_, hc⟩ => hc.1
  | .blocks :: _, _, b, hb => Sound.version (t := b.inner) hv hb

variable (h : Tracks f v Good) (hv : ∀ i m, Good i m → v i (plain m).bytes)
variable (kinds : List LayerKind) {i size : Nat} {t : Tower κ μ kinds}

include h

theorem sound_of_wrap_readAhead {c : Tower κ μ (.readAhead :: kinds)} (ht : Sound v Good kinds i t)
    (hw : ReadAhead.wrap size t = .ok c) :
    Sound v Good (.readAhead :: kinds) i c ∧ plain c = plain t := by
  obtain ⟨hc, hp⟩ := ReadAhead.of_wrap ((tracks h kinds).reading i) ht hw
  exact ⟨⟨size, hc⟩, hp⟩

include hv

theorem sound_of_wrap_writeBehind {c : Tower κ μ (.writeBehind :: kinds)}
    (ht : Sound v Good kinds i t) (hw : WriteBehind.wrap size t = .ok c) :
    Sound v Good (.writeBehind :: kinds) i c ∧ plain c = plain t := by
  obtain ⟨hc, hp⟩ := WriteBehind.of_wrap (tracks h kinds) ht (ht.version hv) hw
  exact ⟨⟨size, hc⟩, hp⟩

omit h hv [Storage μ] in
theorem sound_of_wrap_blocks {c : Tower κ μ (.blocks :: kinds)} (ht : Sound v Good kinds i t)
    (hw : BlockView.wrap size t = .ok c) :
    Sound v Good (.blocks :: kinds) i c ∧ plain c = plain t := by
  obtain rfl := BlockView.of_wrap hw
  exact ⟨ht, rfl⟩

theorem sound_of_standard {sizes : Sizes} {c : Tower κ μ (standardKinds ++ kinds)}
    (ht : Sound v Good kinds i t) (hw : Tower.standard sizes t = .ok c) :
    Sound v Good (standardKinds ++ kinds) i c ∧ plain c = plain t := by
  obtain ⟨-, behind, ahead, hbehind, hahead, hview⟩ := standard_eq_ok hw
  obtain ⟨hs₁, hp₁⟩ := sound_of_wrap_writeBehind h hv kinds ht hbehind
  obtain ⟨hs₂, hp₂⟩ := sound_of_wrap_readAhead h (.writeBehind :: kinds) hs₁ hahead
  obtain ⟨hs₃, hp₃⟩ := sound_of_wrap_blocks (.readAhead :: .writeBehind :: kinds) hs₂ hview
  exact ⟨hs₃, hp₃.trans (hp₂.trans hp₁)⟩

end Tower

theorem Sizes.pos_of_check {sizes : Sizes} (hs : sizes.check = .ok ()) :
    0 < sizes.window ∧ 0 < sizes.buffer ∧ 0 < sizes.block := by
  unfold check at hs
  split at hs
  case isTrue => cases hs
  split at hs
  case isTrue => cases hs
  split at hs
  case isTrue => cases hs
  case isFalse hwindow hbuffer hblock =>
    exact ⟨Nat.pos_of_ne_zero hwindow, Nat.pos_of_ne_zero hbuffer, Nat.pos_of_ne_zero hblock⟩

namespace Tower

section Standard

variable {κ σ : Type} [Storage σ] {sizes : Sizes} {s : σ}

variable [Meaning σ] {f : Failures} {v : Nat → Bytes → Prop} {Good : Nat → σ → Prop} {i : Nat}
variable (h : Tracks f v Good) (hf : ¬f.occur) (hs : Good i s) (hsizes : sizes.check = .ok ())

include h hf hs hsizes

theorem exists_standard (hv : v i (plain s).bytes) (ho : (plain s).closed = false) :
    ∃ c : Tower κ σ standardKinds, Tower.standard sizes s = .ok c := by
  obtain ⟨hwindow, hbuffer, hblock⟩ := Sizes.pos_of_check hsizes
  obtain ⟨behind, hbehind⟩ := WriteBehind.exists_wrap (h.reading i) hf hs ho hbuffer
  obtain ⟨hsound, hp⟩ := WriteBehind.of_wrap h hs hv hbehind
  obtain ⟨ahead, hahead⟩ := ReadAhead.exists_wrap ((WriteBehind.tracks h sizes.buffer).reading i) hf
    hsound (by rw [hp]; exact ho) hwindow
  -- a view of blocks asks nothing of the store below
  refine ⟨⟨ahead, sizes.block, hblock, {}⟩, ?_⟩
  simp only [Tower.standard, hsizes, hbehind, hahead, BlockView.wrap, dif_pos hblock]
  rfl

theorem exists_standard_closed (hc : (plain s).closed = true) :
    ∃ t, (Tower.standard sizes s : Except _ (Tower κ σ standardKinds)) = .error ⟨.closed, t⟩ := by
  obtain ⟨t, ht⟩ := WriteBehind.exists_wrap_closed (h.reading i) hf hs hc
    (Sizes.pos_of_check hsizes).2.1
  exact ⟨t, by simp only [Tower.standard, hsizes, ht]⟩

end Standard

end Tower

namespace AnyTower

variable {κ μ : Type} [Meaning μ]

instance : Meaning (AnyTower κ μ) := ⟨fun t => plain t.tower⟩

def Sound (v : Nat → Bytes → Prop) (Good : Nat → μ → Prop) (i : Nat) (t : AnyTower κ μ) : Prop :=
  Tower.Sound v Good t.kinds i t.tower

omit [Meaning μ] in
theorem ofWrapped_eq_ok {old new : List LayerKind} {t : AnyTower κ μ}
    {wrapped : Except (Refused (Tower κ μ old)) (Tower κ μ new)}
    (h : ofWrapped old new wrapped = .ok t) : ∃ c, wrapped = .ok c ∧ t = ⟨new, c⟩ := by
  unfold ofWrapped at h
  split at h
  case h_1 => cases h
  case h_2 c => exact ⟨c, rfl, (Except.ok.inj h).symm⟩

variable [Storage μ] {f : Failures} {v : Nat → Bytes → Prop} {Good : Nat → μ → Prop} {i : Nat}
variable (h : Tracks f v Good) (hv : ∀ i m, Good i m → v i (plain m).bytes)

include h hv

theorem sound_of_wrap {plan : LayerPlan} {t t' : AnyTower κ μ} (ht : t.Sound v Good i)
    (hw : t.wrap plan = .ok t') : t'.Sound v Good i ∧ plain t' = plain t := by
  cases plan with
  | readAhead size =>
    obtain ⟨c, hc, rfl⟩ := ofWrapped_eq_ok hw
    exact Tower.sound_of_wrap_readAhead h t.kinds ht hc
  | writeBehind size =>
    obtain ⟨c, hc, rfl⟩ := ofWrapped_eq_ok hw
    exact Tower.sound_of_wrap_writeBehind h hv t.kinds ht hc
  | blocks size =>
    obtain ⟨c, hc, rfl⟩ := ofWrapped_eq_ok hw
    exact Tower.sound_of_wrap_blocks t.kinds ht hc
  | standard sizes =>
    obtain ⟨c, hc, rfl⟩ := ofWrapped_eq_ok hw
    exact Tower.sound_of_standard h hv t.kinds ht hc

theorem sound_of_wrapAll {plans : List LayerPlan} {t t' : AnyTower κ μ} (ht : t.Sound v Good i)
    (hw : t.wrapAll plans = .ok t') : t'.Sound v Good i ∧ plain t' = plain t := by
  induction plans generalizing t with
  | nil =>
    obtain rfl := Except.ok.inj hw
    exact ⟨ht, rfl⟩
  | cons plan plans ih =>
    unfold wrapAll at hw
    rw [List.foldlM_cons] at hw
    cases hplan : t.wrap plan with
    | error refused =>
      rw [hplan] at hw
      cases hw
    | ok t₁ =>
      rw [hplan] at hw
      obtain ⟨ht₁, hp₁⟩ := sound_of_wrap h hv ht hplan
      obtain ⟨ht', hp'⟩ := ih ht₁ hw
      exact ⟨ht', hp'.trans hp₁⟩

end AnyTower

end ByteTower
