import ByteTower.Medium.File
import ByteTower.Proofs.CheckedTransfer
import ByteTower.Proofs.Media
import ByteTower.Store.Throttled

namespace ByteTower

open StoreM

section Checks

variable {σ α : Type} {s : σ} {good : α → σ → Prop} {bad : StoreError → σ → Prop}

theorem meets_of_requireOpen {closed : Bool} {next : Unit → StoreM σ α} (hs : ∀ e, bad e s)
    (h : (next ()).Meets s good bad) : (requireOpen closed >>= next).Meets s good bad := by
  cases closed with
  | true => exact hs _
  | false => exact h

theorem meets_of_checkPosition {pos : Nat} {next : Unit → StoreM σ α} (hs : ∀ e, bad e s)
    (h : pos ≤ maxPosition → (next ()).Meets s good bad) :
    (checkPosition pos >>= next).Meets s good bad := by
  unfold checkPosition
  split
  case isTrue => exact hs _
  case isFalse hpos => exact h (Nat.le_of_not_lt hpos)

theorem meets_of_endOf {pos count : Nat} {next : Nat → StoreM σ α} (hs : ∀ e, bad e s)
    (h : pos + count ≤ maxPosition → (next (pos + count)).Meets s good bad) :
    (endOf pos count >>= next).Meets s good bad := by
  unfold endOf
  split
  case isTrue => exact hs _
  case isFalse hpos => exact h (Nat.le_of_not_lt hpos)

end Checks

namespace Memory

def InRange (m : Memory) : Prop := m.Bounded ∧ m.cursor ≤ maxPosition

theorem metered : Metered (fun m : Memory => m.bytes.size) cursor InRange where
  size_le _ hm := hm.1
  place_le _ hm := hm.2
  length m hm := by
    apply meets_get_bind
    apply meets_of_requireOpen fun _ => hm
    exact meets_pure ⟨hm, rfl, rfl⟩
  resize n m hm := by
    apply meets_get_bind
    apply meets_of_requireOpen fun _ => hm
    apply meets_of_checkPosition fun _ => hm
    intro hn
    refine meets_set ⟨?_, Nat.le_trans (Nat.min_le_left _ _) hm.2⟩
    rw [Bounded, Bytes.size_resize]
    exact hn
  cursor m hm := by
    apply meets_get_bind
    apply meets_of_requireOpen fun _ => hm
    exact meets_pure ⟨hm, rfl⟩
  seek pos m hm := by
    apply meets_get_bind
    apply meets_of_requireOpen fun _ => hm
    apply meets_of_checkPosition fun _ => hm
    intro hpos
    exact meets_set ⟨hm.1, hpos⟩
  read n m hm _ := by
    apply meets_get_bind
    apply meets_of_requireOpen fun _ => hm
    split
    case isTrue => exact meets_pure ⟨hm, Nat.zero_le n, rfl⟩
    case isFalse hcursor =>
      have hsize := Bytes.size_slice m.bytes m.cursor n
      have hle : m.bytes.size ≤ maxPosition := hm.1
      refine meets_set_bind (meets_pure ⟨⟨hm.1, ?_⟩, ?_, rfl⟩)
      · dsimp only
        omega
      · show (m.bytes.slice m.cursor n).size ≤ n
        omega
  write data m hm _ := by
    apply meets_get_bind
    apply meets_of_requireOpen fun _ => hm
    split
    case isTrue hzero => exact meets_pure ⟨hm, by rw [hzero]; rfl⟩
    case isFalse =>
      apply meets_of_endOf fun _ => hm
      intro hfit
      refine meets_set ⟨⟨?_, hfit⟩, rfl⟩
      rw [Bounded, Bytes.size_overwrite]
      exact Nat.max_le.2 ⟨hm.1, hfit⟩
  flush m hm := by
    apply meets_get_bind
    unfold requireOpen
    split
    · exact meets_throw hm
    · exact meets_pure hm
  close _ hm := meets_modify hm

end Memory

namespace FileHandle

def InRange (f : FileHandle) : Prop := f.length ≤ maxPosition ∧ f.cursor ≤ maxPosition

/-- A handle on a file is a medium with the length that it goes by, whatever its file has. -/
theorem metered : Metered length cursor InRange where
  size_le _ hf := hf.1
  place_le _ hf := hf.2
  length f hf := by
    apply meets_get_bind
    apply meets_of_requireOpen fun _ => hf
    exact meets_pure ⟨hf, rfl, rfl⟩
  resize n f hf := by
    apply meets_of_checkPosition fun _ => hf
    intro hn
    apply meets_get_bind
    apply meets_of_requireOpen fun _ => hf
    split
    case isTrue => exact meets_set ⟨hn, Nat.le_trans (Nat.min_le_left _ _) hf.2⟩
    case isFalse => exact meets_throw hf
  cursor f hf := by
    apply meets_get_bind
    apply meets_of_requireOpen fun _ => hf
    exact meets_pure ⟨hf, rfl⟩
  seek pos f hf := by
    apply meets_get_bind
    apply meets_of_requireOpen fun _ => hf
    apply meets_of_checkPosition fun _ => hf
    intro hpos
    exact meets_set ⟨hf.1, hpos⟩
  read n f hf _ := by
    apply meets_get_bind
    apply meets_of_requireOpen fun _ => hf
    split
    case isTrue => exact meets_pure ⟨hf, Nat.zero_le n, rfl⟩
    case isFalse hcursor =>
      have hsize := Bytes.size_slice f.bytes f.cursor (min n (f.length - f.cursor))
      have hle : f.length ≤ maxPosition := hf.1
      dsimp only
      split
      case isTrue => exact meets_pure ⟨hf, Nat.zero_le n, rfl⟩
      case isFalse =>
        refine meets_set_bind (meets_pure ⟨⟨hf.1, ?_⟩, ?_, rfl⟩)
        · dsimp only
          omega
        · show (f.bytes.slice f.cursor (min n (f.length - f.cursor))).size ≤ n
          omega
  write data f hf _ := by
    apply meets_get_bind
    apply meets_of_requireOpen fun _ => hf
    split
    case isTrue hzero => exact meets_pure ⟨hf, by rw [hzero]; rfl⟩
    case isFalse =>
      apply meets_of_endOf fun _ => hf
      intro hfit
      split
      case isTrue => exact meets_set ⟨⟨Nat.max_le.2 ⟨hf.1, hfit⟩, hfit⟩, rfl⟩
      case isFalse => exact meets_throw hf
  flush f hf := by
    apply meets_get_bind
    unfold requireOpen
    split
    · exact meets_throw hf
    · exact meets_pure hf
  close _ hf := meets_modify hf

end FileHandle

namespace Probe

variable {p : Probe}

/-- A call that passes is the memory's, and a fault leaves the memory in range where what it tears
does. -/
theorem meets_passOr_bind {α : Type} {tear : Nat → Memory → Memory} {call : Call} {act : StoreM Memory α}
    {good : α → Memory → Prop} (htear : ∀ k, (tear k p.memory).InRange)
    (hact : act.Meets p.memory good fun _ => Memory.InRange) :
    (passOr tear call >>= fun _ => onMemory act).Meets p (fun a q => good a q.memory)
      fun _ q => q.memory.InRange := by
  have hpass : (passOr tear call).Meets p (fun _ q => q.memory = p.memory)
      fun _ q => q.memory.InRange := by
    apply meets_get_bind
    split
    case h_1 => exact meets_pure rfl
    case h_2 count _ => exact meets_set_bind (meets_throw (htear count))
    case h_3 => exact meets_set rfl
  apply hpass.bind
  intro _ q hq
  rw [← hq] at hact
  exact Meets.zoom hact

theorem meets_pass_bind {α : Type} {call : Call} {act : StoreM Memory α} {good : α → Memory → Prop}
    (hp : p.memory.InRange) (hact : act.Meets p.memory good fun _ => Memory.InRange) :
    (pass call >>= fun _ => onMemory act).Meets p (fun a q => good a q.memory)
      fun _ q => q.memory.InRange :=
  meets_passOr_bind (fun _ => hp) hact

theorem meets_checkLimit_bind {α : Type} {length : Nat} {act : StoreM Probe α}
    {good : α → Probe → Prop} {bad : StoreError → Probe → Prop} (hp : ∀ e, bad e p)
    (hact : act.Meets p good bad) : (checkLimit length >>= fun _ => act).Meets p good bad := by
  apply ((meets_checkLimit p length).imp_error fun e _ hq => hq ▸ hp e).bind
  rintro _ _ rfl
  exact hact

theorem inRange_tear {m : Memory} (hm : m.InRange) {data : Bytes} (hdata : IsIndex data.size)
    (count : Nat) : (tear data count m).InRange := by
  have hpart : IsIndex (data.slice 0 count).size := by
    rw [Bytes.size_slice]
    exact hdata.mono (by omega)
  exact (Memory.metered.write _ m hm hpart).state (fun _ _ ht => ht.1) fun _ _ ht => ht

theorem metered :
    Metered (fun p : Probe => p.memory.bytes.size) (·.memory.cursor) (·.memory.InRange) where
  size_le p hp := hp.1
  place_le p hp := hp.2
  length p hp := meets_pass_bind hp (Memory.metered.length p.memory hp)
  resize n p hp := by
    apply meets_modify_bind
    apply meets_checkLimit_bind fun _ => hp
    exact meets_pass_bind hp (Memory.metered.resize n p.memory hp)
  cursor p hp := meets_pass_bind hp (Memory.metered.cursor p.memory hp)
  seek pos p hp := meets_pass_bind hp (Memory.metered.seek pos p.memory hp)
  read n p hp hn := by
    have hless : min n (p.maxRead.getD n) ≤ n := Nat.min_le_left _ _
    have hread : (Storage.read (min n (p.maxRead.getD n))).Meets p.memory
        (fun result m => m.InRange ∧ result.data.size ≤ n ∧
          m.cursor = p.memory.cursor + result.data.size) fun _ => Memory.InRange :=
      (Memory.metered.read _ p.memory hp (hn.mono hless)).imp_ok
        fun _ _ ⟨ht, hdata, hplace⟩ => ⟨ht, Nat.le_trans hdata hless, hplace⟩
    apply meets_get_bind
    apply meets_modify_bind
    exact meets_pass_bind (p := { p with traffic := .read n p.mark :: p.traffic }) hp hread
  write data p hp hdata := by
    have hwrite : ∀ q : Probe, q.memory = p.memory →
        (passOr (tear data) .write >>= fun _ => onMemory (Storage.write data)).Meets q
          (fun _ r => r.memory.InRange ∧ r.memory.cursor = p.memory.cursor + data.size)
          fun _ r => r.memory.InRange := by
      intro q hq
      rw [← hq] at hp ⊢
      exact meets_passOr_bind (inRange_tear hp hdata) (Memory.metered.write data q.memory hp hdata)
    apply meets_get_bind
    apply meets_modify_bind
    split
    case isTrue => exact hwrite _ rfl
    case isFalse => exact meets_checkLimit_bind (fun _ => hp) (hwrite _ rfl)
  flush p hp := by
    apply meets_modify_bind
    exact meets_pass_bind hp (Memory.metered.flush p.memory hp)
  close p hp := by
    apply meets_modify_bind
    exact meets_pass_bind hp (Memory.metered.close p.memory hp)

end Probe

theorem capped_le (n : Nat) (bound : Option Nat) : capped n bound ≤ n := by
  cases bound with
  | none => exact Nat.le_refl n
  | some b => exact Nat.min_le_left n b

theorem ThrottledSource.honest : ByteSource.Honest ThrottledSource := by
  intro n source data hgave
  simp only [ByteSource.request, request] at hgave
  split at hgave
  · cases hgave
  · split at hgave
    · cases hgave
    · cases hgave
      rw [Bytes.size_slice]
      exact Nat.le_trans (Nat.min_le_left _ _) (Nat.le_trans (capped_le _ _) (capped_le _ _))

end ByteTower
