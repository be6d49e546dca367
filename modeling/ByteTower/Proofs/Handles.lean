import ByteTower.Medium.Basic
import ByteTower.Proofs.Memory

namespace ByteTower

open StoreM

section Refused

variable {σ α : Type} [Meaning σ] {f : Failures} (hocc : f.occur) {Good After : σ → Prop} {s : σ}
variable (hs : Good s) {loss : Memory → Memory → Prop} (hl : ∀ m, loss m m)
variable {models : StoreM Memory α → Prop}

include hocc hs hl

theorem follows_refused {act : StoreM σ α} {e : StoreError} (h : act.run s = (.error e, s)) :
    Follows f Good After loss act models s :=
  meets_of_error h ⟨hs, Or.inr ⟨hocc, hl _⟩⟩

theorem follows_requireOpen_bind {closed : Bool} {next : Unit → StoreM σ α}
    (h : closed = false → Follows f Good After loss (next ()) models s) :
    Follows f Good After loss (requireOpen closed >>= next) models s := by
  cases hc : closed with
  | true => exact follows_refused hocc hs hl rfl
  | false => exact h hc

theorem follows_checkPosition_bind {pos : Nat} {next : Unit → StoreM σ α}
    (h : pos ≤ maxPosition → Follows f Good After loss (next ()) models s) :
    Follows f Good After loss (checkPosition pos >>= next) models s := by
  unfold checkPosition
  split
  case isTrue => exact follows_refused hocc hs hl rfl
  case isFalse hp => exact h (Nat.le_of_not_lt hp)

theorem follows_endOf_bind {pos count : Nat} {next : Nat → StoreM σ α}
    (h : pos + count ≤ maxPosition → Follows f Good After loss (next (pos + count)) models s) :
    Follows f Good After loss (endOf pos count >>= next) models s := by
  unfold endOf
  split
  case isTrue => exact follows_refused hocc hs hl rfl
  case isFalse hp => exact h (Nat.le_of_not_lt hp)

end Refused

/-- Where calls may fail, no contents of a byte string in memory are too long. -/
theorem Memory.contract_of_occur {f : Failures} (hocc : f.occur) :
    Contract f fun _ : Memory => True where
  length m _ := Memory.follows_act rfl m
  cursor m _ := Memory.follows_act rfl m
  seek _ m _ := Memory.follows_act rfl m
  read n m _ := Memory.follows_act ⟨n, Nat.le_refl n, Or.inl hocc, rfl⟩ m
  flush m _ := Memory.follows_act rfl m
  close m _ := Memory.follows_act rfl m
  isClosed _ _ := rfl
  bounded _ _ := Or.inl hocc
  still _ _ := trivial
  resize _ m _ := Memory.follows_act rfl m
  write _ m _ := Memory.follows_act rfl m

namespace FileHandle

instance : Meaning FileHandle :=
  ⟨fun h => { bytes := h.bytes, cursor := h.cursor, closed := h.closed }⟩

def Exact (h : FileHandle) : Prop := h.length = h.bytes.size

variable {f : Failures}

theorem follows_read (hocc : f.occur) {h : FileHandle} (hh : h.Exact) (n : Nat) :
    Follows f Exact Exact f.Spares (Storage.read n) (f.Shortened n) h := by
  refine meets_get_bind (follows_requireOpen_bind hocc hh (fun _ => Failures.Spares.rfl) fun ho => ?_)
  have hlen : h.length = h.bytes.size := hh
  split
  case isTrue hle =>
    have hrun := Memory.run_read_eof (m := plain h) ho n (hlen ▸ hle)
    exact meets_pure ⟨hh, answers_read (Nat.le_refl n) (Or.inl hocc) hrun⟩
  case isFalse hlt =>
    have hcur : h.cursor < h.bytes.size := by omega
    have hsize := Bytes.size_slice h.bytes h.cursor (min n (h.length - h.cursor))
    have hrun := Memory.run_read (m := plain h) ho (min n (h.length - h.cursor)) hcur
    have hsome : ¬((h.bytes.slice h.cursor (min n (h.length - h.cursor))).size = 0 ∧
        0 < min n (h.length - h.cursor)) := by omega
    dsimp only
    rw [if_neg hsome]
    exact meets_set_bind (meets_pure ⟨hh, answers_read (Nat.min_le_left _ _) (Or.inl hocc) hrun⟩)

/-- However a file was opened, its handle keeps the contract. -/
theorem contract (hocc : f.occur) : Contract f Exact where
  length h hh := meets_get_bind <| follows_requireOpen_bind hocc hh (fun _ => Failures.Spares.rfl)
    fun ho => Follows.of_meets (Memory.run_length ho) (meets_pure ⟨hh, hh, rfl⟩)
  cursor h hh := meets_get_bind <| follows_requireOpen_bind hocc hh (fun _ => Failures.Spares.rfl)
    fun ho => Follows.of_meets (Memory.run_cursor ho) (meets_pure ⟨hh, rfl, rfl⟩)
  seek pos h hh := meets_get_bind <| follows_requireOpen_bind hocc hh (fun _ => Failures.Spares.rfl)
    fun ho => follows_checkPosition_bind hocc hh (fun _ => Failures.Spares.rfl)
      fun hp => Follows.of_meets (Memory.run_seek ho hp) (meets_set ⟨hh, rfl, rfl⟩)
  read n h hh := follows_read hocc hh n
  flush h hh := by
    cases ho : h.closed with
    | true =>
      have hrun : (Storage.flush : StoreM FileHandle Unit).run h = (.error .closed, h) := by
        simp [Storage.flush, run_bind, requireOpen, ho]
      exact follows_refused hocc hh (fun _ => Failures.Spares.rfl) hrun
    | false =>
      have hrun : (Storage.flush : StoreM FileHandle Unit).run h = (.ok (), h) := by
        simp [Storage.flush, run_bind, requireOpen, ho]
      exact Follows.of_meets (Memory.run_flush ho) (meets_of_ok hrun ⟨hh, rfl, rfl⟩)
  close h hh := Follows.of_meets Memory.run_close (meets_modify ⟨hh, rfl, rfl⟩)
  isClosed _ _ := rfl
  bounded _ _ := Or.inl hocc
  still _ hh := hh
  resize n h hh := follows_checkPosition_bind hocc hh (fun _ => Failures.Spares.rfl) fun hn =>
    meets_get_bind <| follows_requireOpen_bind hocc hh (fun _ => Failures.Spares.rfl) fun ho => by
      split
      · refine Follows.of_meets (Memory.run_resize ho hn) (meets_set ⟨?_, rfl, rfl⟩)
        exact (Bytes.size_resize h.bytes n).symm
      · exact follows_refused hocc hh (fun _ => Failures.Spares.rfl) rfl
  write data h hh := by
    refine meets_get_bind <| follows_requireOpen_bind hocc hh
      (fun _ => Failures.Spares.rfl.tears data) fun ho => ?_
    split
    case isTrue hd =>
      exact Follows.of_meets (Memory.run_write_nothing ho hd) (meets_pure ⟨hh, rfl, rfl⟩)
    case isFalse hd =>
      refine follows_endOf_bind hocc hh (fun _ => Failures.Spares.rfl.tears data) fun hfit => ?_
      split
      · refine Follows.of_meets (Memory.run_write ho (Nat.pos_of_ne_zero hd) hfit)
          (meets_set ⟨?_, rfl, rfl⟩)
        have hlen : h.length = h.bytes.size := hh
        rw [Exact, Bytes.size_overwrite, hlen]
      · exact follows_refused hocc hh (fun _ => Failures.Spares.rfl.tears data) rfl

end FileHandle

namespace DirectoryHandle

/-- A directory counts as so many zeros, none of which is ever given. -/
instance : Meaning DirectoryHandle :=
  ⟨fun h => { bytes := Bytes.zeros h.length, cursor := h.cursor, closed := h.closed }⟩

variable {f : Failures}

theorem contract (hocc : f.occur) : Contract f fun _ : DirectoryHandle => True where
  length h _ := meets_get_bind <| follows_requireOpen_bind hocc trivial
    (fun _ => Failures.Spares.rfl) fun ho => Follows.of_meets (Memory.run_length ho)
      (meets_pure ⟨trivial, (Bytes.size_zeros _).symm, rfl⟩)
  cursor h _ := meets_get_bind <| follows_requireOpen_bind hocc trivial
    (fun _ => Failures.Spares.rfl) fun ho => Follows.of_meets (Memory.run_cursor ho)
      (meets_pure ⟨trivial, rfl, rfl⟩)
  seek pos h _ := meets_get_bind <| follows_requireOpen_bind hocc trivial
    (fun _ => Failures.Spares.rfl) fun ho => follows_checkPosition_bind hocc trivial
      (fun _ => Failures.Spares.rfl) fun hp => Follows.of_meets (Memory.run_seek ho hp)
        (meets_set ⟨trivial, rfl, rfl⟩)
  read n h _ := by
    refine meets_get_bind <| follows_requireOpen_bind hocc trivial
      (fun _ => Failures.Spares.rfl) fun ho => ?_
    split
    case isTrue hle =>
      have hend : (plain h).bytes.size ≤ (plain h).cursor := (Bytes.size_zeros _).symm ▸ hle
      exact meets_pure ⟨trivial,
        answers_read (Nat.le_refl n) (Or.inl hocc) (Memory.run_read_eof ho n hend)⟩
    case isFalse => exact follows_refused hocc trivial (fun _ => Failures.Spares.rfl) rfl
  flush h _ := by
    cases ho : h.closed with
    | true =>
      have hrun : (Storage.flush : StoreM DirectoryHandle Unit).run h = (.error .closed, h) := by
        simp [Storage.flush, run_bind, requireOpen, ho]
      exact follows_refused hocc trivial (fun _ => Failures.Spares.rfl) hrun
    | false =>
      have hrun : (Storage.flush : StoreM DirectoryHandle Unit).run h = (.ok (), h) := by
        simp [Storage.flush, run_bind, requireOpen, ho]
      exact Follows.of_meets (Memory.run_flush ho) (meets_of_ok hrun ⟨trivial, rfl, rfl⟩)
  close h _ := Follows.of_meets Memory.run_close (meets_modify ⟨trivial, rfl, rfl⟩)
  isClosed _ _ := rfl
  bounded _ _ := Or.inl hocc
  still _ _ := trivial
  resize n h _ := follows_checkPosition_bind hocc trivial (fun _ => Failures.Spares.rfl) fun _ =>
    meets_get_bind <| follows_requireOpen_bind hocc trivial (fun _ => Failures.Spares.rfl) fun _ =>
      follows_refused hocc trivial (fun _ => Failures.Spares.rfl) rfl
  write data h _ := by
    refine meets_get_bind <| follows_requireOpen_bind hocc trivial
      (fun _ => Failures.Spares.rfl.tears data) fun ho => ?_
    split
    case isTrue hd =>
      exact Follows.of_meets (Memory.run_write_nothing ho hd) (meets_pure ⟨trivial, rfl, rfl⟩)
    case isFalse =>
      exact follows_endOf_bind hocc trivial (fun _ => Failures.Spares.rfl.tears data) fun _ =>
        follows_refused hocc trivial (fun _ => Failures.Spares.rfl.tears data) rfl

end DirectoryHandle

namespace Medium

instance : Meaning Medium :=
  ⟨fun
    | memory m => m
    | file h => plain h
    | directory h => plain h
    | probe p => p.memory⟩

/-- Memory, or a handle on a directory or on a file whose length it knows. -/
def Genuine : Medium → Prop
  | memory _ => True
  | file h => h.Exact
  | directory _ => True
  | probe _ => False

variable {f : Failures} {s : Medium}

theorem follows_perform {α : Type} {act : {σ : Type} → [Storage σ] → StoreM σ α}
    {loss : Memory → Memory → Prop} {models : StoreM Memory α → Prop} (hocc : f.occur)
    (hs : s.Genuine)
    (h : ∀ {σ : Type} [Storage σ] [Meaning σ] {Good : σ → Prop}, Contract f Good → ∀ t : σ, Good t →
      Follows f Good Good loss act models t) :
    Follows f Genuine Genuine loss (perform act) models s := by
  cases s with
  | memory m => exact Meets.embed (h (Memory.contract_of_occur hocc) m trivial) rfl
  | file t => exact Meets.embed (h (FileHandle.contract hocc) t hs) rfl
  | directory t => exact Meets.embed (h (DirectoryHandle.contract hocc) t trivial) rfl
  | probe => exact hs.elim

/-- Every medium but a probe keeps the contract. -/
theorem contract (hocc : f.occur) : Contract f Genuine where
  length s hs := follows_perform hocc hs fun h => h.length
  cursor s hs := follows_perform hocc hs fun h => h.cursor
  seek pos s hs := follows_perform hocc hs fun h => h.seek pos
  read n s hs := follows_perform hocc hs fun h => h.read n
  flush s hs := follows_perform hocc hs fun h => h.flush
  close s hs := follows_perform hocc hs fun h => h.close
  isClosed s hs := by
    cases s with
    | probe => exact hs.elim
    | memory | file | directory => rfl
  bounded _ _ := Or.inl hocc
  still _ hs := hs
  resize n s hs := follows_perform hocc hs fun h => h.resize n
  write data s hs := follows_perform hocc hs fun h => h.write data

end Medium

end ByteTower
