import ByteTower.Proofs.Keeping
import ByteTower.Proofs.Operation

namespace ByteTower

/-- A number of 64 bits, as positions are. -/
def IsOffset (n : Nat) : Prop := n < UInt64.size

/-- A number of a machine word, as the sizes of buffers are. -/
def IsIndex (n : Nat) : Prop := n < USize.size

def Lies (start count size : Nat) : Prop := IsIndex (start + count) ∧ start + count ≤ size

instance (n : Nat) : Decidable (IsOffset n) := inferInstanceAs (Decidable (n < UInt64.size))

instance (n : Nat) : Decidable (IsIndex n) := inferInstanceAs (Decidable (n < USize.size))

instance (start count size : Nat) : Decidable (Lies start count size) :=
  inferInstanceAs (Decidable (_ ∧ _))

section Numbers

variable {m n start count size : Nat}

theorem isOffset_of_le (h : n ≤ maxPosition + maxPosition) : IsOffset n :=
  Nat.lt_of_le_of_lt h (by decide)

theorem IsIndex.mono (hn : IsIndex n) (h : m ≤ n) : IsIndex m := Nat.lt_of_le_of_lt h hn

/-- No machine word has fewer than 32 bits. -/
theorem isIndex_of_lt (h : n < UInt32.size) : IsIndex n := Nat.lt_of_lt_of_le h USize.le_size

theorem lies_of_le (hsize : IsIndex size) (h : start + count ≤ size) : Lies start count size :=
  ⟨hsize.mono h, h⟩

end Numbers

/-- States with counters of events, such as hits and misses. -/
class Counting (σ : Type) where
  /-- How far the furthest of the counters has come. -/
  counted : σ → Nat

open Counting (counted)

instance {σ τ : Type} [Counting σ] : Counting (σ × τ) := ⟨fun p => counted p.1⟩

/-- A computation that checks its arithmetic. It is stopped where a number has too many bits or would be
negative, where a part of a buffer does not lie inside it, and where a counter would pass the limit. -/
structure CheckedM (σ α : Type) where
  ofRun ::
  /-- The outcome and the state that is left, unless the computation is stopped. -/
  run : (limit : Nat) → σ → Option (Except StoreError α × σ)

namespace CheckedM

variable {σ τ α β : Type}

def lift (act : StoreM σ α) : CheckedM σ α := ofRun fun _ s => some (act.run s)

instance : Monad (CheckedM σ) where
  pure a := lift (pure a)
  bind act next := ofRun fun limit s =>
    match act.run limit s with
    | none => none
    | some (.ok a, s) => (next a).run limit s
    | some (.error e, s) => some (.error e, s)

instance : MonadLift (StoreM σ) (CheckedM σ) := ⟨lift⟩

def require (p : Prop) [Decidable p] : CheckedM σ Unit :=
  ofRun fun _ s => if p then some (.ok (), s) else none

/-- Goes on only where a counter may go up to `n`. -/
def countTo (n : Nat) : CheckedM σ Unit :=
  ofRun fun limit s => if n ≤ limit then some (.ok (), s) else none

def orElse (act : CheckedM σ α) (handle : StoreError → CheckedM σ α) : CheckedM σ α :=
  ofRun fun limit s =>
    match act.run limit s with
    | none => none
    | some (.ok a, s) => some (.ok a, s)
    | some (.error e, s) => (handle e).run limit s

def zoom (part : τ → σ) (put : σ → τ → τ) (act : CheckedM σ α) : CheckedM τ α :=
  ofRun fun limit whole =>
    (act.run limit (part whole)).map fun (result, after) => (result, put after whole)

def onFirst (act : CheckedM σ α) : CheckedM (σ × τ) α := act.zoom Prod.fst fun s p => (s, p.2)

def carrying (act : CheckedM (σ × τ) α) (beside : τ) : CheckedM σ (Except StoreError α × τ) :=
  ofRun fun limit s =>
    (act.run limit (s, beside)).map fun (result, s, after) => (.ok (result, after), s)

theorem run_bind (act : CheckedM σ α) (next : α → CheckedM σ β) (limit : Nat) (s : σ) :
    (act >>= next).run limit s =
      match act.run limit s with
      | none => none
      | some (.ok a, s) => (next a).run limit s
      | some (.error e, s) => some (.error e, s) := rfl

theorem run_require {p : Prop} [Decidable p] (hp : p) (limit : Nat) (s : σ) :
    (require p).run limit s = some (.ok (), s) := if_pos hp

theorem run_countTo {n limit : Nat} (hn : n ≤ limit) (s : σ) :
    (countTo n).run limit s = some (.ok (), s) := if_pos hn

theorem run_require_bind {p : Prop} [Decidable p] (hp : p) (next : Unit → CheckedM σ α) (limit : Nat)
    (s : σ) : (require p >>= next).run limit s = (next ()).run limit s := by
  rw [run_bind, run_require hp]

theorem run_zoom (part : τ → σ) (put : σ → τ → τ) (act : CheckedM σ α) (limit : Nat) (t : τ) :
    (act.zoom part put).run limit t =
      (act.run limit (part t)).map fun (result, after) => (result, put after t) := rfl

end CheckedM

open StoreM CheckedM

section Sure

variable {σ τ α β : Type} [Counting σ] {act : CheckedM σ α} {model : StoreM σ α} {s : σ}
variable {good : α → σ → Prop} {bad : StoreError → σ → Prop}

/-- Run on `s`, the checked computation does what `model` does, and is not stopped, under any limit that
is not passed by what has been counted in the end. -/
structure Sure (act : CheckedM σ α) (model : StoreM σ α) (s : σ) (good : α → σ → Prop)
    (bad : StoreError → σ → Prop) : Prop where
  run : ∀ limit, counted (model.run s).2 ≤ limit → act.run limit s = some (model.run s)
  counts : counted s ≤ counted (model.run s).2
  meets : model.Meets s good bad

theorem sure_lift (h : model.Meets s good bad) (hcounts : counted s ≤ counted (model.run s).2) :
    Sure (lift model) model s good bad := ⟨fun _ _ => rfl, hcounts, h⟩

theorem sure_pure {a : α} (h : good a s) : Sure (pure a) (pure a) s good bad :=
  ⟨fun _ _ => rfl, Nat.le_refl _, h⟩

theorem sure_throw {e : StoreError} (h : bad e s) :
    Sure (lift (throw e : StoreM σ α)) (throw e) s good bad := ⟨fun _ _ => rfl, Nat.le_refl _, h⟩

theorem Sure.imp {good' : α → σ → Prop} {bad' : StoreError → σ → Prop}
    (h : Sure act model s good bad) (hg : ∀ a t, good a t → good' a t)
    (hb : ∀ e t, bad e t → bad' e t) : Sure act model s good' bad' :=
  { h with meets := h.meets.imp hg hb }

theorem Sure.imp_ok {good' : α → σ → Prop} (h : Sure act model s good bad)
    (hg : ∀ a t, good a t → good' a t) : Sure act model s good' bad :=
  { h with meets := h.meets.imp_ok hg }

/-- What is known after the first part goes into the rest. Nothing that the rest does takes a counter
back, so a limit that holds in the end holds in between. -/
theorem Sure.bind {next : α → CheckedM σ β} {next' : α → StoreM σ β} {good' : β → σ → Prop}
    (h : Sure act model s good bad) (hn : ∀ a t, good a t → Sure (next a) (next' a) t good' bad) :
    Sure (act >>= next) (model >>= next') s good' bad := by
  obtain ⟨hrun, hcounts, hmeets⟩ := h
  rcases hm : model.run s with ⟨e | a, t⟩
  · have hbind : (model >>= next').run s = (.error e, t) := run_bind_error hm _
    refine ⟨fun limit hlimit => ?_, ?_, hmeets.bind fun a t ht => (hn a t ht).meets⟩
    · rw [hbind] at hlimit
      rw [hm] at hrun
      rw [CheckedM.run_bind, hrun limit hlimit, hbind]
    · rw [hbind]
      rwa [hm] at hcounts
  · have hrest := hn a t (hmeets.of_run_ok hm)
    have hbind : (model >>= next').run s = (next' a).run t := run_bind_ok hm _
    rw [hm] at hrun hcounts
    refine ⟨fun limit hlimit => ?_, ?_, hmeets.bind fun a t ht => (hn a t ht).meets⟩
    · rw [hbind] at hlimit
      rw [CheckedM.run_bind, hrun limit (Nat.le_trans hrest.counts hlimit), hbind]
      exact hrest.run limit hlimit
    · rw [hbind]
      exact Nat.le_trans hcounts hrest.counts

theorem sure_check_bind {check : CheckedM σ Unit} {next : Unit → CheckedM σ α}
    (hrun : ∀ limit, check.run limit s = some (.ok (), s)) (h : Sure (next ()) model s good bad) :
    Sure (check >>= next) model s good bad := by
  refine { h with run := fun limit hlimit => ?_ }
  rw [CheckedM.run_bind, hrun]
  exact h.run limit hlimit

theorem sure_require_bind {p : Prop} [Decidable p] {next : Unit → CheckedM σ α} (hp : p)
    (h : Sure (next ()) model s good bad) : Sure (require p >>= next) model s good bad :=
  sure_check_bind (fun limit => run_require hp limit s) h

/-- A counter that stands at `n` in the end may go up to it. -/
theorem sure_countTo_bind {n : Nat} {next : Unit → CheckedM σ α} (hn : n ≤ counted (model.run s).2)
    (h : Sure (next ()) model s good bad) : Sure (countTo n >>= next) model s good bad := by
  refine { h with run := fun limit hlimit => ?_ }
  rw [CheckedM.run_bind, run_countTo (Nat.le_trans hn hlimit)]
  exact h.run limit hlimit

theorem sure_lift_bind {β : Type} {act : StoreM σ β} {next : β → CheckedM σ α}
    {next' : β → StoreM σ α} {mid : β → σ → Prop} (h : act.Meets s mid bad)
    (hcounts : counted s ≤ counted (act.run s).2)
    (hn : ∀ b t, mid b t → Sure (next b) (next' b) t good bad) :
    Sure (lift act >>= next) (act >>= next') s good bad := (sure_lift h hcounts).bind hn

theorem sure_get_bind {next : σ → CheckedM σ α} {next' : σ → StoreM σ α}
    (h : Sure (next s) (next' s) s good bad) :
    Sure (get >>= next) (get >>= next') s good bad := ⟨h.run, h.counts, h.meets⟩

theorem sure_look_bind {next : σ → CheckedM σ α} (h : Sure (next s) model s good bad) :
    Sure (get >>= next) model s good bad := ⟨h.run, h.counts, h.meets⟩

theorem sure_set {t : σ} {good : PUnit → σ → Prop} (h : good ⟨⟩ t)
    (hcounts : counted s ≤ counted t) :
    Sure (set t : CheckedM σ PUnit) (set t) s good bad := ⟨fun _ _ => rfl, hcounts, h⟩

theorem sure_set_bind {t : σ} {next : PUnit → CheckedM σ α} {next' : PUnit → StoreM σ α}
    (h : Sure (next ⟨⟩) (next' ⟨⟩) t good bad) (hcounts : counted s ≤ counted t) :
    Sure ((set t : CheckedM σ PUnit) >>= next) (set t >>= next') s good bad :=
  ⟨h.run, Nat.le_trans hcounts h.counts, h.meets⟩

theorem sure_modify {f : σ → σ} {good : PUnit → σ → Prop} (h : good ⟨⟩ (f s))
    (hcounts : counted s ≤ counted (f s)) :
    Sure (modify f : CheckedM σ PUnit) (modify f) s good bad := ⟨fun _ _ => rfl, hcounts, h⟩

theorem sure_modify_bind {f : σ → σ} {next : PUnit → CheckedM σ α} {next' : PUnit → StoreM σ α}
    (h : Sure (next ⟨⟩) (next' ⟨⟩) (f s) good bad) (hcounts : counted s ≤ counted (f s)) :
    Sure ((modify f : CheckedM σ PUnit) >>= next) (modify f >>= next') s good bad :=
  ⟨h.run, Nat.le_trans hcounts h.counts, h.meets⟩

theorem sure_ite {c : Prop} [Decidable c] {act' : CheckedM σ α} {model' : StoreM σ α}
    (hyes : c → Sure act model s good bad) (hno : ¬c → Sure act' model' s good bad) :
    Sure (if c then act else act') (if c then model else model') s good bad := by
  split
  case isTrue hc => exact hyes hc
  case isFalse hc => exact hno hc

theorem sure_refused_bind {β : Type} {e : StoreError} {next : β → CheckedM σ α}
    {next' : β → StoreM σ α} (h : bad e s) :
    Sure (lift (throw e) >>= next) ((throw e : StoreM σ β) >>= next') s good bad :=
  ⟨fun _ _ => rfl, Nat.le_refl _, h⟩

theorem sure_requireOpen_bind {closed : Bool} {next : Unit → CheckedM σ α}
    {next' : Unit → StoreM σ α} (hs : ∀ e, bad e s) (h : Sure (next ()) (next' ()) s good bad) :
    Sure (lift (requireOpen closed) >>= next) (requireOpen closed >>= next') s good bad := by
  cases closed with
  | true => exact sure_refused_bind (hs _)
  | false => exact h

theorem sure_checkPosition_bind {pos : Nat} {next : Unit → CheckedM σ α}
    {next' : Unit → StoreM σ α} (hs : ∀ e, bad e s)
    (h : pos ≤ maxPosition → Sure (next ()) (next' ()) s good bad) :
    Sure (lift (checkPosition pos) >>= next) (checkPosition pos >>= next') s good bad := by
  unfold checkPosition
  split
  case isTrue => exact sure_refused_bind (hs _)
  case isFalse hpos => exact h (Nat.le_of_not_lt hpos)

theorem sure_endOf_bind {pos count : Nat} {next : Nat → CheckedM σ α} {next' : Nat → StoreM σ α}
    (hs : ∀ e, bad e s)
    (h : pos + count ≤ maxPosition →
      Sure (next (pos + count)) (next' (pos + count)) s good bad) :
    Sure (lift (endOf pos count) >>= next) (endOf pos count >>= next') s good bad := by
  unfold endOf
  split
  case isTrue => exact sure_refused_bind (hs _)
  case isFalse hpos => exact h (Nat.le_of_not_lt hpos)

theorem sure_checkSlice_bind {size start count : Nat} {next : Unit → CheckedM σ α}
    {next' : Unit → StoreM σ α} (hs : ∀ e, bad e s)
    (h : start + count ≤ size → Sure (next ()) (next' ()) s good bad) :
    Sure (lift (checkSlice size start count) >>= next) (checkSlice size start count >>= next') s
      good bad := by
  unfold checkSlice
  split
  case isTrue => exact sure_refused_bind (hs _)
  case isFalse hsize => exact h (Nat.le_of_not_lt hsize)

theorem Sure.orElse {handle : StoreError → CheckedM σ α} {handle' : StoreError → StoreM σ α}
    {bad' : StoreError → σ → Prop} (h : Sure act model s good bad')
    (hh : ∀ e t, bad' e t → Sure (handle e) (handle' e) t good bad) :
    Sure (act.orElse handle) (tryCatch model handle') s good bad := by
  obtain ⟨hrun, hcounts, hmeets⟩ := h
  have hend := hmeets.handle fun e t ht => (hh e t ht).meets
  rcases hm : model.run s with ⟨e | a, t⟩
  · have hhandle := hh e t (hmeets.of_run_error hm)
    have htry : (tryCatch model handle' : StoreM σ α).run s = (handle' e).run t := by
      rw [run_tryCatch, hm]
    rw [hm] at hrun hcounts
    refine ⟨fun limit hlimit => ?_, ?_, hend⟩
    · rw [htry] at hlimit ⊢
      simp only [CheckedM.orElse, hrun limit (Nat.le_trans hhandle.counts hlimit)]
      exact hhandle.run limit hlimit
    · rw [htry]
      exact Nat.le_trans hcounts hhandle.counts
  · have htry : (tryCatch model handle' : StoreM σ α).run s = (.ok a, t) := by
      rw [run_tryCatch, hm]
    rw [hm] at hrun hcounts
    refine ⟨fun limit hlimit => ?_, htry ▸ hcounts, hend⟩
    rw [htry] at hlimit ⊢
    simp only [CheckedM.orElse, hrun limit hlimit]

theorem Sure.zoom [Counting τ] {part : τ → σ} {put : σ → τ → τ} {t : τ} {good' : α → τ → Prop}
    {bad' : StoreError → τ → Prop}
    (h : Sure act model (part t) (fun a s => good' a (put s t)) fun e s => bad' e (put s t))
    (hpart : ∀ s, counted s ≤ counted (put s t))
    (hwhole : ∀ s, counted (part t) ≤ counted s → counted t ≤ counted (put s t)) :
    Sure (act.zoom part put) (model.zoom part put) t good' bad' := by
  refine ⟨fun limit hlimit => ?_, hwhole _ h.counts, Meets.zoom h.meets⟩
  rw [CheckedM.run_zoom, h.run limit (Nat.le_trans (hpart _) hlimit)]
  rfl

theorem Sure.onFirst {p : σ × τ} {good' : α → σ × τ → Prop} {bad' : StoreError → σ × τ → Prop}
    (h : Sure act model p.1 (fun a t => good' a (t, p.2)) fun e t => bad' e (t, p.2)) :
    Sure act.onFirst model.onFirst p good' bad' :=
  Sure.zoom h (fun _ => Nat.le_refl _) fun _ hle => hle

theorem Sure.carrying {act : CheckedM (σ × τ) α} {model : StoreM (σ × τ) α} {w : τ} {P : σ → Prop}
    (h : Sure act model (s, w) (fun _ => Beside P) fun _ => Beside P) :
    Sure (act.carrying w) (model.carrying w) s (fun _ => P) bad := by
  have hend : P (model.run (s, w)).2.1 := ends_iff.1 h.meets
  refine ⟨fun limit hlimit => ?_, h.counts, hend⟩
  simp only [CheckedM.carrying, h.run limit hlimit]
  rfl

/-- The outcomes of these computations, one after the other, whether they fail or not, and the state
that is left, unless one of them is stopped. -/
def CheckedM.outcomes (limit : Nat) :
    List (CheckedM σ α) → σ → Option (List (Except StoreError α) × σ)
  | [], s => some ([], s)
  | act :: acts, s => do
    let (outcome, s) ← act.run limit s
    let (rest, s) ← outcomes limit acts s
    return (outcome :: rest, s)

/-- Where no step is stopped, no run is. -/
theorem outcomes_of_sure {ι : Type} {checked : ι → CheckedM σ α} {run : ι → StoreM σ α}
    {Good : σ → Prop} (steps : List ι) : ∀ {s : σ}, Good s →
      (∀ i ∈ steps, ∀ s, Good s → Sure (checked i) (run i) s (fun _ => Good) fun _ => Good) →
      (∀ limit, counted (leave (steps.map run) s) ≤ limit →
        outcomes limit (steps.map checked) s =
          some (answers (steps.map run) s, leave (steps.map run) s)) ∧
        counted s ≤ counted (leave (steps.map run) s) ∧ Good (leave (steps.map run) s) := by
  induction steps with
  | nil => exact fun hs _ => ⟨fun _ _ => rfl, Nat.le_refl _, hs⟩
  | cons i steps ih =>
    intro s hs h
    obtain ⟨hrun, hcounts, hmeets⟩ := h i List.mem_cons_self s hs
    have hnext : Good ((run i).run s).2 := ends_iff.1 hmeets
    obtain ⟨hrest, hlater, hend⟩ := ih hnext fun j hj => h j (List.mem_cons_of_mem i hj)
    refine ⟨fun limit hlimit => ?_, Nat.le_trans hcounts hlater, hend⟩
    rw [List.map_cons, outcomes, hrun limit (Nat.le_trans hlater hlimit)]
    show (outcomes limit (steps.map checked) ((run i).run s).2 >>= _) = _
    rw [hrest limit hlimit]
    rfl

end Sure

/-- Stores whose calls check all that they compute. -/
class CheckedStorage (σ : Type) where
  length : CheckedM σ Nat
  resize : Nat → CheckedM σ Unit
  cursor : CheckedM σ Nat
  seek : Nat → CheckedM σ Unit
  read : Nat → CheckedM σ ReadResult
  write : Bytes → CheckedM σ Unit
  flush : CheckedM σ Unit
  close : CheckedM σ Unit

section Contracts

variable {σ : Type} [Storage σ]

@[reducible] def CheckedStorage.ofStorage : CheckedStorage σ where
  length := lift Storage.length
  resize n := lift (Storage.resize n)
  cursor := lift Storage.cursor
  seek pos := lift (Storage.seek pos)
  read n := lift (Storage.read n)
  write data := lift (Storage.write data)
  flush := lift Storage.flush
  close := lift Storage.close

/-- A medium has a length `size` and a cursor `place`, and neither ever passes the largest position. It
gives no more bytes than it is asked for, and its cursor moves on by what it gives and takes. Its calls
may fail at any time, and nothing is said of its bytes. -/
structure Metered (size place : σ → Nat) (Good : σ → Prop) : Prop where
  size_le : ∀ s, Good s → size s ≤ maxPosition
  place_le : ∀ s, Good s → place s ≤ maxPosition
  length : ∀ s, Good s → Storage.length.Meets s
    (fun n t => Good t ∧ n = size s ∧ size t = size s) fun _ => Good
  resize : ∀ n s, Good s → (Storage.resize n).Meets s (fun _ => Good) fun _ => Good
  cursor : ∀ s, Good s → Storage.cursor.Meets s (fun n t => Good t ∧ n = place s) fun _ => Good
  seek : ∀ pos s, Good s → (Storage.seek pos).Meets s (fun _ => Good) fun _ => Good
  read : ∀ n s, Good s → IsIndex n → (Storage.read n).Meets s
    (fun result t => Good t ∧ result.data.size ≤ n ∧ place t = place s + result.data.size)
    fun _ => Good
  write : ∀ data s, Good s → IsIndex data.size → (Storage.write data).Meets s
    (fun _ t => Good t ∧ place t = place s + data.size) fun _ => Good
  flush : ∀ s, Good s → Storage.flush.Meets s (fun _ => Good) fun _ => Good
  close : ∀ s, Good s → Storage.close.Meets s (fun _ => Good) fun _ => Good

/-- No call on a good store is stopped, and each of them comes to what it comes to on a medium. -/
structure Secure [Counting σ] [CheckedStorage σ] (size place : σ → Nat) (Good : σ → Prop) : Prop where
  size_le : ∀ s, Good s → size s ≤ maxPosition
  place_le : ∀ s, Good s → place s ≤ maxPosition
  length : ∀ s, Good s → Sure CheckedStorage.length Storage.length s
    (fun n t => Good t ∧ n = size s ∧ size t = size s) fun _ => Good
  resize : ∀ n s, Good s → Sure (CheckedStorage.resize n) (Storage.resize n) s
    (fun _ => Good) fun _ => Good
  cursor : ∀ s, Good s → Sure CheckedStorage.cursor Storage.cursor s
    (fun n t => Good t ∧ n = place s) fun _ => Good
  seek : ∀ pos s, Good s → Sure (CheckedStorage.seek pos) (Storage.seek pos) s
    (fun _ => Good) fun _ => Good
  read : ∀ n s, Good s → IsIndex n → Sure (CheckedStorage.read n) (Storage.read n) s
    (fun result t => Good t ∧ result.data.size ≤ n ∧ place t = place s + result.data.size)
    fun _ => Good
  write : ∀ data s, Good s → IsIndex data.size →
    Sure (CheckedStorage.write data) (Storage.write data) s
      (fun _ t => Good t ∧ place t = place s + data.size) fun _ => Good
  flush : ∀ s, Good s → Sure CheckedStorage.flush Storage.flush s (fun _ => Good) fun _ => Good
  close : ∀ s, Good s → Sure CheckedStorage.close Storage.close s (fun _ => Good) fun _ => Good

@[reducible] def Counting.none : Counting σ := ⟨fun _ => 0⟩

theorem Metered.secure {size place : σ → Nat} {Good : σ → Prop} (h : Metered size place Good) :
    letI : CheckedStorage σ := .ofStorage
    letI : Counting σ := .none
    Secure size place Good :=
  letI : CheckedStorage σ := .ofStorage
  letI : Counting σ := .none
  { size_le := h.size_le
    place_le := h.place_le
    length := fun s hs => sure_lift (h.length s hs) (Nat.le_refl _)
    resize := fun n s hs => sure_lift (h.resize n s hs) (Nat.le_refl _)
    cursor := fun s hs => sure_lift (h.cursor s hs) (Nat.le_refl _)
    seek := fun pos s hs => sure_lift (h.seek pos s hs) (Nat.le_refl _)
    read := fun n s hs hn => sure_lift (h.read n s hs hn) (Nat.le_refl _)
    write := fun data s hs hd => sure_lift (h.write data s hs hd) (Nat.le_refl _)
    flush := fun s hs => sure_lift (h.flush s hs) (Nat.le_refl _)
    close := fun s hs => sure_lift (h.close s hs) (Nat.le_refl _) }

end Contracts

end ByteTower
