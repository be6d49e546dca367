import ByteTower.Medium.Memory
import ByteTower.Proofs.Bytes
import ByteTower.Proofs.Computation

namespace ByteTower

open StoreM

/-- Stores that stand for a plain one. -/
class Meaning (σ : Type) where
  plain : σ → Memory

export Meaning (plain)

instance : Meaning Memory := ⟨id⟩

/-- What calls may do other than what they are made for. -/
structure Failures where
  /-- Calls may fail for no reason, and a read may give nothing before the end. -/
  occur : Prop
  /-- A write of so many bytes that fails may have written some of them, from the first on. -/
  tear : Nat → Prop
  /-- A call that fails may have moved the cursor. -/
  drift : Prop

namespace Failures

def never : Failures := ⟨False, fun _ => False, False⟩

def whole : Failures := ⟨True, fun _ => False, True⟩

def torn : Failures := ⟨True, fun _ => True, True⟩

def steady (f : Failures) : Failures := { f with drift := False }

def drifting (f : Failures) : Failures := { f with drift := True }

def sparing (f : Failures) (n : Nat) : Failures := { f with tear := fun size => n < size ∧ f.tear size }

instance : LE Failures :=
  ⟨fun f g => (f.occur → g.occur) ∧ (∀ size, f.tear size → g.tear size) ∧ (f.drift → g.drift)⟩

theorem steady_le (f : Failures) : f.steady ≤ f := ⟨id, fun _ => id, False.elim⟩

theorem sparing_le (f : Failures) (n : Nat) : f.sparing n ≤ f := ⟨id, fun _ => And.right, id⟩

theorem le_trans {f g k : Failures} (hfg : f ≤ g) (hgk : g ≤ k) : f ≤ k :=
  ⟨hgk.1 ∘ hfg.1, fun size => hgk.2.1 size ∘ hfg.2.1 size, hgk.2.2 ∘ hfg.2.2⟩

def Spares (f : Failures) (m m' : Memory) : Prop :=
  m'.bytes = m.bytes ∧ m'.closed = m.closed ∧ (f.drift ∨ m'.cursor = m.cursor)

def Tears (f : Failures) (data : Bytes) (m m' : Memory) : Prop :=
  ∃ k, (f.tear data.size ∨ k = 0) ∧ m'.bytes = m.bytes.put m.cursor (data.slice 0 k) ∧
    m'.closed = m.closed ∧ (f.drift ∨ m'.cursor = m.cursor)

/-- The ways in which a read of `n` bytes may be answered: as a read of fewer, but of nothing only
where reads may fail. -/
def Shortened (f : Failures) (n : Nat) (model : StoreM Memory ReadResult) : Prop :=
  ∃ k ≤ n, (f.occur ∨ n = 0 ∨ 0 < k) ∧ model = Storage.read k

/-- A write that stops halfway turns no contents of which `p` holds into others. -/
def Respects (f : Failures) (p : Bytes → Prop) : Prop :=
  ∀ (b data : Bytes) (pos k : Nat), f.tear data.size → p b → p (b.put pos (data.slice 0 k))

variable {f g : Failures}

theorem respects_true : f.Respects fun _ => True := fun _ _ _ _ _ _ => trivial

theorem whole_respects (p : Bytes → Prop) : whole.Respects p := fun _ _ _ _ ht _ => ht.elim

theorem Respects.mono (hle : f ≤ g) {p : Bytes → Prop} (h : g.Respects p) : f.Respects p :=
  fun b data pos k ht => h b data pos k (hle.2.1 _ ht)

theorem Spares.rfl {m : Memory} : f.Spares m m := ⟨Eq.refl _, Eq.refl _, Or.inr (Eq.refl _)⟩

theorem Spares.mono (hle : f ≤ g) {m m' : Memory} (h : f.Spares m m') : g.Spares m m' :=
  ⟨h.1, h.2.1, h.2.2.imp hle.2.2 id⟩

theorem Spares.sparing {m m' : Memory} (h : f.Spares m m') (n : Nat) : (f.sparing n).Spares m m' := h

theorem Spares.tears {m m' : Memory} (h : f.Spares m m') (data : Bytes) : f.Tears data m m' :=
  ⟨0, Or.inr (Eq.refl _), by rw [Bytes.put_slice_zero]; exact h.1, h.2⟩

theorem Tears.mono (hle : f ≤ g) {data : Bytes} {m m' : Memory} (h : f.Tears data m m') :
    g.Tears data m m' := by
  obtain ⟨k, hk, hb, hc, hd⟩ := h
  exact ⟨k, hk.imp (hle.2.1 _) id, hb, hc, hd.imp hle.2.2 id⟩

theorem Respects.of_tears {p : Bytes → Prop} (h : f.Respects p) {data : Bytes} {m m' : Memory}
    (ht : f.Tears data m m') (hp : p m.bytes) : p m'.bytes := by
  obtain ⟨k, hk | rfl, hb, _⟩ := ht
  · rw [hb]
    exact h m.bytes data m.cursor k hk hp
  · rw [hb, Bytes.put_slice_zero]
    exact hp

theorem Shortened.mono (hle : f ≤ g) {n : Nat} {model : StoreM Memory ReadResult}
    (h : f.Shortened n model) : g.Shortened n model := by
  obtain ⟨k, hk, hp, rfl⟩ := h
  exact ⟨k, hk, hp.imp hle.1 id, Eq.refl _⟩

end Failures

def Answers {α : Type} (models : StoreM Memory α → Prop) (m : Memory) (answer : Except StoreError α)
    (m' : Memory) : Prop :=
  ∃ model, models model ∧ model.run m = (answer, m')

theorem answers_read {f : Failures} {k n : Nat} {m m' : Memory} {answer : Except StoreError ReadResult}
    (hk : k ≤ n) (hpos : f.occur ∨ n = 0 ∨ 0 < k) (h : (Storage.read k).run m = (answer, m')) :
    Answers (f.Shortened n) m answer m' := ⟨_, ⟨k, hk, hpos, rfl⟩, h⟩

section Follows

variable {σ α : Type} [Meaning σ]

/-- Run on `s`, `act` does what one of the `models` does to the plain store that `s` stands for,
and ends in a store that is `Good`, or `After` where it succeeds. Where calls may fail it may also
fail, with no more than a `loss`. -/
def Follows (f : Failures) (Good After : σ → Prop) (loss : Memory → Memory → Prop)
    (act : StoreM σ α) (models : StoreM Memory α → Prop) (s : σ) : Prop :=
  act.Meets s (fun a t => After t ∧ Answers models (plain s) (.ok a) (plain t)) fun e t =>
    Good t ∧ (Answers models (plain s) (.error e) (plain t) ∨
      f.occur ∧ loss (plain s) (plain t))

variable {f g : Failures} {Good Good' After After' : σ → Prop} {loss : Memory → Memory → Prop}
variable {act : StoreM σ α} {models : StoreM Memory α → Prop} {model : StoreM Memory α} {s : σ}

theorem Follows.mono {loss' : Memory → Memory → Prop} {models' : StoreM Memory α → Prop}
    (h : Follows f Good After loss act models s) (hle : f ≤ g)
    (hl : ∀ m m', loss m m' → loss' m m') (hm : ∀ model, models model → models' model) :
    Follows g Good After loss' act models' s := by
  apply Meets.imp h
  · rintro a t ⟨ht, model, hmodel, hrun⟩
    exact ⟨ht, model, hm model hmodel, hrun⟩
  · rintro e t ⟨ht, ⟨model, hmodel, hrun⟩ | ⟨ho, hloss⟩⟩
    · exact ⟨ht, Or.inl ⟨model, hm model hmodel, hrun⟩⟩
    · exact ⟨ht, Or.inr ⟨hle.1 ho, hl _ _ hloss⟩⟩

theorem Follows.imp (h : Follows f Good After loss act models s) (hg : ∀ t, Good t → Good' t)
    (ha : ∀ t, After t → After' t) : Follows f Good' After' loss act models s :=
  Meets.imp h (fun _ t ht => ⟨ha t ht.1, ht.2⟩) fun _ t ht => ⟨hg t ht.1, ht.2⟩

theorem Follows.map {β : Type} {g : α → β} {models' : StoreM Memory β → Prop}
    (h : Follows f Good After loss act models s)
    (hm : ∀ model, models model → models' (g <$> model)) :
    Follows f Good After loss (g <$> act) models' s := by
  refine Meets.map (Meets.imp h ?_ ?_)
  · rintro a t ⟨ht, model, hmodel, hrun⟩
    exact ⟨ht, _, hm model hmodel, by rw [run_map, hrun]; rfl⟩
  · rintro e t ⟨ht, ⟨model, hmodel, hrun⟩ | hloss⟩
    · exact ⟨ht, Or.inl ⟨_, hm model hmodel, by rw [run_map, hrun]; rfl⟩⟩
    · exact ⟨ht, Or.inr hloss⟩

theorem Follows.of_refused {e : StoreError} (hs : Good s) (hmodel : models model)
    (hm : model.run (plain s) = (.error e, plain s)) (ha : act.run s = (.error e, s)) :
    Follows f Good After loss act models s :=
  meets_of_error ha ⟨hs, Or.inl ⟨model, hmodel, hm⟩⟩

theorem Follows.of_meets {a : α} {m : Memory} (hm : model.run (plain s) = (.ok a, m))
    (ha : act.Meets s (fun b t => After t ∧ b = a ∧ plain t = m)
      fun _ t => Good t ∧ f.occur ∧ loss (plain s) (plain t)) :
    Follows f Good After loss act (Eq model) s := by
  apply Meets.imp ha
  · rintro b t ⟨ht, rfl, hp⟩
    exact ⟨ht, model, rfl, hp ▸ hm⟩
  · rintro e t ⟨ht, hloss⟩
    exact ⟨ht, Or.inr hloss⟩

/-- Where the plain store succeeds, the store does the same or fails for no reason. -/
theorem Follows.meets {a : α} {m : Memory} (h : Follows f Good After loss act (Eq model) s)
    (hm : model.run (plain s) = (.ok a, m)) :
    act.Meets s (fun b t => After t ∧ b = a ∧ plain t = m)
      fun _ t => Good t ∧ f.occur ∧ loss (plain s) (plain t) := by
  apply Meets.imp h
  · rintro b t ⟨ht, _, rfl, hrun⟩
    obtain ⟨hb, hp⟩ := Prod.mk.inj (hm.symm.trans hrun)
    exact ⟨ht, (Except.ok.inj hb).symm, hp.symm⟩
  · rintro e t ⟨ht, ⟨_, rfl, hrun⟩ | hloss⟩
    · rw [hm] at hrun
      cases (Prod.mk.inj hrun).1
    · exact ⟨ht, hloss⟩

theorem Follows.meets_refused {e : StoreError} (h : Follows f Good After loss act models s)
    (hm : ∀ model, models model → model.run (plain s) = (.error e, plain s)) :
    act.Meets s (fun _ _ => False) fun e' t =>
      Good t ∧ (e' = e ∧ plain t = plain s ∨ f.occur ∧ loss (plain s) (plain t)) := by
  apply Meets.imp h
  · rintro _ t ⟨-, model, hmodel, hrun⟩
    rw [hm model hmodel] at hrun
    cases (Prod.mk.inj hrun).1
  · rintro e' t ⟨ht, ⟨model, hmodel, hrun⟩ | hloss⟩
    · rw [hm model hmodel] at hrun
      obtain ⟨he, hp⟩ := Prod.mk.inj hrun
      exact ⟨ht, Or.inl ⟨(Except.error.inj he).symm, hp.symm⟩⟩
    · exact ⟨ht, Or.inr hloss⟩

theorem Follows.and_bytes {p q : Bytes → Prop} (h : Follows f Good After loss act models s)
    (hm : ∀ model, models model → model.Meets (plain s) (fun _ m => q m.bytes) fun _ m => p m.bytes)
    (hl : ∀ m, loss (plain s) m → p m.bytes) :
    Follows f (fun t => Good t ∧ p (plain t).bytes) (fun t => After t ∧ q (plain t).bytes) loss act
      models s := by
  apply Meets.imp h
  · rintro a t ⟨ht, model, hmodel, hrun⟩
    exact ⟨⟨ht, (hm model hmodel).of_run_ok hrun⟩, model, hmodel, hrun⟩
  · rintro e t ⟨ht, ⟨model, hmodel, hrun⟩ | ⟨ho, hloss⟩⟩
    · exact ⟨⟨ht, (hm model hmodel).of_run_error hrun⟩, Or.inl ⟨model, hmodel, hrun⟩⟩
    · exact ⟨⟨ht, hl _ hloss⟩, Or.inr ⟨ho, hloss⟩⟩

def Missed (f : Failures) (Good : σ → Prop) (s t : σ) : Prop :=
  Good t ∧ f.occur ∧ f.Spares (plain s) (plain t)

theorem Missed.of_plain {t u : σ} (h : Missed f Good s u) (hp : plain s = plain t) :
    Missed f Good t u := ⟨h.1, h.2.1, hp ▸ h.2.2⟩

end Follows

section Contract

variable {σ : Type} [Storage σ] [Meaning σ]

structure Reading (f : Failures) (Good : σ → Prop) : Prop where
  length : ∀ s, Good s → Follows f Good Good f.Spares Storage.length (Eq Storage.length) s
  cursor : ∀ s, Good s → Follows f Good Good f.Spares Storage.cursor (Eq Storage.cursor) s
  seek : ∀ pos s, Good s →
    Follows f Good Good f.Spares (Storage.seek pos) (Eq (Storage.seek pos)) s
  read : ∀ n s, Good s → Follows f Good Good f.Spares (Storage.read n) (f.Shortened n) s
  flush : ∀ s, Good s → Follows f Good Good f.Spares Storage.flush (Eq Storage.flush) s
  close : ∀ s, Good s → Follows f Good Good f.Spares Storage.close (Eq Storage.close) s
  isClosed : ∀ s, Good s → Storage.isClosed s = (plain s).closed
  bounded : ∀ s, Good s → f.occur ∨ (plain s).bytes.size ≤ maxPosition

/-- What the calls on a good store do that change its bytes. After a call that succeeds the store is
`After`, as it is if it was left alone. -/
structure Writing (f : Failures) (Good After : σ → Prop) : Prop where
  still : ∀ s, Good s → After s
  resize : ∀ n s, Good s →
    Follows f Good After f.Spares (Storage.resize n) (Eq (Storage.resize n)) s
  write : ∀ data s, Good s →
    Follows f Good After (f.Tears data) (Storage.write data) (Eq (Storage.write data)) s

/-- What every call on a good store does: to the plain store that it stands for, it does what the same
call does to a byte string in memory. Where calls may fail for no reason, `f` says what is left then. -/
structure Contract (f : Failures) (Good : σ → Prop) : Prop extends
  Reading f Good, Writing f Good Good

/-- The contract of stores whose bytes go through versions `v`, one after the other. A store is good
at the version it has reached; a call that changes its bytes to a later version makes it good at
that one. -/
structure Tracks (f : Failures) (v : Nat → Bytes → Prop) (Good : Nat → σ → Prop) : Prop where
  reading : ∀ i, Reading f (Good i)
  writing : ∀ i j, i ≤ j → Writing f (Good i) fun t => v j (plain t).bytes → Good j t
  respects : ∀ i, f.Respects (v i)

variable {f g : Failures} {Good After : σ → Prop} {v : Nat → Bytes → Prop}

theorem Reading.mono (h : Reading f Good) (hle : f ≤ g) : Reading g Good where
  length s hs := (h.length s hs).mono hle (fun _ _ => Failures.Spares.mono hle) fun _ => id
  cursor s hs := (h.cursor s hs).mono hle (fun _ _ => Failures.Spares.mono hle) fun _ => id
  seek pos s hs := (h.seek pos s hs).mono hle (fun _ _ => Failures.Spares.mono hle) fun _ => id
  read n s hs := (h.read n s hs).mono hle (fun _ _ => Failures.Spares.mono hle)
    fun _ => Failures.Shortened.mono hle
  flush s hs := (h.flush s hs).mono hle (fun _ _ => Failures.Spares.mono hle) fun _ => id
  close s hs := (h.close s hs).mono hle (fun _ _ => Failures.Spares.mono hle) fun _ => id
  isClosed := h.isClosed
  bounded s hs := (h.bounded s hs).imp hle.1 id

theorem Writing.mono (h : Writing f Good After) (hle : f ≤ g) : Writing g Good After where
  still := h.still
  resize n s hs := (h.resize n s hs).mono hle (fun _ _ => Failures.Spares.mono hle) fun _ => id
  write data s hs := (h.write data s hs).mono hle (fun _ _ => Failures.Tears.mono hle) fun _ => id

theorem Writing.imp {After' : σ → Prop} (h : Writing f Good After)
    (ha : ∀ t, After t → After' t) : Writing f Good After' where
  still s hs := ha s (h.still s hs)
  resize n s hs := (h.resize n s hs).imp (fun _ ht => ht) ha
  write data s hs := (h.write data s hs).imp (fun _ ht => ht) ha

theorem Tracks.mono {Good : Nat → σ → Prop} (h : Tracks f v Good) (hle : f ≤ g)
    (hv : ∀ i, g.Respects (v i)) : Tracks g v Good where
  reading i := (h.reading i).mono hle
  writing i j hij := (h.writing i j hij).mono hle
  respects := hv

theorem Contract.unversioned (h : Contract f Good) : Tracks f (fun _ _ => True) fun _ => Good where
  reading _ := h.toReading
  writing _ _ _ := h.toWriting.imp fun _ ht _ => ht
  respects _ := Failures.respects_true

theorem Tracks.contract {Good : Nat → σ → Prop} (h : Tracks f (fun _ _ => True) Good) (i : Nat) :
    Contract f (Good i) where
  toReading := h.reading i
  toWriting := (h.writing i i (Nat.le_refl i)).imp fun _ ht => ht trivial

/-- Stores of different sizes that all keep their contract do so together. -/
theorem Tracks.exists {ι : Type} {Good : ι → Nat → σ → Prop} (h : ∀ a, Tracks f v (Good a))
    (hv : ∀ i, f.Respects (v i)) : Tracks f v fun i s => ∃ a, Good a i s where
  reading i := {
    length s := fun ⟨a, hs⟩ =>
      (((h a).reading i).length s hs).imp (fun _ ht => ⟨a, ht⟩) fun _ ht => ⟨a, ht⟩
    cursor s := fun ⟨a, hs⟩ =>
      (((h a).reading i).cursor s hs).imp (fun _ ht => ⟨a, ht⟩) fun _ ht => ⟨a, ht⟩
    seek pos s := fun ⟨a, hs⟩ =>
      (((h a).reading i).seek pos s hs).imp (fun _ ht => ⟨a, ht⟩) fun _ ht => ⟨a, ht⟩
    read n s := fun ⟨a, hs⟩ =>
      (((h a).reading i).read n s hs).imp (fun _ ht => ⟨a, ht⟩) fun _ ht => ⟨a, ht⟩
    flush s := fun ⟨a, hs⟩ =>
      (((h a).reading i).flush s hs).imp (fun _ ht => ⟨a, ht⟩) fun _ ht => ⟨a, ht⟩
    close s := fun ⟨a, hs⟩ =>
      (((h a).reading i).close s hs).imp (fun _ ht => ⟨a, ht⟩) fun _ ht => ⟨a, ht⟩
    isClosed s := fun ⟨a, hs⟩ => ((h a).reading i).isClosed s hs
    bounded s := fun ⟨a, hs⟩ => ((h a).reading i).bounded s hs }
  writing i j hij := {
    still s := fun ⟨a, hs⟩ hj => ⟨a, ((h a).writing i j hij).still s hs hj⟩
    resize n s := fun ⟨a, hs⟩ => (((h a).writing i j hij).resize n s hs).imp (fun _ ht => ⟨a, ht⟩)
      fun _ ht hj => ⟨a, ht hj⟩
    write data s := fun ⟨a, hs⟩ => (((h a).writing i j hij).write data s hs).imp
      (fun _ ht => ⟨a, ht⟩) fun _ ht hj => ⟨a, ht hj⟩ }
  respects := hv

end Contract

end ByteTower
