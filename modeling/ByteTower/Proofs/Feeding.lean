import ByteTower.Proofs.Filling
import ByteTower.Proofs.Stream
import ByteTower.Proofs.Tally

namespace ByteTower

open StoreM Storage

def SourceAnswer.last : Except IoError Bytes → SourceAnswer
  | .ok data => gave data
  | .error cause => failed cause

structure SourceNote where
  wanted : Nat
  answer : SourceAnswer

namespace SourceNote

def given (note : SourceNote) : Bytes :=
  match note.answer with
  | .gave data => data
  | _ => ByteArray.empty

/-- The answer is not the last one: there may be more to come. -/
def Flows (note : SourceNote) : Prop :=
  match note.answer with
  | .interrupted => True
  | .gave data => data.size ≠ 0
  | .failed _ => False

end SourceNote

/-- Everything that a source gave, in order. -/
def givenOf (notes : List SourceNote) : Bytes :=
  notes.foldr (fun note rest => note.given ++ rest) ByteArray.empty

@[simp] theorem givenOf_nil : givenOf [] = ByteArray.empty := rfl

@[simp] theorem givenOf_cons (note : SourceNote) (notes : List SourceNote) :
    givenOf (note :: notes) = note.given ++ givenOf notes := rfl

structure WatchedSource (ρ : Type) where
  source : ρ
  notes : List SourceNote := []

namespace WatchedSource

variable {ρ : Type} [ByteSource ρ]

def noting (w : WatchedSource ρ) (source : ρ) (note : SourceNote) : WatchedSource ρ :=
  { source, notes := w.notes ++ [note] }

instance : ByteSource (WatchedSource ρ) where
  request n w :=
    let (answer, source) := ByteSource.request n w.source
    (answer, w.noting source ⟨n, answer⟩)
  patience w := ByteSource.patience w.source
  patience_lt n w h := ByteSource.patience_lt n w.source h

theorem request_eq {n : Nat} {answer : SourceAnswer} {w : WatchedSource ρ} {source : ρ}
    (h : ByteSource.request n w.source = (answer, source)) :
    ByteSource.request n w = (answer, w.noting source ⟨n, answer⟩) := by
  simp only [ByteSource.request, h]

end WatchedSource

namespace ByteSource

variable {ρ : Type} [ByteSource ρ] {n : Nat} {source source' : ρ}

theorem pull_eq {answer : SourceAnswer} (hr : request n source = (answer, source')) :
    pull n source = match answer with
      | .interrupted => pull n source'
      | .gave data => (.ok data, source')
      | .failed cause => (.error cause, source') := by
  rw [pull]
  split
  all_goals
    rename_i ht
    obtain ⟨rfl, rfl⟩ := Prod.mk.inj (hr.symm.trans ht)
    rfl

/-- The requests by which a source is asked until it no longer interrupts. -/
inductive Pulls (n : Nat) (outcome : Except IoError Bytes) : List SourceNote → Prop
  | answered : Pulls n outcome [⟨n, .last outcome⟩]
  | interrupted {notes : List SourceNote} (rest : Pulls n outcome notes) :
      Pulls n outcome (⟨n, .interrupted⟩ :: notes)

/-- Watching changes nothing. -/
theorem pull_watched (n : Nat) (w : WatchedSource ρ) :
    pull n w.source = ((pull n w).1, (pull n w).2.source) ∧
      ∃ notes, (pull n w).2.notes = w.notes ++ notes ∧ Pulls n (pull n w).1 notes := by
  have hpatience := patience_lt n w.source
  rcases hr : request n w.source with ⟨answer, source'⟩
  rw [hr] at hpatience
  have hw := WatchedSource.request_eq hr
  cases answer with
  | interrupted =>
    have hlt := hpatience rfl
    rw [pull_eq hr, pull_eq hw]
    obtain ⟨hsame, notes, hnotes, hpulls⟩ := pull_watched n (w.noting source' ⟨n, .interrupted⟩)
    refine ⟨hsame, ⟨n, .interrupted⟩ :: notes, ?_, .interrupted hpulls⟩
    rw [hnotes, WatchedSource.noting, List.append_assoc, List.singleton_append]
  | gave data =>
    rw [pull_eq hr, pull_eq hw]
    exact ⟨rfl, _, rfl, .answered⟩
  | failed cause =>
    rw [pull_eq hr, pull_eq hw]
    exact ⟨rfl, _, rfl, .answered⟩
termination_by patience w.source
decreasing_by exact hlt

end ByteSource

section Watching

variable {σ ρ : Type} [Storage σ] [ByteSource ρ]

def unobserved (p : σ × WatchedSource ρ) : σ × ρ := (p.1, p.2.source)

omit [Storage σ] in
theorem mimics_pull (n : Nat) (p : σ × WatchedSource ρ) :
    Mimics (fun _ => True) unobserved (onSecond (onStream (ByteSource.pull n)))
      (onSecond (onStream (ByteSource.pull n))) p := by
  obtain ⟨s, w⟩ := p
  refine ⟨trivial, ?_⟩
  simp only [unobserved, run_onSecond, onStream, (ByteSource.pull_watched n w).1]

theorem mimics_copyFrom (p : σ × WatchedSource ρ) (rounds total : Nat) :
    Mimics (fun _ => True) unobserved (copyFromLoop rounds total) (copyFromLoop rounds total) p := by
  induction rounds generalizing total p with
  | zero => exact mimics_pure trivial total
  | succ rounds ih =>
    refine (mimics_pull transferSize p).bind fun data q _ =>
      mimics_ite (fun _ => mimics_pure trivial total) fun _ => ?_
    have hwrite : Mimics (fun _ => True) unobserved (onFirst (Storage.write data))
        (onFirst (Storage.write data)) q := ⟨trivial, rfl⟩
    exact hwrite.bind fun _ r _ => ih r _

-- What one round of the loop does, by what the source and the write do.

variable {rounds total : Nat} {s t : σ} {data : Bytes} {source source' : ρ}

theorem copyFromLoop_of_failed {cause : IoError}
    (hp : ByteSource.pull transferSize source = (.error cause, source')) :
    (copyFromLoop (rounds + 1) total).run (s, source) = (.error (.io cause), s, source') := by
  rw [copyFromLoop]
  exact run_bind_error (run_onStream_error hp s) _

theorem copyFromLoop_of_ended (hp : ByteSource.pull transferSize source = (.ok data, source'))
    (hz : data.size = 0) :
    (copyFromLoop (rounds + 1) total).run (s, source) = (.ok total, s, source') := by
  rw [copyFromLoop, run_bind_ok (run_onStream_ok hp s), if_pos hz, run_pure]

theorem copyFromLoop_of_error {e : StoreError}
    (hp : ByteSource.pull transferSize source = (.ok data, source')) (hz : data.size ≠ 0)
    (hw : (Storage.write data).run s = (.error e, t)) :
    (copyFromLoop (rounds + 1) total).run (s, source) = (.error e, t, source') := by
  rw [copyFromLoop, run_bind_ok (run_onStream_ok hp s), if_neg hz, run_bind, run_onFirst, hw]

theorem copyFromLoop_of_written (hp : ByteSource.pull transferSize source = (.ok data, source'))
    (hz : data.size ≠ 0) (hw : (Storage.write data).run s = (.ok (), t)) :
    (copyFromLoop (rounds + 1) total).run (s, source) =
      (copyFromLoop rounds (total + data.size)).run (t, source') := by
  rw [copyFromLoop, run_bind_ok (run_onStream_ok hp s), if_neg hz, run_bind, run_onFirst, hw]

end Watching

section Contract

variable {σ : Type} [Storage σ] [Meaning σ] {Good : σ → Prop} {f : Failures} {Fault : σ → σ → Prop}
variable {s t u : σ}

/-- How the bytes of a source go to `s`, and the store that is left: the source ends; it fails; or the
store does not take what it gave last. What the store has taken is one write of all that was given
before, to a byte string in memory. -/
inductive Feeds (Fault : σ → σ → Prop) (s : σ) (total : Nat) :
    Except StoreError Nat → List SourceNote → σ → Prop
  | ended {front : List SourceNote} {last : SourceNote} {data : Bytes} {t : σ}
      (flows : ∀ note ∈ front, note.Flows) (answer : last.answer = .gave data) (empty : data.size = 0)
      (written : (Storage.write (givenOf front)).run (plain s) = (.ok (), plain t)) :
      Feeds Fault s total (.ok (total + (givenOf front).size)) (front ++ [last]) t
  | failed {front : List SourceNote} {last : SourceNote} {cause : IoError} {t : σ}
      (flows : ∀ note ∈ front, note.Flows) (answer : last.answer = .failed cause)
      (written : (Storage.write (givenOf front)).run (plain s) = (.ok (), plain t)) :
      Feeds Fault s total (.error (.io cause)) (front ++ [last]) t
  /-- Either the piece would have ended beyond the last position, or something else has failed. -/
  | unwritten {front : List SourceNote} {last : SourceNote} {piece : Bytes} {u t : σ} {e : StoreError}
      (flows : ∀ note ∈ front, note.Flows) (answer : last.answer = .gave piece)
      (nonempty : piece.size ≠ 0) (refused : (Storage.write piece).run u = (.error e, t))
      (same : plain u = plain t)
      (written : (Storage.write (givenOf front)).run (plain s) = (.ok (), plain t))
      (cause : maxPosition < (plain t).cursor + piece.size ∨ Fault u t) :
      Feeds Fault s total (.error e) (front ++ [last]) t

theorem Feeds.cons {total : Nat} {outcome : Except StoreError Nat} {note : SourceNote}
    {notes : List SourceNote} (hflows : note.Flows)
    (hwritten : (Storage.write note.given).run (plain s) = (.ok (), plain t))
    (h : Feeds Fault t (total + note.given.size) outcome notes u) :
    Feeds Fault s total outcome (note :: notes) u := by
  cases h with
  | @ended front _ _ _ flows answer empty written =>
    have hall := Memory.run_write_append hwritten written
    rw [← givenOf_cons] at hall
    rw [← List.cons_append, Nat.add_assoc, ← ByteArray.size_append, ← givenOf_cons]
    exact .ended (List.forall_mem_cons.2 ⟨hflows, flows⟩) answer empty hall
  | @failed front _ _ _ flows answer written =>
    have hall := Memory.run_write_append hwritten written
    rw [← givenOf_cons] at hall
    rw [← List.cons_append]
    exact .failed (List.forall_mem_cons.2 ⟨hflows, flows⟩) answer hall
  | @unwritten front _ _ _ _ _ flows answer nonempty refused same written cause =>
    have hall := Memory.run_write_append hwritten written
    rw [← givenOf_cons] at hall
    rw [← List.cons_append]
    exact .unwritten (List.forall_mem_cons.2 ⟨hflows, flows⟩) answer nonempty refused same hall cause

theorem Feeds.of_pulls (ho : (plain s).closed = false) {n total : Nat}
    {answer : Except IoError Bytes} {asked notes : List SourceNote} {outcome : Except StoreError Nat}
    (hp : ByteSource.Pulls n answer asked)
    (h : Feeds Fault s total outcome (⟨n, .last answer⟩ :: notes) t) :
    Feeds Fault s total outcome (asked ++ notes) t := by
  induction hp with
  | answered => exact h
  | interrupted _ ih => exact .cons trivial (Memory.run_write_nothing ho rfl) ih

theorem Feeds.of_last_pulls (ho : (plain s).closed = false) {n total : Nat}
    {answer : Except IoError Bytes} {asked : List SourceNote} {outcome : Except StoreError Nat}
    (hp : ByteSource.Pulls n answer asked)
    (h : Feeds Fault s total outcome ([] ++ [⟨n, .last answer⟩]) t) :
    Feeds Fault s total outcome asked t := by
  have hfeeds := Feeds.of_pulls ho hp h
  rwa [List.append_nil] at hfeeds

section Loop

variable (h : Contract f Good) (htear : ∀ size, ¬f.tear size) (hdrift : ¬f.drift)

include h htear hdrift

/-- A write is done as a whole, or it fails and changes nothing. -/
theorem Contract.meets_whole_write (hs : Good s) (data : Bytes) :
    (Storage.write data).Meets s
      (fun _ t => Good t ∧ (Storage.write data).run (plain s) = (.ok (), plain t))
      fun _ t => Good t ∧ plain t = plain s := by
  apply Meets.imp (h.write data s hs)
  · rintro _ t ⟨ht, _, rfl, hrun⟩
    exact ⟨ht, hrun⟩
  · rintro e t ⟨ht, ⟨_, rfl, hrun⟩ | ⟨-, k, hk, hb, hc, hcur⟩⟩
    · exact ⟨ht, (Memory.effect_write (plain s) data).of_run_error hrun⟩
    · obtain rfl := hk.resolve_left (htear _)
      rw [Bytes.put_slice_zero] at hb
      have hspares : f.Spares (plain s) (plain t) := ⟨hb, hc, hcur⟩
      exact ⟨ht, hspares.eq hdrift⟩

variable {ρ : Type} [ByteSource ρ]
variable (hfault : ∀ data s t e, Good s → (plain s).closed = false → 0 < data.size →
  (plain s).cursor + data.size ≤ maxPosition → (Storage.write data).run s = (.error e, t) → Fault s t)

include hfault

/-- The loop comes to an end by itself, in one of these ways. -/
theorem Contract.feeds {t : σ} (ht : Good t) (ho : (plain t).closed = false) (w : WatchedSource ρ)
    (total : Nat) :
    ∃ outcome u w' notes, Good u ∧ w'.notes = w.notes ++ notes ∧ Feeds Fault t total outcome notes u ∧
      ∀ rounds ≥ maxPosition - (plain t).cursor,
        (copyFromLoop (rounds + 1) total).run (t, w) = (outcome, u, w') := by
  -- every piece that is written moves the cursor on, and none is written beyond the last position
  have hnothing : (Storage.write (givenOf [])).run (plain t) = (.ok (), plain t) := by
    rw [givenOf_nil]
    exact Memory.run_write_nothing ho rfl
  have hflows : ∀ note ∈ ([] : List SourceNote), note.Flows := List.forall_mem_nil _
  obtain ⟨-, notes, hnotes, hpulls⟩ := ByteSource.pull_watched transferSize w
  rcases hpull : ByteSource.pull transferSize w with ⟨cause | data, w'⟩
  · rw [hpull] at hnotes hpulls
    have hfailed : Feeds Fault t total (.error (.io cause)) ([] ++ [⟨transferSize, .failed cause⟩]) t :=
      .failed hflows rfl hnothing
    exact ⟨_, t, w', notes, ht, hnotes, hfailed.of_last_pulls ho hpulls,
      fun _ _ => copyFromLoop_of_failed hpull⟩
  rw [hpull] at hnotes hpulls
  by_cases hz : data.size = 0
  · have hended : Feeds Fault t total (.ok total) ([] ++ [⟨transferSize, .gave data⟩]) t :=
      .ended hflows rfl hz hnothing
    exact ⟨_, t, w', notes, ht, hnotes, hended.of_last_pulls ho hpulls,
      fun _ _ => copyFromLoop_of_ended hpull hz⟩
  have hwrite := h.meets_whole_write htear hdrift ht data
  rcases hrun : (Storage.write data).run t with ⟨e | ⟨⟩, u⟩
  · obtain ⟨hu, hsame⟩ := hwrite.of_run_error hrun
    have hcause : maxPosition < (plain u).cursor + data.size ∨ Fault t u := by
      rw [hsame]
      by_cases hfit : (plain t).cursor + data.size ≤ maxPosition
      · exact Or.inr (hfault data t u e ht ho (Nat.pos_of_ne_zero hz) hfit hrun)
      · exact Or.inl (Nat.lt_of_not_le hfit)
    have hwritten : (Storage.write (givenOf [])).run (plain t) = (.ok (), plain u) := by
      rw [hsame]
      exact hnothing
    have hunwritten : Feeds Fault t total (.error e) ([] ++ [⟨transferSize, .gave data⟩]) u :=
      .unwritten hflows rfl hz hrun hsame.symm hwritten hcause
    exact ⟨_, u, w', notes, hu, hnotes, hunwritten.of_last_pulls ho hpulls,
      fun _ _ => copyFromLoop_of_error hpull hz hrun⟩
  · obtain ⟨hu, hwritten⟩ := hwrite.of_run_ok hrun
    obtain ⟨-, hfit, hp⟩ := Memory.run_write_eq_ok.1 hwritten
    have ho' : (plain u).closed = false := by
      rw [hp]
      exact ho
    have hcursor : (plain u).cursor = (plain t).cursor + data.size := by rw [hp]
    have hless : maxPosition - (plain u).cursor < maxPosition - (plain t).cursor := by omega
    obtain ⟨outcome, v, w'', notes', hv, hnotes', hfeeds, hloop⟩ :=
      Contract.feeds hu ho' w' (total + data.size)
    refine ⟨outcome, v, w'', notes ++ notes', hv, ?_, ?_, fun rounds hrounds => ?_⟩
    · rw [hnotes', hnotes, List.append_assoc]
    · exact .of_pulls ho hpulls (.cons hz hwritten hfeeds)
    · obtain ⟨rounds, rfl⟩ : ∃ k, rounds = k + 1 := Nat.exists_eq_add_one.2 (by omega)
      rw [copyFromLoop_of_written hpull hz hrun]
      exact hloop rounds (by omega)
termination_by maxPosition - (plain t).cursor
decreasing_by exact hless

end Loop

/-- What a copy from `source` does to `s`. -/
structure Absorbs {ρ : Type} [ByteSource ρ] (Fault : σ → σ → Prop) (s : σ) (source : ρ)
    (outcome : Except StoreError Nat) (t : σ) (w : WatchedSource ρ) : Prop where
  watched : copyFrom.run (s, ({ source } : WatchedSource ρ)) = (outcome, t, w)
  run : copyFrom.run (s, source) = (outcome, t, w.source)
  /-- The loop ends by itself: more rounds than there are positions left change nothing. -/
  rounds : ∀ rounds > maxPosition - (plain s).cursor,
    (copyFromLoop rounds 0).run (s, source) = copyFrom.run (s, source)
  feeds : Feeds Fault s 0 outcome w.notes t
  /-- One write to the store itself does what it does to a byte string in memory. -/
  single : ∀ data u, (Storage.write data).run s = (.ok (), u) →
    (Storage.write data).run (plain s) = (.ok (), plain u)

theorem Contract.exists_absorbs {ρ : Type} [ByteSource ρ] (h : Contract f Good)
    (htear : ∀ size, ¬f.tear size) (hdrift : ¬f.drift)
    (hfault : ∀ data s t e, Good s → (plain s).closed = false → 0 < data.size →
      (plain s).cursor + data.size ≤ maxPosition → (Storage.write data).run s = (.error e, t) →
      Fault s t)
    (hs : Good s) (ho : (plain s).closed = false) (source : ρ) :
    ∃ outcome t w, Good t ∧ Absorbs Fault s source outcome t w := by
  obtain ⟨outcome, t, w, notes, ht, hnotes, hfeeds, hrun⟩ :=
    h.feeds htear hdrift hfault hs ho ({ source } : WatchedSource ρ) 0
  rw [List.nil_append] at hnotes
  rw [← hnotes] at hfeeds
  -- the loop on the source itself is the watched one, whatever the number of its rounds
  have hraw : ∀ rounds > maxPosition - (plain s).cursor,
      (copyFromLoop rounds 0).run (s, source) = (outcome, t, w.source) := by
    intro rounds hlt
    obtain ⟨rounds, rfl⟩ : ∃ k, rounds = k + 1 := Nat.exists_eq_add_one.2 (by omega)
    have hloop := (mimics_copyFrom (s, ({ source } : WatchedSource ρ)) (rounds + 1) 0).2
    rw [hrun rounds (by omega)] at hloop
    exact hloop
  have hcopy : copyFrom.run (s, source) = (outcome, t, w.source) :=
    hraw transferRounds (Nat.lt_succ_of_le (Nat.sub_le _ _))
  refine ⟨outcome, t, w, ht, hrun maxPosition (Nat.sub_le _ _), hcopy, ?_, hfeeds, ?_⟩
  · exact fun rounds hlt => (hraw rounds hlt).trans hcopy.symm
  · intro data u hu
    exact ((h.meets_whole_write htear hdrift hs data).of_run_ok hu).2

end Contract

/-- A call on the medium has failed in between. -/
def Tower.MediumFailed {κ μ : Type} [Storage μ] {kinds : List LayerKind} (t u : Tower κ μ kinds) :
    Prop := ∀ failed : μ → Nat, Counts failed → failed t.medium < failed u.medium

/-- A copy from a source leaves a tower as one write of all that the source gave leaves it. Where the
source fails, that is what it gave before; where a piece ends beyond the last position or a call on the
medium fails, the copy stops there, and it is what was given before that piece. -/
theorem copyFrom_is_one_write {κ ω ς ρ ρ' μ : Type} [Audience κ ω] [Collector ς] [ByteSource ρ]
    [ByteSource ρ'] [Storage μ] [Meaning μ] {f : Failures} {Sane : μ → Prop} (h : Contract f Sane)
    (htear : ∀ size, ¬f.tear size) (hdrift : ¬f.drift) {m : μ} (hm : Sane m) (world : ω)
    (actions : List (Action κ ς ρ)) {t : AnyTower κ μ}
    (ht : t = (leave (actions.map Action.run) (AnyTower.ofMedium m, world)).1)
    (hopen : Storage.isClosed t.tower = false) (source : ρ') :
    ∃ outcome u w, Absorbs Tower.MediumFailed t.tower source outcome u w := by
  have hsound := AnyTower.intact_of_leave h hm world actions ht
  have hcontract := AnyTower.contract_of_medium (κ := κ) h t.kinds
  have ho : (plain t.tower).closed = false := (hcontract.isClosed t.tower hsound).symm.trans hopen
  have hfault : ∀ data (s u : Tower κ μ t.kinds) e,
      Tower.Sound (fun _ _ => True) (fun _ => Sane) t.kinds 0 s → (plain s).closed = false →
      0 < data.size → (plain s).cursor + data.size ≤ maxPosition →
      (Storage.write data).run s = (.error e, u) → Tower.MediumFailed s u := by
    intro data s u e hs ho hd hfit hrun failed hcounts
    have hblames := Tower.blames (κ := κ) h (hcounts.blames Sane) t.kinds
    exact (hblames.write data s hs ho hd hfit).of_run_error hrun
  obtain ⟨outcome, u, w, -, habsorbs⟩ :=
    hcontract.exists_absorbs htear hdrift hfault hsound ho source
  exact ⟨outcome, u, w, habsorbs⟩

/-- Nine bytes, two at a time, and every other request is interrupted. -/
def trickling : ThrottledSource where
  data := .ofOctets [11, 12, 13, 14, 15, 16, 17, 18, 19]
  perCall := some 2
  interrupts := true

/-- The medium fails while the pieces gather above it. -/
theorem copyFrom_over_failing_medium : ∃ t : AnyTower String (Tallied Scheduled),
    t = (leave (sips.map Action.run) (AnyTower.ofMedium { medium := losing }, ({} : Cast))).1 ∧
    Storage.isClosed t.tower = false ∧ Counts (Tallied.failed : Tallied Scheduled → Nat) ∧
    ∃ outcome u w, Absorbs Tower.MediumFailed t.tower trickling outcome u w := by
  obtain ⟨t, ht⟩ : ∃ t : AnyTower String (Tallied Scheduled),
      t = (leave (sips.map Action.run) (AnyTower.ofMedium { medium := losing }, ({} : Cast))).1 :=
    ⟨_, rfl⟩
  have hopen : Storage.isClosed t.tower = false := by
    rw [ht]
    decide +kernel
  have habsorbs := copyFrom_is_one_write (Tallied.contract Scheduled.contract_steady) (fun _ => id) id
    (m := { medium := losing }) bound_losing ({} : Cast) sips ht hopen trickling
  exact ⟨t, ht, hopen, Tallied.counts_failed, habsorbs⟩

end ByteTower
