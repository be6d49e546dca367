import ByteTower.Proofs.Reader
import ByteTower.Proofs.Stream

namespace ByteTower

open StoreM Storage

inductive SinkNote
  | offered (data : Bytes) (answer : SinkAnswer)
  | flushed (answer : Except IoError Unit)

namespace SinkNote

def taken : SinkNote → Bytes
  | offered data (.took n) => data.slice 0 n
  | _ => ByteArray.empty

/-- Why the sink took nothing for good, if it was offered something and did. -/
def refusal? : SinkNote → Option IoError
  | offered _ (.took 0) => some .tookNothing
  | offered _ (.failed cause) => some cause
  | _ => none

def IsOffer : SinkNote → Prop
  | offered _ _ => True
  | flushed _ => False

end SinkNote

/-- Everything that a sink took, in order. -/
def takenOf (notes : List SinkNote) : Bytes :=
  notes.foldr (fun note rest => note.taken ++ rest) ByteArray.empty

@[simp] theorem takenOf_nil : takenOf [] = ByteArray.empty := rfl

@[simp] theorem takenOf_cons (note : SinkNote) (notes : List SinkNote) :
    takenOf (note :: notes) = note.taken ++ takenOf notes := rfl

theorem takenOf_append (notes notes' : List SinkNote) :
    takenOf (notes ++ notes') = takenOf notes ++ takenOf notes' := by
  induction notes with
  | nil => rw [List.nil_append, takenOf_nil, ByteArray.empty_append]
  | cons note notes ih => rw [List.cons_append, takenOf_cons, takenOf_cons, ih, ByteArray.append_assoc]

structure WatchedSink (κ : Type) where
  sink : κ
  notes : List SinkNote := []

namespace WatchedSink

variable {κ : Type} [ByteSink κ]

def noting (w : WatchedSink κ) (sink : κ) (note : SinkNote) : WatchedSink κ :=
  { sink, notes := w.notes ++ [note] }

instance : ByteSink (WatchedSink κ) where
  offer data w :=
    let (answer, sink) := ByteSink.offer data w.sink
    (answer, w.noting sink (.offered data answer))
  flush w :=
    let (answer, sink) := ByteSink.flush w.sink
    (answer, w.noting sink (.flushed answer))
  patience w := ByteSink.patience w.sink
  patience_lt data w h := ByteSink.patience_lt data w.sink h

theorem offer_eq {data : Bytes} {answer : SinkAnswer} {w : WatchedSink κ} {sink : κ}
    (h : ByteSink.offer data w.sink = (answer, sink)) :
    ByteSink.offer data w = (answer, w.noting sink (.offered data answer)) := by
  simp only [ByteSink.offer, h]

end WatchedSink

namespace ByteSink

variable {κ : Type} [ByteSink κ] {data : Bytes} {sink sink' : κ}

/-- The calls by which a sink is given `data`, and how that ends: it has all of it, or it took what the
data begins with and refused the rest. -/
inductive Puts (data : Bytes) : Except IoError Unit → List SinkNote → Prop
  | all {offers : List SinkNote} (only : ∀ note ∈ offers, note.IsOffer)
      (taken : takenOf offers = data) : Puts data (.ok ()) offers
  | refused {offers : List SinkNote} {last : SinkNote} {cause : IoError} {left : Bytes}
      (only : ∀ note ∈ offers, note.IsOffer) (refusal : last.refusal? = some cause)
      (taken : takenOf offers ++ left = data) (missing : left.size ≠ 0) :
      Puts data (.error cause) (offers ++ [last])

theorem Puts.cons {outcome : Except IoError Unit} {notes : List SinkNote} {answer : SinkAnswer}
    {rest : Bytes} (hsplit : (SinkNote.offered data answer).taken ++ rest = data)
    (h : Puts rest outcome notes) : Puts data outcome (.offered data answer :: notes) := by
  cases h with
  | all only taken =>
    refine .all (List.forall_mem_cons.2 ⟨trivial, only⟩) ?_
    rw [takenOf_cons, taken, hsplit]
  | @refused offers _ _ _ only refusal taken missing =>
    rw [← List.cons_append]
    refine .refused (List.forall_mem_cons.2 ⟨trivial, only⟩) refusal ?_ missing
    rw [takenOf_cons, ByteArray.append_assoc, taken, hsplit]

theorem Puts.of_refusal (hd : data.size ≠ 0) {note : SinkNote} {cause : IoError}
    (h : note.refusal? = some cause) : Puts data (.error cause) [note] := by
  rw [← List.nil_append [note]]
  exact .refused (List.forall_mem_nil _) h ByteArray.empty_append hd

/-- Watching changes nothing, and what was seen adds up. -/
theorem put_watched (data : Bytes) (w : WatchedSink κ) :
    put data w.sink = ((put data w).1, (put data w).2.sink) ∧
      ∃ notes, (put data w).2.notes = w.notes ++ notes ∧ Puts data (put data w).1 notes := by
  -- an interruption takes from the patience of the sink, and an answer from the data
  by_cases hd : data.size = 0
  · rw [put_nothing hd, put_nothing hd]
    have hempty : takenOf [] = data := (ByteArray.size_eq_zero_iff.1 hd).symm
    exact ⟨rfl, [], (List.append_nil _).symm, .all (List.forall_mem_nil _) hempty⟩
  have hpos := Nat.pos_of_ne_zero hd
  have hpatience := patience_lt data w.sink
  rcases ho : offer data w.sink with ⟨answer, sink'⟩
  rw [ho] at hpatience
  have hw := WatchedSink.offer_eq ho
  cases answer with
  | interrupted =>
    have hlt := hpatience rfl
    rw [put_of_interrupted hpos ho, put_of_interrupted hpos hw]
    obtain ⟨hsame, notes, hnotes, hputs⟩ := put_watched data (w.noting sink' (.offered data .interrupted))
    refine ⟨hsame, .offered data .interrupted :: notes, ?_, hputs.cons (ByteArray.empty_append)⟩
    rw [hnotes, WatchedSink.noting, List.append_assoc, List.singleton_append]
  | took n =>
    by_cases hn : n = 0
    · subst hn
      rw [put_of_took_nothing hpos ho, put_of_took_nothing hpos hw]
      exact ⟨rfl, [.offered data (.took 0)], rfl, .of_refusal hd rfl⟩
    · have hn := Nat.pos_of_ne_zero hn
      rw [put_of_took hpos hn ho, put_of_took hpos hn hw]
      obtain ⟨hsame, notes, hnotes, hputs⟩ :=
        put_watched (data.slice n data.size) (w.noting sink' (.offered data (.took n)))
      refine ⟨hsame, .offered data (.took n) :: notes, ?_, hputs.cons (Bytes.slice_append_rest data n)⟩
      rw [hnotes, WatchedSink.noting, List.append_assoc, List.singleton_append]
  | failed cause =>
    rw [put_of_failed hpos ho, put_of_failed hpos hw]
    exact ⟨rfl, [.offered data (.failed cause)], rfl, .of_refusal hd rfl⟩
termination_by (data.size, patience w.sink)
decreasing_by
  · exact Prod.Lex.right _ hlt
  · exact Prod.Lex.left _ _ (by rw [Bytes.size_slice]; omega)

end ByteSink

section Watching

variable {σ κ : Type} [Storage σ] [ByteSink κ]

def unwatched (p : σ × WatchedSink κ) : σ × κ := (p.1, p.2.sink)

omit [Storage σ] in
theorem mimics_put (data : Bytes) (p : σ × WatchedSink κ) :
    Mimics (fun _ => True) unwatched (onSecond (onStream (ByteSink.put data)))
      (onSecond (onStream (ByteSink.put data))) p := by
  obtain ⟨s, w⟩ := p
  refine ⟨trivial, ?_⟩
  simp only [unwatched, run_onSecond, onStream, (ByteSink.put_watched data w).1]

omit [Storage σ] in
theorem mimics_flush (p : σ × WatchedSink κ) :
    Mimics (fun _ => True) unwatched (onSecond (onStream ByteSink.flush))
      (onSecond (onStream ByteSink.flush)) p := ⟨trivial, rfl⟩

theorem mimics_watchedLoop (p : σ × WatchedSink κ) (rounds total : Nat) :
    Mimics (fun _ => True) unwatched (copyToLoop rounds total) (copyToLoop rounds total) p := by
  induction rounds generalizing total p with
  | zero => exact mimics_pure trivial total
  | succ rounds ih =>
    have hread : Mimics (fun _ => True) unwatched (onFirst (Storage.read transferSize))
        (onFirst (Storage.read transferSize)) p := ⟨trivial, rfl⟩
    refine hread.bind fun result q _ => mimics_ite (fun _ => mimics_pure trivial total) fun _ => ?_
    exact (mimics_put result.data q).bind fun _ r _ => ih r _

theorem mimics_copyTo (p : σ × WatchedSink κ) : Mimics (fun _ => True) unwatched copyTo copyTo p :=
  (mimics_watchedLoop p transferRounds 0).bind fun total q _ =>
    (mimics_flush q).bind fun _ _ _ => mimics_pure trivial total

-- What one round of the loop does, by what its read and its put do.

variable {rounds total : Nat} {s t : σ} {r : ReadResult} {sink sink' : κ}

theorem copyToLoop_of_error {e : StoreError} (hr : (Storage.read transferSize).run s = (.error e, t)) :
    (copyToLoop (rounds + 1) total).run (s, sink) = (.error e, t, sink) := by
  rw [copyToLoop, run_bind, run_onFirst, hr]

theorem copyToLoop_of_none (hr : (Storage.read transferSize).run s = (.ok r, t))
    (hz : r.data.size = 0) :
    (copyToLoop (rounds + 1) total).run (s, sink) = (.ok total, t, sink) := by
  rw [copyToLoop, run_bind, run_onFirst, hr]
  simp only [hz, if_pos, run_pure]

theorem copyToLoop_of_refused {cause : IoError} (hr : (Storage.read transferSize).run s = (.ok r, t))
    (hz : r.data.size ≠ 0) (hput : ByteSink.put r.data sink = (.error cause, sink')) :
    (copyToLoop (rounds + 1) total).run (s, sink) = (.error (.io cause), t, sink') := by
  rw [copyToLoop, run_bind, run_onFirst, hr]
  simp only [hz, if_false]
  exact run_bind_error (run_onStream_error hput t) _

theorem copyToLoop_of_put (hr : (Storage.read transferSize).run s = (.ok r, t))
    (hz : r.data.size ≠ 0) (hput : ByteSink.put r.data sink = (.ok (), sink')) :
    (copyToLoop (rounds + 1) total).run (s, sink) =
      (copyToLoop rounds (total + r.data.size)).run (t, sink') := by
  rw [copyToLoop, run_bind, run_onFirst, hr]
  simp only [hz, if_false]
  exact run_bind_ok (run_onStream_ok hput t) _

theorem run_copyTo {n : Nat} {sink'' : κ} {answer : Except IoError Unit}
    (hloop : (copyToLoop transferRounds 0).run (s, sink) = (.ok n, t, sink'))
    (hflush : ByteSink.flush sink' = (answer, sink'')) :
    copyTo.run (s, sink) = ((answer.map fun _ => n).mapError .io, t, sink'') := by
  rw [copyTo, run_bind_ok hloop, run_bind, run_onSecond]
  simp only [onStream, hflush]
  cases answer with
  | error | ok => rfl

end Watching

section Contract

variable {σ κ : Type} [Storage σ] [Meaning σ] [ByteSink κ] {Good : σ → Prop} {s t u : σ}

/-- How the bytes from the cursor on of `s` go to a sink, and the store that is left: all of them go;
the sink refuses the last offer, and the rest of them; or a read fails. -/
inductive Pours (s : σ) (total : Nat) : Except StoreError Nat → List SinkNote → σ → Prop
  | all {offers : List SinkNote} {t : σ} (only : ∀ note ∈ offers, note.IsOffer)
      (taken : takenOf offers = (plain s).rest) (after : plain t = (plain s).atEnd) :
      Pours s total (.ok (total + (plain s).rest.size)) offers t
  | refused {offers : List SinkNote} {last : SinkNote} {cause : IoError} {left : Bytes} {t : σ}
      (only : ∀ note ∈ offers, note.IsOffer) (refusal : last.refusal? = some cause)
      (taken : takenOf offers ++ left = (plain s).rest) (missing : left.size ≠ 0)
      (after : plain t = { plain s with cursor := (plain t).cursor }) :
      Pours s total (.error (.io cause)) (offers ++ [last]) t
  | broken {offers : List SinkNote} {left : Bytes} {u t : σ} {e : StoreError}
      (only : ∀ note ∈ offers, note.IsOffer) (taken : takenOf offers ++ left = (plain s).rest)
      (after : plain t = { plain s with cursor := (plain s).cursor + (takenOf offers).size })
      (failed : (Storage.read transferSize).run u = (.error e, t)) :
      Pours s total (.error e) offers t

theorem Pours.after_round {k total : Nat} {outcome : Except StoreError Nat}
    {offers notes : List SinkNote} (honly : ∀ note ∈ offers, note.IsOffer)
    (htaken : takenOf offers = (plain s).bytes.slice (plain s).cursor k)
    (hp : plain t = (plain s).advance k) (h : Pours t (total + (takenOf offers).size) outcome notes u) :
    Pours s total outcome (offers ++ notes) u := by
  have hjoin := (plain s).slice_append_rest k
  rw [← htaken, ← hp] at hjoin
  have hcursor : (plain t).cursor = (plain s).cursor + (takenOf offers).size := by
    rw [hp, htaken]
    rfl
  cases h with
  | all only taken after =>
    have hsum := congrArg ByteArray.size hjoin
    rw [ByteArray.size_append] at hsum
    rw [Nat.add_assoc, hsum]
    refine .all (List.forall_mem_append.2 ⟨honly, only⟩) ?_ ?_
    · rw [takenOf_append, taken, hjoin]
    · rw [after, hp, Memory.atEnd_advance]
  | refused only refusal taken missing after =>
    rw [← List.append_assoc]
    refine .refused (List.forall_mem_append.2 ⟨honly, only⟩) refusal ?_ missing ?_
    · rw [takenOf_append, ByteArray.append_assoc, taken, hjoin]
    · rw [after, hp]
      rfl
  | @broken _ left _ _ _ only taken after failed =>
    have hall : takenOf (offers ++ notes) ++ left = (plain s).rest := by
      rw [takenOf_append, ByteArray.append_assoc, taken, hjoin]
    refine .broken (List.forall_mem_append.2 ⟨honly, only⟩) hall ?_ failed
    rw [after, hcursor, takenOf_append, ByteArray.size_append, Nat.add_assoc, hp]
    rfl

theorem Pours.of_refused {k total : Nat} {data : Bytes} {cause : IoError} {notes : List SinkNote}
    (hdata : data = (plain s).bytes.slice (plain s).cursor k) (hp : plain t = (plain s).advance k)
    (h : ByteSink.Puts data (.error cause) notes) : Pours s total (.error (.io cause)) notes t := by
  have hjoin := (plain s).slice_append_rest k
  rw [← hdata] at hjoin
  cases h with
  | @refused offers _ _ left only refusal taken missing =>
    -- the data that is left, and then all that was not offered yet
    have hall : takenOf offers ++ (left ++ ((plain s).advance k).rest) = (plain s).rest := by
      rw [← ByteArray.append_assoc, taken, hjoin]
    refine .refused only refusal hall ?_ ?_
    · rw [ByteArray.size_append]
      omega
    · rw [hp]
      rfl

/-- The loop comes to an end by itself, in one of these ways. -/
theorem Reader.pours (h : Reader Good) {t : σ} (ht : Good t) (ho : (plain t).closed = false)
    (w : WatchedSink κ) (total : Nat) :
    ∃ outcome u w' notes, Good u ∧ w'.notes = w.notes ++ notes ∧ Pours t total outcome notes u ∧
      ∀ rounds ≥ (plain t).rest.size,
        (copyToLoop (rounds + 1) total).run (t, w) = (outcome, u, w') := by
  have hread := h transferSize t ht ho
  rcases hr : (Storage.read transferSize).run t with ⟨e | r, u⟩
  · obtain ⟨hu, hp⟩ := hread.of_run_error hr
    have hbroken : Pours t total (.error e) [] u :=
      .broken (List.forall_mem_nil _) ByteArray.empty_append hp hr
    exact ⟨.error e, u, w, [], hu, (List.append_nil _).symm, hbroken, fun _ _ => copyToLoop_of_error hr⟩
  obtain ⟨hu, hreads⟩ := hread.of_run_ok hr
  by_cases hz : r.data.size = 0
  · obtain ⟨hend, hp⟩ := hreads.ended (by decide) hz
    have hrest := Memory.rest_of_le hend
    have hall : Pours t total (.ok (total + (plain t).rest.size)) [] u :=
      .all (List.forall_mem_nil _) hrest.symm (by rw [hp, Memory.atEnd_of_le hend])
    rw [hrest] at hall
    exact ⟨.ok total, u, w, [], hu, (List.append_nil _).symm, hall, fun _ _ => copyToLoop_of_none hr hz⟩
  obtain ⟨hdata, hp⟩ := hreads.advanced hz
  obtain ⟨-, notes, hnotes, hputs⟩ := ByteSink.put_watched r.data w
  rcases hput : ByteSink.put r.data w with ⟨cause | ⟨⟩, w'⟩
  · rw [hput] at hnotes hputs
    exact ⟨.error (.io cause), u, w', notes, hu, hnotes, .of_refused hdata hp hputs,
      fun _ _ => copyToLoop_of_refused hr hz hput⟩
  · rw [hput] at hnotes hputs
    have ho' : (plain u).closed = false := by
      rw [hp]
      exact ho
    -- what is left is less by the bytes of this round
    have hsum := congrArg ByteArray.size ((plain t).slice_append_rest r.data.size)
    rw [ByteArray.size_append, ← hdata, ← hp] at hsum
    have hless : (plain u).rest.size < (plain t).rest.size := by omega
    obtain ⟨outcome, v, w'', notes', hv, hnotes', hpours, hrun⟩ :=
      h.pours hu ho' w' (total + r.data.size)
    refine ⟨outcome, v, w'', notes ++ notes', hv, ?_, ?_, fun rounds hrounds => ?_⟩
    · rw [hnotes', hnotes, List.append_assoc]
    · cases hputs with
      | all only taken =>
        rw [← taken] at hpours
        exact .after_round only (taken.trans hdata) hp hpours
    · obtain ⟨rounds, rfl⟩ : ∃ k, rounds = k + 1 := Nat.exists_eq_add_one.2 (by omega)
      rw [copyToLoop_of_put hr hz hput]
      exact hrun rounds (by omega)
termination_by (plain t).rest.size
decreasing_by exact hless

/-- All the calls that a sink gets, and how the copy ends: where everything has gone to the sink, with a
flush. -/
inductive Drains (s : σ) : Except StoreError Nat → List SinkNote → σ → Prop
  | flushed {n : Nat} {offers : List SinkNote} {t : σ} (pours : Pours s 0 (.ok n) offers t) :
      Drains s (.ok n) (offers ++ [.flushed (.ok ())]) t
  | unflushed {n : Nat} {offers : List SinkNote} {t : σ} {cause : IoError}
      (pours : Pours s 0 (.ok n) offers t) :
      Drains s (.error (.io cause)) (offers ++ [.flushed (.error cause)]) t
  | stopped {offers : List SinkNote} {t : σ} {e : StoreError} (pours : Pours s 0 (.error e) offers t) :
      Drains s (.error e) offers t

/-- What a copy of `s` to `sink` does. -/
structure Copies (s : σ) (sink : κ) (outcome : Except StoreError Nat) (t : σ) (w : WatchedSink κ) :
    Prop where
  watched : copyTo.run (s, ({ sink } : WatchedSink κ)) = (outcome, t, w)
  run : copyTo.run (s, sink) = (outcome, t, w.sink)
  /-- The loop ends by itself: more rounds than bytes change nothing. -/
  rounds : ∀ rounds > (plain s).rest.size,
    (copyToLoop rounds 0).run (s, sink) = (copyToLoop transferRounds 0).run (s, sink)
  bytes : (plain t).bytes = (plain s).bytes
  drains : Drains s outcome w.notes t

theorem Pours.bytes_eq {total : Nat} {outcome : Except StoreError Nat} {notes : List SinkNote}
    (h : Pours s total outcome notes t) : (plain t).bytes = (plain s).bytes := by
  cases h with
  | all _ _ after => rw [after]; rfl
  | refused _ _ _ _ after => rw [after]
  | broken _ _ after _ => rw [after]

theorem Drains.of_flush {n : Nat} {offers : List SinkNote} (h : Pours s 0 (.ok n) offers t)
    (answer : Except IoError Unit) :
    Drains s ((answer.map fun _ => n).mapError .io) (offers ++ [.flushed answer]) t := by
  cases answer with
  | error cause => exact .unflushed h
  | ok => exact .flushed h

theorem Reader.exists_drains (h : Reader Good) (hs : Good s) (ho : (plain s).closed = false)
    (hsize : (plain s).bytes.size ≤ maxPosition) (sink : κ) :
    ∃ outcome t w, copyTo.run (s, ({ sink } : WatchedSink κ)) = (outcome, t, w) ∧ Good t ∧
      (plain t).bytes = (plain s).bytes ∧ Drains s outcome w.notes t := by
  obtain ⟨outcome, t, w, notes, ht, hnotes, hpours, hrun⟩ := h.pours hs ho ({ sink } : WatchedSink κ) 0
  rw [List.nil_append] at hnotes
  have hbytes := hpours.bytes_eq
  -- no store has so many bytes that the rounds could run out
  have hrounds : (plain s).rest.size ≤ maxPosition := by
    rw [Memory.rest, Bytes.size_slice]
    omega
  have hloop : (copyToLoop transferRounds 0).run (s, ({ sink } : WatchedSink κ)) = (outcome, t, w) :=
    hrun maxPosition hrounds
  rcases outcome with e | n
  · refine ⟨.error e, t, w, run_bind_error hloop _, ht, hbytes, ?_⟩
    rw [hnotes]
    exact .stopped hpours
  · refine ⟨_, t, _, run_copyTo hloop rfl, ht, hbytes, ?_⟩
    have hflushed := Drains.of_flush hpours (ByteSink.flush w.sink).1
    rw [← hnotes] at hflushed
    exact hflushed

/-- However many rounds the loop may take, it takes no more than there are bytes, and the last one. -/
theorem Reader.copyToLoop_rounds (h : Reader Good) (hs : Good s) (ho : (plain s).closed = false)
    (sink : κ) {rounds rounds' : Nat} (hlt : (plain s).rest.size < rounds)
    (hlt' : (plain s).rest.size < rounds') :
    (copyToLoop rounds 0).run (s, sink) = (copyToLoop rounds' 0).run (s, sink) := by
  obtain ⟨_, t, w, -, -, -, -, hrun⟩ := h.pours hs ho ({ sink } : WatchedSink κ) 0
  obtain ⟨rounds, rfl⟩ : ∃ k, rounds = k + 1 := Nat.exists_eq_add_one.2 (by omega)
  obtain ⟨rounds', rfl⟩ : ∃ k, rounds' = k + 1 := Nat.exists_eq_add_one.2 (by omega)
  -- the loop on the sink itself is the watched one, unwatched
  have hloop := (mimics_watchedLoop (s, ({ sink } : WatchedSink κ)) (rounds + 1) 0).2
  have hloop' := (mimics_watchedLoop (s, ({ sink } : WatchedSink κ)) (rounds' + 1) 0).2
  rw [hrun rounds (by omega)] at hloop
  rw [hrun rounds' (by omega)] at hloop'
  exact hloop.trans hloop'.symm

/-- A copy gives the sink the bytes from the cursor on, each once and in order, and then one flush. Where
the sink or a read stops it, the sink has what they begin with, and no byte of the store is lost. -/
theorem copyTo_drains (h : Reader Good) (hs : Good s) (ho : (plain s).closed = false)
    (hsize : (plain s).bytes.size ≤ maxPosition) (sink : κ) :
    ∃ outcome t w, Good t ∧ Copies s sink outcome t w := by
  obtain ⟨outcome, t, w, hrun, ht, hbytes, hdrains⟩ := h.exists_drains hs ho hsize sink
  have hmimics := (mimics_copyTo (s, ({ sink } : WatchedSink κ))).2
  rw [hrun] at hmimics
  refine ⟨outcome, t, w, ht, hrun, hmimics, fun rounds hlt => ?_, hbytes, hdrains⟩
  refine h.copyToLoop_rounds hs ho sink hlt ?_
  rw [transferRounds, Memory.rest, Bytes.size_slice]
  omega

end Contract

/-- Takes two bytes at most at a time and three in all, and interrupts every other call. -/
def cramped : ThrottledSink := { perCall := some 2, room := some 3, interrupts := true }

/-- Four bytes for a sink that has room for three. -/
theorem copyTo_cramped : ∃ t : AnyTower String Dripping,
    t = (leave (beyondEnd.map Action.run) (AnyTower.ofMedium sipping, ({} : Cast))).1 ∧
    t.Intact Dripping.Bounded ∧ (plain t.tower).closed = false ∧
    (plain t.tower).bytes.size ≤ maxPosition ∧
    (plain t.tower).rest = .ofOctets [0, 0, 9, 9] ∧
    ∃ outcome u w, Copies t.tower cramped outcome u w := by
  have hmedium : sipping.Bounded := by
    refine ⟨?_, fun i => Nat.succ_pos _⟩
    unfold Memory.Bounded
    decide
  obtain ⟨t, ht⟩ : ∃ t : AnyTower String Dripping,
      t = (leave (beyondEnd.map Action.run) (AnyTower.ofMedium sipping, ({} : Cast))).1 := ⟨_, rfl⟩
  have hsound := AnyTower.intact_of_leave Dripping.contract hmedium ({} : Cast) beyondEnd ht
  have hcontract := AnyTower.contract_of_medium (κ := String) Dripping.contract t.kinds
  have hsize := (hcontract.bounded t.tower hsound).resolve_left id
  have hopen : (plain t.tower).closed = false := by
    rw [ht]
    decide +kernel
  obtain ⟨outcome, u, w, -, hcopies⟩ :=
    copyTo_drains hcontract.readable.reader hsound hopen hsize cramped
  refine ⟨t, ht, hsound, hopen, hsize, ?_, outcome, u, w, hcopies⟩
  rw [ht]
  decide +kernel

end ByteTower
