import ByteTower.Proofs.Media
import ByteTower.Proofs.Mimicry
import ByteTower.Store.Throttled

namespace ByteTower

open StoreM Storage

/-- A sink that never fails and keeps what it took, in order. -/
class Collector (κ : Type) extends ByteSink κ where
  held : κ → Bytes
  offer_held : ∀ data sink, 0 < data.size →
    (offer data sink).1 = .interrupted ∧ held (offer data sink).2 = held sink ∨
      ∃ n, 0 < n ∧ n ≤ data.size ∧ (offer data sink).1 = .took n ∧
        held (offer data sink).2 = held sink ++ data.slice 0 n
  flush_held : ∀ sink, (flush sink).1 = .ok () ∧ held (flush sink).2 = held sink

namespace ByteSink

variable {κ : Type} [ByteSink κ] {data : Bytes} {sink sink' : κ}

theorem put_nothing (hd : data.size = 0) (sink : κ) : put data sink = (.ok (), sink) := by
  rw [put, if_pos hd]

theorem put_eq (hd : 0 < data.size) {answer : SinkAnswer} (ho : offer data sink = (answer, sink')) :
    put data sink = match answer with
      | .interrupted => put data sink'
      | .took n => if n = 0 then (.error .tookNothing, sink') else put (data.slice n data.size) sink'
      | .failed cause => (.error cause, sink') := by
  rw [put, if_neg (Nat.ne_of_gt hd)]
  split
  all_goals
    rename_i ht
    obtain ⟨rfl, rfl⟩ := Prod.mk.inj (ho.symm.trans ht)
    rfl

theorem put_of_interrupted (hd : 0 < data.size) (ho : offer data sink = (.interrupted, sink')) :
    put data sink = put data sink' := put_eq hd ho

theorem put_of_took (hd : 0 < data.size) {n : Nat} (hn : 0 < n)
    (ho : offer data sink = (.took n, sink')) :
    put data sink = put (data.slice n data.size) sink' :=
  (put_eq hd ho).trans (if_neg (Nat.ne_of_gt hn))

theorem put_of_took_nothing (hd : 0 < data.size) (ho : offer data sink = (.took 0, sink')) :
    put data sink = (.error .tookNothing, sink') := put_eq hd ho

theorem put_of_failed (hd : 0 < data.size) {cause : IoError}
    (ho : offer data sink = (.failed cause, sink')) : put data sink = (.error cause, sink') :=
  put_eq hd ho

end ByteSink

section Step

variable {σ κ α : Type} {act : κ → Except IoError α × κ} {stream stream' : κ}

theorem run_onStream_ok {a : α} (h : act stream = (.ok a, stream')) (s : σ) :
    (onSecond (onStream act)).run (s, stream) = (.ok a, s, stream') := by
  simp only [run_onSecond, onStream, h]
  rfl

theorem run_onStream_error {cause : IoError} (h : act stream = (.error cause, stream')) (s : σ) :
    (onSecond (onStream act)).run (s, stream) = (.error (.io cause), s, stream') := by
  simp only [run_onSecond, onStream, h]
  rfl

end Step

namespace Collector

variable {κ : Type} [Collector κ]

/-- However it is taken apart, a collector has all of what was put into it. -/
theorem put_held (data : Bytes) (sink : κ) :
    (ByteSink.put data sink).1 = .ok () ∧ held (ByteSink.put data sink).2 = held sink ++ data := by
  -- an interruption takes from the patience of the sink, and an answer from the data
  by_cases hd : data.size = 0
  · rw [ByteSink.put_nothing hd, ByteArray.size_eq_zero_iff.1 hd, ByteArray.append_empty]
    exact ⟨rfl, rfl⟩
  · have hd := Nat.pos_of_ne_zero hd
    have hoffer := offer_held data sink hd
    have hpatience := ByteSink.patience_lt data sink
    rcases ho : ByteSink.offer data sink with ⟨answer, sink'⟩
    rw [ho] at hoffer hpatience
    obtain ⟨rfl, hheld⟩ | ⟨n, hn, -, rfl, hheld⟩ := hoffer
    · have hlt := hpatience rfl
      rw [ByteSink.put_of_interrupted hd ho, ← hheld]
      exact put_held data sink'
    · obtain ⟨hok, hrest⟩ := put_held (data.slice n data.size) sink'
      rw [ByteSink.put_of_took hd hn ho]
      refine ⟨hok, ?_⟩
      rw [hrest, hheld, ByteArray.append_assoc, Bytes.slice_append_rest]
termination_by (data.size, ByteSink.patience sink)
decreasing_by
  · exact Prod.Lex.right _ hlt
  · exact Prod.Lex.left _ _ (by rw [Bytes.size_slice]; omega)

theorem meets_put {σ : Type} (data : Bytes) (s : σ) (sink : κ) :
    (onSecond (onStream (ByteSink.put data))).Meets (s, sink)
      (fun _ p => p.1 = s ∧ held p.2 = held sink ++ data) fun _ _ => False := by
  obtain ⟨hok, hheld⟩ := put_held data sink
  exact meets_of_ok (run_onStream_ok (Prod.ext hok rfl) s) ⟨rfl, hheld⟩

theorem meets_flush {σ : Type} (s : σ) (sink : κ) :
    (onSecond (onStream ByteSink.flush)).Meets (s, sink)
      (fun _ p => p.1 = s ∧ held p.2 = held sink) fun _ _ => False := by
  obtain ⟨hok, hheld⟩ := flush_held sink
  exact meets_of_ok (run_onStream_ok (Prod.ext hok rfl) s) ⟨rfl, hheld⟩

end Collector

section CopyTo

variable {σ κ : Type} [Storage σ] [Collector κ]

open Collector (held)

def collect (sink : κ) : StoreM σ (Except StoreError Nat × Bytes) :=
  .ofRun fun s =>
    let (total, s, sink) := Storage.copyTo.run (s, sink)
    (.ok (total, held sink), s)

def Memory.collected (m : Memory) (had : Bytes) : (Except StoreError Nat × Bytes) × Memory :=
  if m.closed then ((.error .closed, had), m) else ((.ok m.rest.size, had ++ m.rest), m.atEnd)

variable [Meaning σ] {f : Failures} {Good : σ → Prop} {s : σ}
variable (h : Reading f Good) (hf : ¬f.occur)

include h hf

theorem meets_copyToLoop {rounds total : Nat} {sink : κ} (hs : Good s) (ho : (plain s).closed = false)
    (hrounds : (plain s).rest.size < rounds) :
    (copyToLoop rounds total).Meets (s, sink)
      (fun n p => Good p.1 ∧ n = total + (plain s).rest.size ∧ held p.2 = held sink ++ (plain s).rest ∧
        plain p.1 = (plain s).atEnd)
      fun _ _ => False := by
  -- each round but the last moves a byte at least, so the rounds outlast the bytes
  induction rounds generalizing s total sink with
  | zero => exact absurd hrounds (Nat.not_lt_zero _)
  | succ rounds ih =>
    by_cases hcur : (plain s).cursor < (plain s).bytes.size
    · have hcall : (onFirst (Storage.read transferSize)).Meets (s, sink)
          (fun r p => p.2 = sink ∧ Good p.1 ∧ ∃ k, 0 < k ∧
            r = .bytes ((plain s).bytes.slice (plain s).cursor k) ∧
            plain p.1 = { plain s with
              cursor := (plain s).cursor + ((plain s).bytes.slice (plain s).cursor k).size })
          fun _ _ => False := by
        refine Meets.zoom (((h.read transferSize s hs).meets_read ho hcur).imp ?_ ?_)
        · rintro r t ⟨ht, k, -, hpos, hr, hp⟩
          exact ⟨rfl, ht, k, (hpos.resolve_left hf).resolve_left (by decide), hr, hp⟩
        · exact fun _ _ ht => hf ht.2.1
      apply hcall.bind
      rintro _ ⟨t, sink'⟩ ⟨hsink, ht, k, hk, rfl, hp⟩
      obtain rfl : sink = sink' := hsink.symm
      replace hp : plain t = (plain s).advance k := hp
      have hsize := Bytes.size_slice (plain s).bytes (plain s).cursor k
      have hjoin := (plain s).slice_append_rest k
      have hsum := congrArg ByteArray.size hjoin
      rw [ByteArray.size_append] at hsum
      generalize (plain s).bytes.slice (plain s).cursor k = data at *
      split
      case isTrue hz =>
        -- there are bytes left, so the read has not come back empty
        have hz : data.size = 0 := hz
        omega
      case isFalse hz =>
        apply (Collector.meets_put data t sink).bind
        rintro _ ⟨u, sink'⟩ ⟨hu, hheld⟩
        obtain rfl : t = u := hu.symm
        have hloop : (copyToLoop rounds (total + data.size)).Meets (t, sink') _ _ :=
          ih ht (by rw [hp]; exact ho) (by rw [hp]; omega)
        rw [hp, Memory.atEnd_advance] at hloop
        refine hloop.imp_ok ?_
        rintro n ⟨u, all⟩ ⟨hu, hn, hall, hend⟩
        refine ⟨hu, by omega, ?_, hend⟩
        rw [hall, hheld, ByteArray.append_assoc, hjoin]
    · have hle := Nat.le_of_not_lt hcur
      have hcall : (onFirst (Storage.read transferSize)).Meets (s, sink)
          (fun r p => p.2 = sink ∧ Good p.1 ∧ r = .eof ∧ plain p.1 = plain s) fun _ _ => False :=
        Meets.zoom (((h.read transferSize s hs).meets_read_eof ho hle).imp
          (fun _ _ ht => ⟨rfl, ht⟩) fun _ _ ht => hf ht.2.1)
      apply hcall.bind
      rintro _ ⟨t, all⟩ ⟨hall, ht, rfl, hp⟩
      rw [Memory.rest_of_le hle, Memory.atEnd_of_le hle]
      refine meets_pure ⟨ht, rfl, ?_, hp⟩
      rw [ByteArray.append_empty]
      exact congrArg held hall

theorem meets_copyTo (sink : κ) (hs : Good s) (ho : (plain s).closed = false) :
    copyTo.Meets (s, sink)
      (fun n p => Good p.1 ∧ n = (plain s).rest.size ∧ held p.2 = held sink ++ (plain s).rest ∧
        plain p.1 = (plain s).atEnd)
      fun _ _ => False := by
  -- no store has so many bytes that the rounds could run out
  have hbounded := (h.bounded s hs).resolve_left hf
  have hrounds : (plain s).rest.size < transferRounds := by
    rw [Memory.rest, Bytes.size_slice, transferRounds]
    omega
  apply (meets_copyToLoop h hf hs ho hrounds).bind
  rintro n ⟨t, sink'⟩ ⟨ht, hn, hheld, hp⟩
  apply (Collector.meets_flush t sink').bind
  rintro _ ⟨u, sink''⟩ ⟨hu, hflush⟩
  obtain rfl : u = t := hu
  refine meets_pure ⟨ht, ?_, ?_, hp⟩
  · rw [hn, Nat.zero_add]
  · exact hflush.trans hheld

theorem meets_copyTo_closed (sink : κ) (hs : Good s) (hc : (plain s).closed = true) :
    copyTo.Meets (s, sink) (fun _ _ => False)
      fun e p => Good p.1 ∧ e = .closed ∧ p.2 = sink ∧ plain p.1 = plain s := by
  have hcall : (onFirst (Storage.read transferSize)).Meets (s, sink) (fun _ _ => False)
      fun e p => Good p.1 ∧ e = .closed ∧ p.2 = sink ∧ plain p.1 = plain s := by
    refine Meets.zoom (((h.read transferSize s hs).meets_read_closed hc).imp_error ?_)
    rintro e t ⟨ht, ⟨he, hp⟩ | ⟨hocc, -⟩⟩
    · exact ⟨ht, he, rfl, hp⟩
    · exact absurd hocc hf
  have hloop : (copyToLoop transferRounds 0).Meets (s, sink) (fun _ _ => False)
      fun e p => Good p.1 ∧ e = .closed ∧ p.2 = sink ∧ plain p.1 = plain s :=
    hcall.bind fun _ _ hff => hff.elim
  exact hloop.bind fun _ _ hff => hff.elim

/-- However short its reads, a store gives a sink what its plain store gives it. -/
theorem meets_collect (sink : κ) (hs : Good s) :
    (collect sink).Meets s
      (fun yield t => Good t ∧ (yield, plain t) = (plain s).collected (held sink))
      fun _ _ => False := by
  rcases hrun : Storage.copyTo.run (s, sink) with ⟨e | n, t, sink'⟩
  · apply meets_of_ok (a := (.error e, held sink')) (t := t) (by simp only [collect, hrun])
    cases hc : (plain s).closed with
    | false => exact ((meets_copyTo h hf sink hs hc).of_run_error hrun).elim
    | true =>
      obtain ⟨ht, rfl, rfl, hp⟩ := (meets_copyTo_closed h hf sink hs hc).of_run_error hrun
      refine ⟨ht, ?_⟩
      rw [Memory.collected, hc, if_pos rfl, hp]
  · apply meets_of_ok (a := (.ok n, held sink')) (t := t) (by simp only [collect, hrun])
    cases hc : (plain s).closed with
    | false =>
      obtain ⟨ht, rfl, hheld, hp⟩ := (meets_copyTo h hf sink hs hc).of_run_ok hrun
      refine ⟨ht, ?_⟩
      dsimp only at hheld hp
      rw [Memory.collected, hc, if_neg Bool.false_ne_true, hheld, hp]
    | true => exact ((meets_copyTo_closed h hf sink hs hc).of_run_ok hrun).elim

omit h hf in
theorem Reading.mimics_collect (h : Reading .never Good) (hs : Good s) (sink : κ) :
    Mimics Good plain (collect sink) (collect sink) s := by
  have hbounded := (h.bounded s hs).resolve_left id
  exact Mimics.of_meets (meets_collect h id sink hs)
    ((meets_collect Memory.contract.toReading id sink hbounded).imp_ok fun _ _ ht => ht.2)

end CopyTo

theorem mimics_copyToLoop {σ τ κ : Type} [Storage σ] [Storage τ] [ByteSink κ] {Good : σ → Prop}
    {view : σ → τ} (h : ReadsLike Good view) {rounds total : Nat} {p : σ × κ} (hp : Beside Good p) :
    Mimics (Beside Good) (beside view) (copyToLoop rounds total) (copyToLoop rounds total) p := by
  induction rounds generalizing total p with
  | zero => exact mimics_pure hp total
  | succ rounds ih =>
    apply (Mimics.onFirst (h.read transferSize p.1 hp)).bind
    intro result q hq
    apply mimics_ite (fun _ => mimics_pure hq total)
    intro _
    exact (mimics_onSecond hq _).bind fun _ r hr => ih hr

section CopyFrom

variable {σ κ : Type} [Storage σ] [ByteSource κ]

def consume (source : κ) : StoreM σ (Except StoreError Nat × κ) :=
  .ofRun fun s =>
    let (total, s, source) := Storage.copyFrom.run (s, source)
    (.ok (total, source), s)

/-- A store that writes like another is given the same by a source, and keeps the same of it. -/
theorem mimics_copyFromLoop {τ : Type} [Storage τ] {Good : σ → Prop} {view : σ → τ}
    (h : ∀ data s, Good s → Mimics Good view (Storage.write data) (Storage.write data) s)
    {rounds total : Nat} {p : σ × κ} (hp : Beside Good p) :
    Mimics (Beside Good) (beside view) (copyFromLoop rounds total) (copyFromLoop rounds total) p := by
  induction rounds generalizing total p with
  | zero => exact mimics_pure hp total
  | succ rounds ih =>
    apply (mimics_onSecond hp _).bind
    intro data q hq
    apply mimics_ite (fun _ => mimics_pure hq total)
    intro _
    exact (Mimics.onFirst (h data q.1 hq)).bind fun _ r hr => ih hr

variable [Meaning σ] {Good : σ → Prop} (h : Contract .never Good) {s : σ}

include h

theorem Contract.mimics_consume (hs : Good s) (source : κ) :
    Mimics Good plain (consume source) (consume source) s := by
  have hloop : Mimics (Beside Good) (beside plain) copyFrom copyFrom (s, source) :=
    mimics_copyFromLoop (fun data s hs => (h.write data s hs).mimics) hs
  obtain ⟨ht, hm⟩ := hloop
  refine ⟨ht, ?_⟩
  have hm : copyFrom.run (plain s, source) = _ := hm
  simp only [consume, hm, beside]

end CopyFrom

namespace ThrottledSink

def Endless (s : ThrottledSink) : Prop :=
  s.room = none ∧ s.perCall ≠ some 0 ∧ s.failsFlush = false

variable {s : ThrottledSink}

theorem Endless.offer (hs : s.Endless) (data : Bytes) : (s.offer data).2.Endless := by
  unfold ThrottledSink.offer
  split
  · exact hs
  · dsimp only
    split
    · exact hs
    · exact hs

theorem offer_of_due (hd : s.due = true) (data : Bytes) :
    s.offer data = (.interrupted, { s with due := false }) := if_pos hd

theorem capped_pos {n : Nat} {bound : Option Nat} (hn : 0 < n) (hb : bound ≠ some 0) :
    0 < capped n bound ∧ capped n bound ≤ n := by
  unfold capped
  split
  case h_1 => exact ⟨hn, Nat.le_refl n⟩
  case h_2 b =>
    have hb : b ≠ 0 := fun h => hb (by rw [h])
    omega

theorem Endless.offer_took (hs : s.Endless) (ho : s.due = false) {data : Bytes} (hd : 0 < data.size) :
    s.offer data = (.took (capped data.size s.perCall),
      { s with
        due := s.interrupts, held := s.held ++ data.slice 0 (capped data.size s.perCall) }) := by
  obtain ⟨hroom, hcall, -⟩ := hs
  have hpos := (capped_pos hd hcall).1
  have hcount : capped (capped data.size s.perCall) (s.room.map (· - s.held.size)) =
      capped data.size s.perCall := by rw [hroom]; rfl
  rw [ThrottledSink.offer, ho, if_neg Bool.false_ne_true]
  simp only [hcount]
  rw [if_neg fun h => Nat.ne_of_gt hpos h.1]

end ThrottledSink

abbrev EndlessSink := { s : ThrottledSink // s.Endless }

namespace EndlessSink

instance : ByteSink EndlessSink where
  offer data s := ((s.1.offer data).1, ⟨(s.1.offer data).2, s.2.offer data⟩)
  flush s := ((ByteSink.flush s.1).1, ⟨{ s.1 with flushes := s.1.flushes + 1 }, s.2⟩)
  patience s := ByteSink.patience s.1
  patience_lt data s h := ByteSink.patience_lt data s.1 h

instance : Collector EndlessSink where
  held s := s.1.held
  offer_held data s hd := by
    cases ho : s.1.due with
    | true => exact Or.inl (by simp [ByteSink.offer, ThrottledSink.offer_of_due ho])
    | false =>
      have hbounds := ThrottledSink.capped_pos hd s.2.2.1
      refine Or.inr ⟨_, hbounds.1, hbounds.2, ?_⟩
      simp [ByteSink.offer, s.2.offer_took ho hd]
  flush_held s := by
    refine ⟨?_, rfl⟩
    simp [ByteSink.flush, s.2.2.2]

end EndlessSink

end ByteTower
