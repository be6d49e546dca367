import ByteTower.Proofs.Feeding
import ByteTower.Proofs.History
import ByteTower.Proofs.Operation
import ByteTower.Proofs.Watching

namespace ByteTower

open StoreM

section Account

variable {σ : Type} [Storage σ]

/-- The calls by which a store has come from `s` to another one, in order: each was made on what the one
before it left. -/
inductive Account (s : σ) : List (Noted σ) → σ → Prop
  | start : Account s [] s
  | call {calls : List (Noted σ)} {t : σ} (before : Account s calls t) (r : Request) :
    Account s (calls ++ [⟨t, r, (r.run.run t).1, (r.run.run t).2⟩]) (r.run.run t).2

theorem Account.run_eq {s t : σ} {calls : List (Noted σ)} (h : Account s calls t) {n : Noted σ}
    (hn : n ∈ calls) : n.request.run.run n.before = (n.answer, n.after) := by
  induction h with
  | start => cases hn
  | call _ r ih =>
    obtain hn | hn := List.mem_append.1 hn
    · exact ih hn
    · obtain rfl := List.mem_singleton.1 hn
      rfl

namespace Watched

theorem imitates {P : Watched σ → Prop} (h : Kept P) : Imitates P (store : Watched σ → σ) where
  length s hs := ⟨h.length s hs, rfl⟩
  cursor s hs := ⟨h.cursor s hs, rfl⟩
  seek pos s hs := ⟨h.seek pos s hs, rfl⟩
  read n s hs := ⟨h.read n s hs, rfl⟩
  resize n s hs := ⟨h.resize n s hs, rfl⟩
  write data s hs := ⟨h.write data s hs, rfl⟩
  flush s hs := ⟨h.flush s hs, rfl⟩

variable {κ ρ : Type} [ByteSink κ] [ByteSource ρ]

theorem mimics_operation {P : Watched σ → Prop} (h : Kept P) (operation : Operation κ ρ)
    (w : Watched σ) (hw : P w) : Mimics P store operation.run operation.run w := by
  cases operation with
  | close =>
    have hclose : Mimics P store Storage.close Storage.close w := ⟨h.close w hw, rfl⟩
    exact hclose.bind fun _ _ ht => mimics_pure ht _
  | _ => exact Operation.mimics_run (imitates h) (fun _ _ => rfl) hw nofun

theorem kept_account (s : σ) : Kept fun w : Watched σ => Account s w.calls w.store :=
  kept_of_step (P := fun t calls => Account s calls t) fun r _ _ h => h.call r

theorem account (s : σ) (operations : List (Operation κ ρ)) :
    let w := leave (operations.map Operation.run) ({ store := s } : Watched σ)
    Account s w.calls w.store := by
  refine leave_of_step (p := fun w : Watched σ => Account s w.calls w.store) ?_ .start
  intro act hact w hw
  obtain ⟨operation, -, rfl⟩ := List.mem_map.1 hact
  exact (mimics_operation (kept_account s) operation w hw).1

end Watched

end Account

namespace Noted

variable {σ : Type} [Meaning σ]

/-- The change that a call has made, if it has succeeded and makes one. -/
def change? (n : Noted σ) : Option Mutation :=
  match n.answer with
  | .ok _ => n.request.mutation? (plain n.before).cursor
  | .error _ => none

structure Orderly (n : Noted Memory) : Prop where
  /-- A call that fails changes nothing. -/
  failed : ∀ e, n.answer = .error e → n.after = n.before
  /-- Only a change of length and a write of something change bytes. -/
  still : (∀ k, n.request ≠ .resize k) → (∀ data, n.request = .write data → data.size = 0) →
    n.after.bytes = n.before.bytes
  /-- The cursor stays where it is unless the length that is set lies before it. -/
  clamped : ∀ k response, n.request = .resize k → n.answer = .ok response →
    n.after.cursor = min n.before.cursor k

end Noted

/-- The changes that the calls on a store have made, in order. -/
def Watched.changes {σ : Type} [Meaning σ] (w : Watched σ) : List Mutation :=
  w.calls.filterMap Noted.change?

namespace Request

theorem models_run (f : Failures) (r : Request) : r.models f r.run := by
  cases r with
  | read n => exact ⟨n, Nat.le_refl n, Or.inr (Nat.eq_zero_or_pos n), rfl⟩
  | length | resize | cursor | seek | write | flush | close => rfl

theorem meets_unchanged (r : Request) (m : Memory) :
    r.run.Meets m (fun _ _ => True) fun _ t => t = m := by
  cases hc : m.closed with
  | true =>
    refine meets_iff.2 ⟨fun _ _ _ => trivial, fun e t hrun => ?_⟩
    have hstate := (Memory.shut hc).state r
    rwa [hrun] at hstate
  | false =>
    cases r with
    | length => exact Meets.map (meets_of_ok (Memory.run_length hc) trivial)
    | resize n => exact Meets.map ((Memory.effect_resize m n).imp_ok fun _ _ _ => trivial)
    | cursor => exact Meets.map (meets_of_ok (Memory.run_cursor hc) trivial)
    | seek pos => exact Meets.map ((Memory.effect_seek m pos).imp_ok fun _ _ _ => trivial)
    | read n =>
      apply Meets.map
      by_cases hle : m.bytes.size ≤ m.cursor
      · exact meets_of_ok (Memory.run_read_eof hc n hle) trivial
      · exact meets_of_ok (Memory.run_read hc n (Nat.lt_of_not_le hle)) trivial
    | write data => exact Meets.map ((Memory.effect_write m data).imp_ok fun _ _ _ => trivial)
    | flush => exact Meets.map (meets_of_ok (Memory.run_flush hc) trivial)
    | close => exact Meets.map (meets_of_ok Memory.run_close trivial)

theorem bytes_run_of_still {r : Request} (hresize : ∀ k, r ≠ .resize k)
    (hwrite : ∀ data, r = .write data → data.size = 0) (m : Memory) :
    (r.run.run m).2.bytes = m.bytes := by
  have heffect : r.effect m.cursor m.bytes = m.bytes := by
    cases r with
    | resize n => exact absurd rfl (hresize n)
    | write data => exact Bytes.put_of_size_eq_zero (hwrite data rfl) _ _
    | length | cursor | seek | read | flush | close => rfl
  exact (r.meets_effect (r.models_run .never) m).state (fun _ _ ht => ht.trans heffect) fun _ _ ht => ht

end Request

theorem Memory.clamps_resize (m : Memory) (n : Nat) :
    (Request.resize n).run.Meets m (fun _ t => t.cursor = min m.cursor n) fun _ _ => True := by
  apply Meets.map
  cases hc : m.closed with
  | true => exact meets_of_error (run_resize_closed hc n) trivial
  | false =>
    by_cases hn : n ≤ maxPosition
    · exact meets_of_ok (run_resize hc hn) rfl
    · exact meets_of_error (run_resize_refused hc (Nat.lt_of_not_le hn)) trivial

theorem Memory.cause_of_run_write {m t : Memory} {data : Bytes} {e : StoreError}
    (h : (Storage.write data).run m = (.error e, t)) :
    e = .closed ∨
      maxPosition < m.cursor + data.size ∧ e = .argument (.transferTooLong data.size m.cursor) := by
  cases hc : m.closed with
  | true =>
    rw [run_write_closed hc] at h
    exact Or.inl (Except.error.inj (Prod.mk.inj h).1).symm
  | false =>
    by_cases hfit : data.size = 0 ∨ m.cursor + data.size ≤ maxPosition
    · rw [run_write_eq_ok.2 ⟨hc, hfit, rfl⟩] at h
      cases (Prod.mk.inj h).1
    · obtain ⟨hd, hlt⟩ := not_or.1 hfit
      have hlt := Nat.lt_of_not_le hlt
      rw [run_write_refused hc (Nat.pos_of_ne_zero hd) hlt] at h
      exact Or.inr ⟨hlt, (Except.error.inj (Prod.mk.inj h).1).symm⟩

namespace Account

variable {m t : Memory} {calls : List (Noted Memory)}

/-- What a store in memory has come to is what the changes of its calls make of its bytes, one after the
other. -/
theorem bytes_eq (h : Account m calls t) :
    t.bytes = replay m.bytes (calls.filterMap Noted.change?) := by
  induction h with
  | start => rfl
  | @call calls t _ r ih =>
    have heffect := r.meets_effect (r.models_run .never) t
    rw [List.filterMap_append]
    rcases hrun : r.run.run t with ⟨e | response, u⟩
    · -- a call that fails makes no change
      have hnone : Noted.change? ⟨t, r, .error e, u⟩ = none := rfl
      rw [List.filterMap_cons_none hnone, List.filterMap_nil, List.append_nil, ← ih]
      exact heffect.of_run_error hrun
    · have hmade : [(⟨t, r, .ok response, u⟩ : Noted Memory)].filterMap Noted.change? = made t r := by
        rw [made, hrun, List.filterMap_cons, List.filterMap_nil, Noted.change?]
        cases r.mutation? (plain t).cursor with
        | none => rfl
        | some c => rfl
      rw [hmade, replay_append_made hrun ih]
      exact heffect.of_run_ok hrun

theorem orderly (h : Account m calls t) {n : Noted Memory} (hn : n ∈ calls) : n.Orderly := by
  have hrun := h.run_eq hn
  refine ⟨fun e he => ?_, fun hresize hwrite => ?_, fun k response hr hok => ?_⟩
  · rw [he] at hrun
    exact (n.request.meets_unchanged n.before).of_run_error hrun
  · have hbytes := Request.bytes_run_of_still hresize hwrite n.before
    rwa [hrun] at hbytes
  · rw [hok, hr] at hrun
    exact (Memory.clamps_resize n.before k).of_run_ok (a := response) hrun

end Account

section Made

variable {κ ρ : Type} [ByteSource ρ]

/-- How a copy from a source goes, round by round, with the cursor at `pos` and `total` bytes copied
before: the changes that it makes, how it ends, and what is left of the source. -/
inductive Copied : ρ → (pos total : Nat) → List Mutation → Except StoreError Nat → ρ → Prop
  | ended {source last : ρ} {pos total : Nat} {data : Bytes}
      (gave : ByteSource.pull Storage.transferSize source = (.ok data, last)) (empty : data.size = 0) :
      Copied source pos total [] (.ok total) last
  | failed {source last : ρ} {pos total : Nat} {cause : IoError}
      (gave : ByteSource.pull Storage.transferSize source = (.error cause, last)) :
      Copied source pos total [] (.error (.io cause)) last
  | refused {source last : ρ} {pos total : Nat} {piece : Bytes} {e : StoreError}
      (gave : ByteSource.pull Storage.transferSize source = (.ok piece, last))
      (nonempty : piece.size ≠ 0)
      (cause : e = .closed ∨
        maxPosition < pos + piece.size ∧ e = .argument (.transferTooLong piece.size pos)) :
      Copied source pos total [] (.error e) last
  | written {source between last : ρ} {pos total : Nat} {piece : Bytes} {made : List Mutation}
      {outcome : Except StoreError Nat}
      (gave : ByteSource.pull Storage.transferSize source = (.ok piece, between))
      (nonempty : piece.size ≠ 0)
      (rest : Copied between (pos + piece.size) (total + piece.size) made outcome last) :
      Copied source pos total (.write pos piece :: made) outcome last

/-- The changes that an operation makes with the cursor at `pos` if it yields this. -/
def Operation.Makes (pos : Nat) (made : List Mutation) : Operation κ ρ → Yield κ ρ → Prop
  | resize n, _ => made = [.resize n]
  | write data, _ => made = [.write pos data]
  | writeAt start data, _ => made = [.write start data]
  | writeWithin buffer start count, _ => made = [.write pos (buffer.slice start count)]
  | copyFrom source, yield =>
    ∃ outcome last, yield = .consumed outcome last ∧ Copied source pos 0 made outcome last
  | _, _ => made = []

theorem Operation.Reads.makes_iff {operation : Operation κ ρ} (h : operation.Reads) {pos : Nat}
    {made : List Mutation} {yield : Yield κ ρ} : operation.Makes pos made yield ↔ made = [] := by
  cases operation with
  | resize | write | writeAt | writeWithin | copyFrom => exact h.elim
  | _ => exact Iff.rfl

namespace Watched

section Changes

variable {σ α : Type} [Meaning σ] {w : Watched σ} {r : Request}

theorem changes_concat (store : σ) (n : Noted σ) :
    changes ⟨store, w.calls ++ [n]⟩ = w.changes ++ n.change?.toList := filterMap_concat _ _ n

theorem ends_changes (hr : ∀ pos, r.mutation? pos = none) (respond : α → Response)
    (act : StoreM σ α) : (call r respond act).Ends (fun t => t.changes = w.changes) w := by
  refine ends_filterMap (fun before answer after => ?_) respond act
  cases answer with
  | ok => exact hr _
  | error => rfl

theorem meets_changes {c : Mutation} (hr : r.mutation? (plain w).cursor = some c)
    (respond : α → Response) (act : StoreM σ α) :
    (call r respond act).Meets w (fun _ t => t.changes = w.changes ++ [c])
      fun _ t => t.changes = w.changes := by
  refine meets_call (meets_true.imp (fun a t _ => ?_) fun e t _ => ?_)
  · have hchange : Noted.change? ⟨w.store, r, .ok (respond a), t⟩ = some c := hr
    rw [changes_concat, hchange]
    rfl
  · rw [changes_concat]
    exact List.append_nil _

end Changes

theorem readsLike_changes (changes : List Mutation) :
    ReadsLike (fun w : Watched Memory => w.changes = changes) store where
  length _ hw := ⟨(ends_iff.1 (ends_changes (fun _ => rfl) _ _)).trans hw, rfl⟩
  cursor _ hw := ⟨(ends_iff.1 (ends_changes (fun _ => rfl) _ _)).trans hw, rfl⟩
  seek _ _ hw := ⟨(ends_iff.1 (ends_changes (fun _ => rfl) _ _)).trans hw, rfl⟩
  read _ _ hw := ⟨(ends_iff.1 (ends_changes (fun _ => rfl) _ _)).trans hw, rfl⟩

theorem meets_seek_changes (w : Watched Memory) (pos : Nat) :
    (Storage.seek pos).Meets w (fun _ t => t.store.cursor = pos ∧ t.changes = w.changes)
      fun _ t => t.changes = w.changes := by
  have hcursor : (Storage.seek pos).Meets w (fun _ t => t.store.cursor = pos) fun _ _ => True :=
    meets_call ((Memory.effect_seek w.store pos).imp (fun _ _ ht => congrArg Memory.cursor ht)
      fun _ _ _ => trivial)
  have hchanges : (Storage.seek pos).Ends (fun t => t.changes = w.changes) w :=
    ends_changes (fun _ => rfl) _ _
  exact (hcursor.and hchanges).imp_error fun _ _ ht => ht.2

theorem of_run_write {w t : Watched Memory} {data : Bytes} {answer : Except StoreError Unit}
    (h : (Storage.write data).run w = (answer, t)) :
    (Storage.write data).run w.store = (answer, t.store) := by
  have hstore : (Storage.write data).run w.store =
      (((Storage.write data).run w).1, ((Storage.write data).run w).2.store) := rfl
  rwa [h] at hstore

theorem meets_write_changes (w : Watched Memory) (data : Bytes) :
    (Storage.write data).Meets w (fun _ t => t.changes = w.changes ++ [.write w.store.cursor data])
      fun _ t => t.changes = w.changes := meets_changes rfl _ _

/-- A copy writes the pieces of the source one behind the other. -/
theorem exists_copied {rounds : Nat} {w : Watched Memory}
    (hrounds : maxPosition - w.store.cursor < rounds) (source : ρ) (total : Nat) :
    ∃ made outcome last t, Copied source w.store.cursor total made outcome last ∧
      (Storage.copyFromLoop rounds total).run (w, source) = (outcome, t, last) ∧
      t.changes = w.changes ++ made := by
  -- every piece moves the cursor on, and none is written beyond the last position
  induction rounds generalizing w source total with
  | zero => exact absurd hrounds (Nat.not_lt_zero _)
  | succ rounds ih =>
    have hnone := (List.append_nil w.changes).symm
    rcases hpull : ByteSource.pull Storage.transferSize source with ⟨cause | data, between⟩
    · exact ⟨[], _, _, w, .failed hpull, copyFromLoop_of_failed hpull, hnone⟩
    by_cases hz : data.size = 0
    · exact ⟨[], _, _, w, .ended hpull hz, copyFromLoop_of_ended hpull hz, hnone⟩
    have hchanges := meets_write_changes w data
    rcases hwrite : (Storage.write data).run w with ⟨e | ⟨⟩, t⟩
    · have hstore : (Storage.write data).run w.store = (.error e, t.store) := of_run_write hwrite
      refine ⟨[], _, _, t, .refused hpull hz (Memory.cause_of_run_write hstore), ?_, ?_⟩
      · exact copyFromLoop_of_error hpull hz hwrite
      · rw [hchanges.of_run_error hwrite, List.append_nil]
    · obtain ⟨-, hfit, hmemory⟩ := Memory.run_write_eq_ok.1 (of_run_write hwrite)
      have hcursor : t.store.cursor = w.store.cursor + data.size := congrArg Memory.cursor hmemory
      obtain ⟨made, outcome, last, u, hcopied, hrun, hmade⟩ :=
        ih (w := t) (by omega) between (total + data.size)
      rw [hcursor] at hcopied
      refine ⟨_, outcome, last, u, .written hpull hz hcopied, ?_, ?_⟩
      · rw [copyFromLoop_of_written hpull hz hwrite, hrun]
      · rw [hmade, hchanges.of_run_ok hwrite, List.append_assoc, List.singleton_append]

end Watched

namespace Operation

variable [ByteSink κ]

theorem ends_of_reads {operation : Operation κ ρ} (hreads : operation.Reads) (w : Watched Memory) :
    operation.run.Ends (fun t => t.changes = w.changes) w := by
  have hflush : ∀ t : Watched Memory, t.changes = w.changes →
      Mimics (fun t => t.changes = w.changes) Watched.store Storage.flush Storage.flush t :=
    fun _ ht => ⟨(ends_iff.1 (Watched.ends_changes (fun _ => rfl) _ _)).trans ht, rfl⟩
  cases operation with
  | close =>
    have hclose : Storage.close.Ends (fun t : Watched Memory => t.changes = w.changes) w :=
      Watched.ends_changes (fun _ => rfl) _ _
    exact hclose.bind fun _ _ ht => meets_pure ht
  | _ =>
    exact ends_iff.2 (mimics_of_reads (Watched.readsLike_changes w.changes) hflush
      (fun _ _ => rfl) rfl hreads nofun).1

/-- An operation that succeeds makes its changes, and one that fails makes none. -/
theorem meets_made (operation : Operation κ ρ) (w : Watched Memory) :
    operation.run.Meets w
      (fun yield t => ∃ made, t.changes = w.changes ++ made ∧
        operation.Makes w.store.cursor made yield)
      fun _ t => t.changes = w.changes := by
  by_cases hreads : operation.Reads
  · exact (ends_of_reads hreads w).imp_ok fun _ _ ht =>
      ⟨[], ht.trans (List.append_nil _).symm, hreads.makes_iff.2 rfl⟩
  · cases operation with
    | resize n =>
      exact (Watched.meets_changes (r := .resize n) rfl (fun _ => .nothing) (Storage.resize n)).bind
        fun _ _ ht => meets_pure ⟨_, ht, rfl⟩
    | write data =>
      exact (Watched.meets_write_changes w data).bind fun _ _ ht => meets_pure ⟨_, ht, rfl⟩
    | writeAt pos data =>
      have hat : (Storage.writeAt pos data).Meets w
          (fun _ t => t.changes = w.changes ++ [.write pos data]) fun _ t => t.changes = w.changes := by
        apply (Watched.meets_seek_changes w pos).bind
        intro _ t ⟨hcursor, ht⟩
        rw [← hcursor, ← ht]
        exact Watched.meets_write_changes t data
      exact hat.bind fun _ _ ht => meets_pure ⟨_, ht, rfl⟩
    | writeWithin buffer start count =>
      have hwithin : (Storage.writeWithin buffer start count).Meets w
          (fun _ t => t.changes = w.changes ++ [.write w.store.cursor (buffer.slice start count)])
          fun _ t => t.changes = w.changes := by
        apply ((ends_checkSlice (p := (· = w)) rfl buffer.size start count).imp_error
          fun _ _ ht => congrArg Watched.changes ht).bind
        rintro _ _ rfl
        exact Watched.meets_write_changes _ _
      exact hwithin.bind fun _ _ ht => meets_pure ⟨_, ht, rfl⟩
    | copyFrom source =>
      have hrounds : maxPosition - w.store.cursor < Storage.transferRounds :=
        Nat.lt_succ_of_le (Nat.sub_le _ _)
      obtain ⟨made, outcome, last, t, hcopied, hrun, ht⟩ := Watched.exists_copied hrounds source 0
      have hcopy : (Storage.copyFrom.carrying source).run w = (.ok (outcome, last), t) := by
        simp only [StoreM.carrying, Storage.copyFrom, hrun]
      apply meets_of_ok (run_bind_ok hcopy _)
      exact ⟨made, ht, outcome, last, rfl, hcopied⟩
    | _ => exact absurd trivial hreads

end Operation

/-- An operation that reads changes no byte, and neither does one that fails. -/
theorem Account.meets_still [ByteSink κ] {m : Memory} {w : Watched Memory}
    (h : Account m w.calls w.store) (operation : Operation κ ρ) :
    operation.run.Meets w.store (fun _ t => operation.Reads → t.bytes = w.store.bytes)
      fun _ t => t.bytes = w.store.bytes := by
  -- where no change is added, the account gives the same bytes
  have hsame : ∀ t : Watched Memory, Account m t.calls t.store → t.changes = w.changes →
      t.store.bytes = w.store.bytes := by
    intro t ht hchanges
    rw [ht.bytes_eq, h.bytes_eq]
    exact congrArg (replay m.bytes) hchanges
  have hmade := operation.meets_made w
  obtain ⟨ht, hstore⟩ := Watched.mimics_operation (Watched.kept_account m) operation w h
  rcases hrun : operation.run.run w with ⟨e | yield, t⟩
  · rw [hrun] at ht hstore
    exact meets_of_error hstore (hsame t ht (hmade.of_run_error hrun))
  · rw [hrun] at ht hstore
    refine meets_of_ok hstore fun hreads => hsame t ht ?_
    obtain ⟨made, hchanges, hmakes⟩ := hmade.of_run_ok hrun
    rw [hchanges, hreads.makes_iff.1 hmakes, List.append_nil]

end Made

/-- After any run each place has what was written there last since it was last cut off, and where there
is no such write what it had at first, or zero if that was cut off or there was nothing. How much there
is depends on the length that was set last and on the writes since. A call that fails changes nothing,
and the calls that are noted are all that the run is made of. Each operation makes just the changes that
it is asked for. -/
theorem bytes_of_last_writer {κ ρ : Type} [ByteSink κ] [ByteSource ρ] (m : Memory)
    (operations : List (Operation κ ρ)) :
    let left := leave (operations.map Operation.run) m
    let watched := leave (operations.map Operation.run) ({ store := m } : Watched Memory)
    let changes := watched.changes
    (answers (operations.map Operation.run) ({ store := m } : Watched Memory) =
        answers (operations.map Operation.run) m ∧
      Account m watched.calls left ∧ ∀ n ∈ watched.calls, n.Orderly) ∧
    (left.closed = false → (Storage.length.run left).1 = .ok left.bytes.size) ∧
    (∀ i, i < left.bytes.size ↔
      i < Mutation.lengthSet m.bytes changes ∨
        ∃ c ∈ Mutation.sinceSet changes, c.reaches i = true) ∧
    (∀ i < left.bytes.size, left.bytes.byte? i = some (Mutation.lastWritten m.bytes changes i)) ∧
    (∀ before n after, changes = before ++ .resize n :: after →
      ∀ i < left.bytes.size, n ≤ i → (∀ c ∈ after, c.byte? i = none) →
        left.bytes.byte? i = some 0) ∧
    (∀ operation : Operation κ ρ, operation.run.Meets left
      (fun _ t => operation.Reads → t.bytes = left.bytes) fun _ t => t.bytes = left.bytes) ∧
    ∀ operation : Operation κ ρ, operation.run.Meets watched
      (fun yield t => ∃ made, t.changes = changes ++ made ∧ operation.Makes left.cursor made yield)
      fun _ t => t.changes = changes := by
  intro left watched changes
  have hmimics := Watched.mimics_operation (κ := κ) (ρ := ρ) (Watched.kept_account m)
  obtain ⟨hanswers, hleave⟩ := answers_of_mimics hmimics operations (s := { store := m }) .start
  have hleft : left = watched.store := hleave
  have haccount : Account m watched.calls left := by
    rw [hleft]
    exact Watched.account m operations
  have hbytes : left.bytes = replay m.bytes changes := haccount.bytes_eq
  -- before the end there is a byte, so it is none of the zeros that are taken to lie beyond
  have hbyte : ∀ i < left.bytes.size,
      left.bytes.byte? i = some (Mutation.lastWritten m.bytes changes i) := by
    intro i hi
    obtain ⟨v, hv⟩ := Bytes.exists_byte hi
    have hlast := Mutation.getD_byte?_replay m.bytes changes i
    rw [← hbytes, hv, Option.getD_some] at hlast
    rw [hv, hlast]
  refine ⟨⟨hanswers, haccount, fun n hn => haccount.orderly hn⟩, ?_, ?_, hbyte, ?_, ?_, ?_⟩
  · intro ho
    rw [Memory.run_length ho]
  · intro i
    rw [hbytes]
    exact Mutation.lt_size_replay m.bytes changes i
  · intro before n after hchanges i hi hn hafter
    rw [hbyte i hi, hchanges, Mutation.lastWritten_of_cut hn before after hafter]
  · rw [hleft]
    exact (Watched.account m operations).meets_still
  · rw [hleft]
    exact fun operation => operation.meets_made watched

/-- Six bytes are cut and grown again, a write leaves a gap behind them, another one writes nothing, a
length that is too large is refused, and a last write starts before the place of the cut. -/
def regrowth : List (Operation ThrottledSink ThrottledSource) :=
  [.resize 3, .resize 7, .writeAt 9 (.ofOctets [8]), .write ByteArray.empty, .resize (maxPosition + 1),
    .writeAt 2 (.ofOctets [5, 5])]

/-- None of the bytes that were cut off is seen again. -/
theorem bytes_of_last_writer_of_regrowth :
    let m := Memory.ofBytes (.ofOctets [1, 2, 3, 4, 5, 6])
    let left := leave (regrowth.map Operation.run) m
    let changes := (leave (regrowth.map Operation.run) ({ store := m } : Watched Memory)).changes
    Bytes.octets left.bytes = [1, 2, 5, 5, 0, 0, 0, 0, 0, 8] ∧ changes.length = 5 ∧
      (∀ i < left.bytes.size, left.bytes.byte? i = some (Mutation.lastWritten m.bytes changes i)) ∧
      (List.range 10).map (Mutation.lastWritten m.bytes changes) = [1, 2, 5, 5, 0, 0, 0, 0, 0, 8] := by
  have hlast := bytes_of_last_writer (Memory.ofBytes (.ofOctets [1, 2, 3, 4, 5, 6])) regrowth
  refine ⟨?_, ?_, hlast.2.2.2.1, ?_⟩
  · decide +kernel
  · decide +kernel
  · decide +kernel

end ByteTower
