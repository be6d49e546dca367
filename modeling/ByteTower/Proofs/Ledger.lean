import ByteTower.Proofs.Coherence

namespace ByteTower

open StoreM

theorem Request.given_of_models {f : Failures} {n : Nat} {model : StoreM Memory Response}
    (hmodel : (Request.read n).models f model) {m m' : Memory} {response : Response}
    (hrun : model.run m = (.ok response, m')) :
    m.bytes.size ≤ m.cursor ∧ response = .given .eof ∨
      ∃ data, response = .given (.bytes data) ∧ m.cursor < m.bytes.size ∧ data.size ≤ n ∧
        data = m.bytes.slice m.cursor data.size := by
  obtain ⟨k, hk, -, rfl⟩ := hmodel
  cases hc : m.closed with
  | false =>
    by_cases hle : m.bytes.size ≤ m.cursor
    · rw [Request.run, run_map, Memory.run_read_eof hc k hle] at hrun
      exact Or.inl ⟨hle, (Except.ok.inj (Prod.mk.inj hrun).1).symm⟩
    · have hlt := Nat.lt_of_not_le hle
      rw [Request.run, run_map, Memory.run_read hc k hlt] at hrun
      refine Or.inr ⟨_, (Except.ok.inj (Prod.mk.inj hrun).1).symm, hlt, ?_, ?_⟩
      · rw [Bytes.size_slice]
        exact Nat.le_trans (Nat.min_le_left _ _) hk
      · exact (Bytes.slice_size _ _ _).symm
  | true =>
    rw [Request.run, run_map, Memory.run_read_closed hc k] at hrun
    cases (Prod.mk.inj hrun).1

namespace CacheCall

def effect (call : CacheCall) (pos : Nat) (b : Bytes) : Bytes :=
  match call with
  | ask request => request.effect pos b
  | insist _ => b
  | invalidate => b

/-- Whether what a call gave at the cursor is what `b` has there. -/
def Gave (pos : Nat) (b : Bytes) : CacheCall → Response → Prop
  | ask (.read _), .given .eof => b.size ≤ pos
  | ask (.read n), .given (.bytes data) =>
    pos < b.size ∧ data.size ≤ n ∧ data = b.slice pos data.size
  | ask (.read _), _ => False
  | insist n, .given (.bytes data) => data.size = n ∧ data = b.slice pos n
  | insist _, _ => False
  | _, _ => True

/-- One entry of the ledger: an accepted call has its effect, and gives bytes of the ledger if it
reads. A call that fails has none, but for a part of a write longer than `size`. -/
def Booked (size : Nat) (call : CacheCall) (pos : Nat) (answer : Except StoreError Response)
    (b b' : Bytes) : Prop :=
  match answer with
  | .ok response => b' = call.effect pos b ∧ call.Gave pos b response
  | .error _ => b' = b ∨ ∃ data k, call = .ask (.write data) ∧ size < data.size ∧
      b' = b.put pos (data.slice 0 k)

section Booked

variable {σ : Type} [Storage σ] [Meaning σ] {f : Failures} {Good : Nat → σ → Prop}
variable {i size window : Nat} {c : ReadAhead σ}
variable (h : Tracks f (fun _ _ => True) Good) (hc : ReadAhead.Sound (Good i) window c)

include h hc

theorem booked_ask (hsize : ∀ n, f.tear n → size < n) (request : Request) :
    Booked size (ask request) c.cursor ((ask request).run.run c).1 (plain c).bytes
      (plain ((ask request).run.run c).2).bytes := by
  have hr := request.follows (ReadAhead.tracks h window) (Nat.le_refl i) hc
  change Booked size (ask request) c.cursor (request.run.run c).1 (plain c).bytes
    (plain (request.run.run c).2).bytes
  rcases hrun : request.run.run c with ⟨e | response, t⟩
  · obtain ⟨-, ⟨model, hmodel, hm⟩ | ⟨-, hloss⟩⟩ := Meets.of_run_error hr hrun
    · exact Or.inl ((Request.meets_effect hmodel _).of_run_error hm)
    · -- of all that fails, only a write too long to be held back may have left something
      rcases Request.bytes_of_loss hloss with hb | ⟨data, rfl, k, hk, hb, -⟩
      · exact Or.inl hb
      · rcases hk with htear | rfl
        · exact Or.inr ⟨data, k, rfl, hsize _ htear, hb⟩
        · exact Or.inl (hb.trans (Bytes.put_slice_zero _ _ _))
  · obtain ⟨-, model, hmodel, hm⟩ := Meets.of_run_ok hr hrun
    refine ⟨(Request.meets_effect hmodel _).of_run_ok hm, ?_⟩
    cases request with
    | read n =>
      rcases Request.given_of_models hmodel hm with ⟨hle, rfl⟩ | ⟨data, rfl, hdata⟩
      · exact hle
      · exact hdata
    | length | resize | cursor | seek | write | flush | close => trivial

theorem booked_insist (n : Nat) :
    Booked size (insist n) c.cursor ((insist n).run.run c).1 (plain c).bytes
      (plain ((insist n).run.run c).2).bytes := by
  have hr := ((ReadAhead.tracks h window).reading i).readExactly hc n
  rw [run, run_map]
  rcases hrun : (Storage.readExactly n).run c with ⟨e | data, t⟩
  · obtain ⟨-, ⟨_, rfl, hm⟩ | ⟨-, hb, -⟩⟩ := Meets.of_run_error hr hrun
    · exact Or.inl ((Memory.effect_readExactly _ n).of_run_error hm)
    · exact Or.inl hb
  · obtain ⟨-, _, rfl, hm⟩ := Meets.of_run_ok hr hrun
    exact (Memory.effect_readExactly _ n).of_run_ok hm

/-- One call on a sound layer makes an entry of the ledger. -/
theorem booked_run (hsize : ∀ n, f.tear n → size < n) (call : CacheCall) :
    Booked size call c.cursor (call.run.run c).1 (plain c).bytes
      (plain (call.run.run c).2).bytes := by
  cases call with
  | ask request => exact booked_ask h hc hsize request
  | insist n => exact booked_insist h hc n
  | invalidate => exact ⟨rfl, trivial⟩

end Booked

end CacheCall

/-- What read-ahead over write-behind shows: the bytes of the medium with the pending ones over
them. -/
def shown {σ : Type} [Meaning σ] (c : ReadAhead (WriteBehind σ)) : Bytes :=
  Extent.seen c.inner.pending (plain c.inner.inner).bytes

section Shown

variable {σ : Type} [Storage σ] [Meaning σ] {f : Failures} {v : Nat → Bytes → Prop}
variable {Good : Nat → σ → Prop} {i size window : Nat} {c : ReadAhead (WriteBehind σ)}

theorem shown_of_flush_ok (h : Tracks f v Good)
    (hc : ReadAhead.Sound (WriteBehind.Behind v Good size i) window c) {response : Response}
    {c' : ReadAhead (WriteBehind σ)} (hrun : Request.flush.run.run c = (.ok response, c')) :
    (plain c'.inner.inner).bytes = shown c' := by
  have hcall : (Request.flush.run (σ := ReadAhead (WriteBehind σ))).Meets c
      (fun _ c' => c'.inner.pending = none) fun _ _ => True := by
    apply Meets.map
    cases ho : c.closed with
    | false =>
      have hflush := WriteBehind.meets_flush h hc.inner (hc.closed.trans ho)
      exact (ReadAhead.meets_flush hc ho hflush).imp (fun _ _ ht => ht.1.inner.2)
        fun _ _ _ => trivial
    | true => exact meets_of_error (run_refused ho _) trivial
  rw [shown, hcall.of_run_ok hrun, Extent.seen]

end Shown

/-- Whatever fails below, there is a ledger that starts with the bytes of the medium, makes an entry
for every call, and is what the layers show after every call. A flush that succeeds brings the medium
up to it. -/
theorem shown_eq_ledger {σ : Type} [Storage σ] [Meaning σ] {Good : σ → Prop}
    (h : Contract .torn Good) {s : σ} (hs : Good s) {size window : Nat} {b : WriteBehind σ}
    (hb : WriteBehind.wrap size s = .ok b) {c : ReadAhead (WriteBehind σ)}
    (hc : ReadAhead.wrap window b = .ok c) (calls : List CacheCall) :
    let state n := leave ((calls.take n).map CacheCall.run) c
    ∃ ledger : Nat → Bytes, ledger 0 = (plain s).bytes ∧ (∀ n, shown (state n) = ledger n) ∧
      ∀ n call, calls[n]? = some call →
        call.Booked size (state n).cursor (call.run.run (state n)).1 (ledger n) (ledger (n + 1)) ∧
        (call = .ask .flush → (∃ response, (call.run.run (state n)).1 = .ok response) →
          (plain (state (n + 1)).inner.inner).bytes = ledger (n + 1)) := by
  intro state
  have hbehind := WriteBehind.of_wrap h.unversioned (i := 0) hs trivial hb
  have htracks := WriteBehind.tracks h.unversioned size
  have hstart := ReadAhead.of_wrap (htracks.reading 0) hbehind.1 hc
  have hsound := fun n => CacheCall.sound_leave htracks hstart.1 (calls.take n)
  have hnext : ∀ n call, calls[n]? = some call → state (n + 1) = (call.run.run (state n)).2 := by
    intro n call hcall
    simp only [state, List.take_add_one, hcall, List.map_append, leave_append]
    rfl
  -- what is shown is a ledger
  refine ⟨fun n => shown (state n), ?_, fun n => rfl, fun n call hcall => ⟨?_, ?_⟩⟩
  · have hp := hstart.2.trans hbehind.2
    exact congrArg Memory.bytes hp
  · have hbooked := CacheCall.booked_run htracks (hsound n) (fun _ ht => ht.1) call
    dsimp only
    rw [hnext n call hcall]
    exact hbooked
  · rintro rfl ⟨response, hok⟩
    dsimp only
    rw [hnext n _ hcall]
    exact shown_of_flush_ok h.unversioned (hsound n) (Prod.ext hok rfl)

def faltering : Scheduled :=
  { memory := .ofBytes (.ofOctets [1, 2, 3, 4, 5, 6])
    schedule := fun n => if n = 2 ∨ n = 4 then some (.io (.reported .other "lost"), 1) else none }

def tornCalls : List CacheCall :=
  [.ask (.seek 4), .ask (.write (.ofOctets [7, 7, 7, 7, 7])), .ask (.seek 1),
    .ask (.write (.ofOctets [9, 9])), .ask .flush, .ask .flush, .ask (.seek 0), .insist 6]

/-- Both writes stop after a byte. The long one leaves that byte, the short one is all there although
the medium has only the byte when the first flush has failed. -/
theorem shown_eq_ledger_of_faltering :
    ∃ (b : WriteBehind Scheduled) (c : ReadAhead (WriteBehind Scheduled)),
      WriteBehind.wrap 4 faltering = .ok b ∧ ReadAhead.wrap 3 b = .ok c ∧
      let state n := leave ((tornCalls.take n).map CacheCall.run) c
      Bytes.octets (state 5).inner.inner.memory.bytes = [1, 9, 3, 4, 7, 6] ∧
      Bytes.octets (shown (state 5)) = [1, 9, 9, 4, 7, 6] ∧
      Bytes.octets (state 6).inner.inner.memory.bytes = [1, 9, 9, 4, 7, 6] ∧
      ∃ ledger : Nat → Bytes, ledger 0 = faltering.memory.bytes ∧
        (∀ n, shown (state n) = ledger n) ∧
        ∀ n call, tornCalls[n]? = some call →
          call.Booked 4 (state n).cursor (call.run.run (state n)).1 (ledger n) (ledger (n + 1)) ∧
          (call = .ask .flush → (∃ response, (call.run.run (state n)).1 = .ok response) →
            (plain (state (n + 1)).inner.inner).bytes = ledger (n + 1)) := by
  have hb : WriteBehind.wrap 4 faltering = .ok _ := rfl
  refine ⟨_, _, hb, rfl, ?_, ?_, ?_, ?_⟩
  · decide +kernel
  · decide +kernel
  · decide +kernel
  · exact shown_eq_ledger (Scheduled.contract trivial trivial) (Or.inl fun _ => trivial) hb
      (rfl : ReadAhead.wrap 3 _ = _) tornCalls

end ByteTower
