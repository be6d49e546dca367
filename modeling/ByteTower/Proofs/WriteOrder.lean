import ByteTower.Proofs.Media
import ByteTower.Proofs.Request
import ByteTower.Proofs.Tower

namespace ByteTower

open StoreM

/-- The bytes that changes one after the other make of `b`. -/
def replay (b : Bytes) (changes : List Mutation) : Bytes := changes.foldl Mutation.apply b

section Mutations

variable {σ : Type} [Storage σ] [Meaning σ]

/-- The change that a request makes to a store, if it makes one and does not fail. -/
def made (s : σ) (r : Request) : List Mutation :=
  match (r.run.run s).1 with
  | .ok _ => (r.mutation? (plain s).cursor).toList
  | .error _ => []

/-- The changes that a run makes, in order. -/
def mutations (s : σ) : List Request → List Mutation
  | [] => []
  | r :: requests => made s r ++ mutations (r.run.run s).2 requests

theorem mutations_append (s : σ) (first second : List Request) :
    mutations s (first ++ second) =
      mutations s first ++ mutations (leave (first.map Request.run) s) second := by
  induction first generalizing s with
  | nil => rfl
  | cons r first ih =>
    simp only [List.cons_append, mutations, ih, List.append_assoc]
    rfl

theorem replay_append_made {s t : σ} {r : Request} {response : Response}
    (hrun : r.run.run s = (.ok response, t)) {b : Bytes} {changes : List Mutation}
    (hs : (plain s).bytes = replay b changes) :
    replay b (changes ++ made s r) = r.effect (plain s).cursor (plain s).bytes := by
  have happ : replay b (changes ++ made s r) = replay (replay b changes) (made s r) :=
    List.foldl_append
  rw [happ, ← hs, made, hrun, Request.effect]
  cases r.mutation? (plain s).cursor with
  | none => rfl
  | some change => rfl

end Mutations

def preceded (k : Nat) (sequence : Nat → Nat) : Nat → Nat
  | 0 => k
  | n + 1 => sequence n

/-- The versions that changes make of `b`, from the `k`-th on. -/
def version (b : Bytes) (changes : List Mutation) (k i : Nat) (bytes : Bytes) : Prop :=
  bytes = replay b (changes.take i) ∧ k ≤ i

section Medium

variable {κ μ : Type} [Meaning μ] {Good : μ → Prop} {b : Bytes} {changes : List Mutation}

/-- A tower whose medium has reached version `k` at least, and whose layers show version `i`. -/
abbrev Reached (Good : μ → Prop) (b : Bytes) (changes : List Mutation) (k : Nat)
    (kinds : List LayerKind) (i : Nat) (t : Tower κ μ kinds) : Prop :=
  Tower.Sound (version b changes k)
    (fun j m => Good m ∧ version b changes k j (plain m).bytes) kinds i t

theorem Reached.medium : ∀ {kinds : List LayerKind} {k i : Nat} {t : Tower κ μ kinds},
    Reached Good b changes k kinds i t → ∃ k', k ≤ k' ∧ k' ≤ i ∧
      (plain t.medium).bytes = replay b (changes.take k') ∧ Reached Good b changes k' kinds i t
  | [], k, i, m, ⟨hm, hb, hk⟩ => ⟨i, hk, Nat.le_refl i, hb, hm, hb, Nat.le_refl i⟩
  | .readAhead :: kinds, k, i, c, ⟨size, hc⟩ => by
    obtain ⟨k', hk, hi, hb, hr⟩ := Reached.medium (t := c.inner) hc.inner
    exact ⟨k', hk, hi, hb, size, { hc with inner := hr }⟩
  | .writeBehind :: kinds, k, i, c, ⟨size, ⟨hv, hk⟩, j, hj, hc⟩ => by
    -- the layers below may be at an earlier version `j`
    obtain ⟨k', hk', hi, hb, hr⟩ := Reached.medium (t := c.inner) hc.inner
    exact ⟨k', hk', Nat.le_trans hi hj, hb, size, ⟨hv, Nat.le_trans hi hj⟩, j, hj,
      { hc with inner := hr }⟩
  | .blocks :: kinds, k, i, c, hc => Reached.medium (t := c.inner) hc

variable [Storage μ] (h : Contract .whole Good)

include h

theorem tracks_versions (k : Nat) : Tracks .whole (version b changes k)
    fun i m => Good m ∧ version b changes k i (plain m).bytes :=
  h.tracks fun _ => Failures.whole_respects _

theorem tracks_reached (k : Nat) (kinds : List LayerKind) :
    Tracks .whole (version b changes k) (Reached (κ := κ) Good b changes k kinds) :=
  Tower.tracks (tracks_versions h k) kinds

theorem Reached.run {k : Nat} {kinds : List LayerKind} {done rest : List Mutation}
    {t : Tower κ μ kinds} {r : Request} (hr : changes = done ++ made t r ++ rest)
    (ht : Reached Good b changes k kinds done.length t) :
    Reached Good b changes k kinds (done ++ made t r).length (r.run.run t).2 := by
  have hversion : version b changes k done.length (plain t).bytes := ht.version fun _ _ hm => hm.2
  have hdone : changes.take done.length = done := by
    rw [hr, List.append_assoc, List.take_left]
  have hmade : changes.take (done ++ made t r).length = done ++ made t r := by
    rw [hr, List.take_left]
  have hle : done.length ≤ (done ++ made t r).length := by simp
  have hstep := r.meets_run (tracks_reached h k kinds) hle ht
  rcases hrun : r.run.run t with ⟨e | response, t'⟩
  · -- a request that fails makes no change
    have hnone : made t r = [] := by rw [made, hrun]
    rw [hnone, List.append_nil]
    exact (hstep.of_run_error hrun).1
  · obtain ⟨hgood, hb⟩ := hstep.of_run_ok hrun
    refine hgood ⟨?_, Nat.le_trans hversion.2 hle⟩
    rw [hmade, replay_append_made hrun (hdone ▸ hversion.1)]
    exact hb

/-- After each request of a run the medium has a version between the one it had and the one that the
layers show. -/
theorem Reached.versions {kinds : List LayerKind} {requests : List Request} :
    ∀ {k : Nat} {done : List Mutation} {t : Tower κ μ kinds},
      changes = done ++ mutations t requests →
      Reached Good b changes k kinds done.length t →
      ∃ reached : Nat → Nat, k ≤ reached 0 ∧ (∀ n, reached n ≤ reached (n + 1)) ∧
        ∀ n, reached n ≤ done.length + (mutations t (requests.take n)).length ∧
          (plain (leave ((requests.take n).map Request.run) t).medium).bytes =
            replay b (changes.take (reached n)) := by
  -- the layers below start each request from the version that the medium has reached by then
  induction requests with
  | nil =>
    intro k done t _ ht
    obtain ⟨k', hk, hi, hb, -⟩ := ht.medium
    refine ⟨fun _ => k', hk, fun _ => Nat.le_refl k', fun n => ?_⟩
    rw [List.take_nil]
    exact ⟨hi, hb⟩
  | cons r requests ih =>
    intro k done t hchanges ht
    obtain ⟨k', hk, hi, hb, ht'⟩ := ht.medium
    rw [mutations, ← List.append_assoc] at hchanges
    obtain ⟨reached, hfirst, hmono, hall⟩ := ih hchanges (ht'.run h hchanges)
    -- before the first request the medium has version `k'`, then those of the rest of the run
    refine ⟨preceded k' reached, hk, ?_, ?_⟩
    · intro n
      cases n with
      | zero => exact hfirst
      | succ n => exact hmono n
    · intro n
      cases n with
      | zero => exact ⟨hi, hb⟩
      | succ n =>
        obtain ⟨hle, hbytes⟩ := hall n
        refine ⟨?_, hbytes⟩
        rw [List.take_succ_cons, mutations, List.length_append, ← Nat.add_assoc,
          ← List.length_append]
        exact hle

end Medium

/-- However many layers hold changes back and whichever calls of the medium fail, the medium goes
through versions that the changes of the run make one after the other. -/
theorem medium_replays {κ μ : Type} [Storage μ] [Meaning μ] {Good : μ → Prop}
    (h : Contract .whole Good) {m : μ} (hm : Good m) {plans : List LayerPlan} {t : AnyTower κ μ}
    (ht : (AnyTower.ofMedium m).wrapAll plans = .ok t) (requests : List Request) :
    ∃ reached : Nat → Nat, (∀ n n', n ≤ n' → reached n ≤ reached n') ∧
      ∀ n, reached n ≤ (mutations t.tower (requests.take n)).length ∧
        (plain (leave ((requests.take n).map Request.run) t.tower).medium).bytes =
          replay (plain m).bytes ((mutations t.tower (requests.take n)).take (reached n)) := by
  have htracks : Tracks .whole (version (plain m).bytes (mutations t.tower requests) 0) _ :=
    tracks_versions h 0
  have hmedium : Good m ∧ version (plain m).bytes (mutations t.tower requests) 0 0 (plain m).bytes :=
    ⟨hm, rfl, Nat.le_refl 0⟩
  have htower := (AnyTower.sound_of_wrapAll htracks (fun _ _ hm => hm.2)
    (t := AnyTower.ofMedium m) hmedium ht).1
  have hdone : mutations t.tower requests = [] ++ mutations t.tower requests := rfl
  obtain ⟨reached, -, hmono, hall⟩ := Reached.versions h hdone htower
  refine ⟨reached, fun n n' hle => ?_, fun n => ?_⟩
  · induction hle with
    | refl => exact Nat.le_refl _
    | step _ ih => exact Nat.le_trans ih (hmono _)
  · obtain ⟨hle, hbytes⟩ := hall n
    rw [List.length_nil, Nat.zero_add] at hle
    -- the changes of the first requests are the first of all changes
    have hsplit := mutations_append t.tower (requests.take n) (requests.drop n)
    rw [List.take_append_drop] at hsplit
    rw [hsplit, List.take_append_of_le_length hle] at hbytes
    exact ⟨hle, hbytes⟩

def refusing : Probe :=
  { memory := .ofBytes (.ofOctets [1, 2, 3, 4, 5, 6]), faults := [(.write, { grace := 1 })] }

def twoWrites : List Request :=
  [.write (.ofOctets [9, 9]), .seek 3, .write (.ofOctets [8, 8]), .flush]

/-- Under two layers that hold writes back, the medium has the first write and not the second. -/
theorem medium_replays_of_refusing :
    ∃ t : AnyTower Empty Probe,
      (AnyTower.ofMedium refusing).wrapAll [.writeBehind 4, .readAhead 3, .writeBehind 2] = .ok t ∧
      Bytes.octets (plain (leave (twoWrites.map Request.run) t.tower).medium).bytes =
        [9, 9, 3, 4, 5, 6] ∧
      (mutations t.tower twoWrites).length = 2 ∧
      ∃ reached : Nat → Nat, (∀ n n', n ≤ n' → reached n ≤ reached n') ∧
        ∀ n, reached n ≤ (mutations t.tower (twoWrites.take n)).length ∧
          (plain (leave ((twoWrites.take n).map Request.run) t.tower).medium).bytes =
            replay refusing.memory.bytes
              ((mutations t.tower (twoWrites.take n)).take (reached n)) := by
  have hw : (AnyTower.ofMedium refusing : AnyTower Empty Probe).wrapAll
    [.writeBehind 4, .readAhead 3, .writeBehind 2] = .ok _ := rfl
  refine ⟨_, hw, ?_, ?_, ?_⟩
  · decide +kernel
  · decide +kernel
  · refine medium_replays (Probe.contract trivial trivial) (m := refusing) (Or.inr ?_) hw twoWrites
    decide

end ByteTower
