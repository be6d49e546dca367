import ByteTower.Proofs.Memory
import ByteTower.Proofs.Mimicry
import ByteTower.Store.Shared
import Mathlib.Data.Finset.Card

namespace ByteTower

open StoreM

namespace Shared

variable {σ α : Type}

inductive Step (σ α : Type)
  | clone (handle : Nat)
  | drop (handle : Nat)
  | reclaim (handle : Nat)
  /-- A computation on the store, which no other handle can interrupt. -/
  | call (handle : Nat) (act : StoreM σ α)

inductive Reply (σ α : Type)
  | noHandle
  | copied (handle : Nat)
  | dropped
  | answered (answer : Except StoreError α)
  | reclaimed (store : σ)
  /-- The store stays, since other handles live. -/
  | stillShared

def Reply.answer? : Reply σ α → Option (Except StoreError α)
  | answered answer => some answer
  | _ => none

namespace Step

def handle : Step σ α → Nat
  | clone handle => handle
  | drop handle => handle
  | reclaim handle => handle
  | call handle _ => handle

def run : Step σ α → Shared σ → Reply σ α × Shared σ
  | clone handle, s =>
    match s.clone handle with
    | none => (.noHandle, s)
    | some (copy, t) => (.copied copy, t)
  | drop handle, s =>
    match s.drop handle with
    | none => (.noHandle, s)
    | some t => (.dropped, t)
  | reclaim handle, s =>
    match s.reclaim handle with
    | none => (.noHandle, s)
    | some (none, t) => (.stillShared, t)
    | some (some store, t) => (.reclaimed store, t)
  | call handle act, s =>
    match s.through handle act with
    | none => (.noHandle, s)
    | some (answer, t) => (.answered answer, t)

end Step

def runAll : List (Step σ α) → Shared σ → List (Reply σ α) × Shared σ
  | [], s => ([], s)
  | step :: steps, s =>
    ((step.run s).1 :: (runAll steps (step.run s).2).1, (runAll steps (step.run s).2).2)

/-- The answers of the store among the replies. -/
def answered (replies : List (Reply σ α)) : List (Except StoreError α) :=
  replies.filterMap Reply.answer?

end Shared

/-- The handles that hold a store, and how many there ever were. They are numbered as they are made. -/
structure Holders where
  holding : Finset Nat := {0}
  made : Nat := 1

namespace Holders

open Shared

variable {σ α : Type}

/-- Who holds the store after a step: only a holder passes it on, and it is given back by the last. -/
def after (o : Holders) : Step σ α → Holders
  | .clone handle =>
    if handle ∈ o.holding then { holding := insert o.made o.holding, made := o.made + 1 } else o
  | .drop handle => { o with holding := o.holding.erase handle }
  | .reclaim handle => if o.holding = {handle} then { o with holding := ∅ } else o
  | .call _ _ => o

/-- The calls that a holder makes of its store. -/
def call? (o : Holders) : Step σ α → Option (StoreM σ α)
  | .call handle act => if handle ∈ o.holding then some act else none
  | _ => none

/-- All calls that are made by a holder, whichever it is, in their order. -/
def calls (o : Holders) : List (Step σ α) → List (StoreM σ α)
  | [] => []
  | step :: steps => (o.call? step).toList ++ (o.after step).calls steps

def afterAll (o : Holders) (steps : List (Step σ α)) : Holders := steps.foldl after o

theorem after_of_notMem {o : Holders} {step : Step σ α} (hmem : step.handle ∉ o.holding) :
    o.after step = o := by
  cases step with
  | clone handle => exact if_neg hmem
  | drop handle => exact congrArg (Holders.mk · o.made) (Finset.erase_eq_of_notMem hmem)
  | reclaim handle =>
    refine if_neg fun heq => hmem ?_
    rw [heq]
    exact Finset.mem_singleton_self handle
  | call handle act => rfl

theorem call?_of_notMem {o : Holders} {step : Step σ α} (hmem : step.handle ∉ o.holding) :
    o.call? step = none := by
  cases step with
  | clone handle => rfl
  | drop handle => rfl
  | reclaim handle => rfl
  | call handle act => exact if_neg hmem

end Holders

namespace Shared

variable {σ α : Type} {s t : Shared σ} {o : Holders} {handle : Nat}

theorem lt_of_isLive (h : s.isLive handle = true) : handle < s.live.length := by
  rw [isLive, List.getD_eq_getElem?_getD] at h
  by_contra hlt
  rw [List.getElem?_eq_none (Nat.le_of_not_lt hlt)] at h
  exact Bool.false_ne_true h

theorem isLive_append (s : Shared σ) (other : Nat) :
    ({ s with live := s.live ++ [true] } : Shared σ).isLive other = true ↔
      other = s.live.length ∨ s.isLive other = true := by
  simp only [isLive, List.getD_eq_getElem?_getD]
  rcases Nat.lt_trichotomy other s.live.length with hlt | rfl | hgt
  · rw [List.getElem?_append_left hlt]
    exact ⟨Or.inr, fun h => h.resolve_left (Nat.ne_of_lt hlt)⟩
  · simp
  · rw [List.getElem?_eq_none (by simp; omega), List.getElem?_eq_none (Nat.le_of_lt hgt)]
    exact ⟨Or.inr, fun h => h.resolve_left (Nat.ne_of_gt hgt)⟩

theorem isLive_set (s : Shared σ) (handle other : Nat) :
    ({ s with live := s.live.set handle false } : Shared σ).isLive other = true ↔
      other ≠ handle ∧ s.isLive other = true := by
  simp only [isLive, List.getD_eq_getElem?_getD, List.getElem?_set]
  by_cases heq : handle = other
  · subst heq
    rw [if_pos rfl]
    split <;> simp
  · rw [if_neg heq]
    exact ⟨fun h => ⟨Ne.symm heq, h⟩, And.right⟩

theorem liveCount_append (s : Shared σ) :
    ({ s with live := s.live ++ [true] } : Shared σ).liveCount = s.liveCount + 1 := by
  simp [liveCount]

theorem liveCount_set (h : s.isLive handle = true) :
    ({ s with live := s.live.set handle false } : Shared σ).liveCount = s.liveCount - 1 := by
  have hlt := lt_of_isLive h
  have hlive : s.live[handle] = true := by
    rw [isLive, List.getD_eq_getElem?_getD, List.getElem?_eq_getElem hlt] at h
    exact h
  simp [liveCount, List.count_set hlt, hlive]

/-- The live handles are the holders, and there are as many of them as a reference count has it. -/
structure Agrees (o : Holders) (s : Shared σ) : Prop where
  made : o.made = s.live.length
  holding : ∀ handle, handle ∈ o.holding ↔ s.isLive handle = true
  counted : o.holding.card = s.liveCount

theorem agrees_start (store : σ) : Agrees {} { store } where
  made := rfl
  holding handle := by
    cases handle with
    | zero => simp [isLive]
    | succ handle => simp [isLive]
  counted := rfl

theorem Agrees.clone (h : Agrees o s) (hlive : s.isLive handle = true) :
    Agrees (o.after (.clone handle : Step σ α)) { s with live := s.live ++ [true] } := by
  have hfresh : o.made ∉ o.holding := by
    rw [h.holding, h.made]
    exact fun hmem => Nat.lt_irrefl _ (lt_of_isLive hmem)
  rw [Holders.after, if_pos ((h.holding handle).2 hlive)]
  refine ⟨?_, fun other => ?_, ?_⟩
  · simp [h.made]
  · rw [Finset.mem_insert, isLive_append, h.holding, h.made]
  · rw [Finset.card_insert_of_notMem hfresh, liveCount_append, h.counted]

theorem Agrees.erase (h : Agrees o s) (hlive : s.isLive handle = true) :
    Agrees { o with holding := o.holding.erase handle }
      { s with live := s.live.set handle false } := by
  refine ⟨?_, fun other => ?_, ?_⟩
  · simp [h.made]
  · rw [Finset.mem_erase, isLive_set, h.holding]
  · rw [Finset.card_erase_of_mem ((h.holding handle).2 hlive), liveCount_set hlive, h.counted]

theorem Agrees.liveCount_eq_one_iff (h : Agrees o s) (hlive : s.isLive handle = true) :
    s.liveCount = 1 ↔ o.holding = {handle} := by
  rw [← h.counted, Finset.card_eq_one]
  constructor
  · rintro ⟨only, honly⟩
    have hmem := (h.holding handle).2 hlive
    rw [honly, Finset.mem_singleton] at hmem
    rw [honly, hmem]
  · exact fun heq => ⟨handle, heq⟩

theorem Step.run_of_dead {step : Step σ α} (hdead : ¬s.isLive step.handle = true) :
    step.run s = (.noHandle, s) := by
  cases step with
  | clone handle => simp only [run, Shared.clone, if_neg (show ¬s.isLive handle = true from hdead)]
  | drop handle => simp only [run, Shared.drop, if_neg (show ¬s.isLive handle = true from hdead)]
  | reclaim handle =>
    simp only [run, Shared.reclaim, if_neg (show ¬s.isLive handle = true from hdead)]
  | call handle act =>
    simp only [run, Shared.through, if_neg (show ¬s.isLive handle = true from hdead)]

theorem Step.run_clone (hlive : s.isLive handle = true) :
    (clone handle : Step σ α).run s =
      (.copied s.live.length, { s with live := s.live ++ [true] }) := by
  simp only [run, Shared.clone, if_pos hlive]

theorem Step.run_drop (hlive : s.isLive handle = true) :
    (drop handle : Step σ α).run s = (.dropped, { s with live := s.live.set handle false }) := by
  simp only [run, Shared.drop, if_pos hlive]

theorem Step.run_reclaim_last (hlive : s.isLive handle = true) (hlast : s.liveCount = 1) :
    (reclaim handle : Step σ α).run s =
      (.reclaimed s.store, { s with live := s.live.set handle false }) := by
  simp only [run, Shared.reclaim, if_pos hlive, if_pos hlast]

theorem Step.run_reclaim_shared (hlive : s.isLive handle = true) (hshared : s.liveCount ≠ 1) :
    (reclaim handle : Step σ α).run s = (.stillShared, s) := by
  simp only [run, Shared.reclaim, if_pos hlive, if_neg hshared]

theorem Step.run_call (hlive : s.isLive handle = true) (act : StoreM σ α) :
    (call handle act).run s =
      (.answered (act.run s.store).1, { s with store := (act.run s.store).2 }) := by
  simp only [run, Shared.through, if_pos hlive]

theorem Agrees.notMem (h : Agrees o s) (hdead : ¬s.isLive handle = true) : handle ∉ o.holding :=
  fun hmem => hdead ((h.holding handle).1 hmem)

/-- What one step comes to: the store answers, and is changed, just by the calls of its holders. -/
theorem Agrees.step (h : Agrees o s) (step : Step σ α) :
    answered [(step.run s).1] = answers (o.call? step).toList s.store ∧
      (step.run s).2.store = leave (o.call? step).toList s.store ∧
      Agrees (o.after step) (step.run s).2 := by
  by_cases hlive : s.isLive step.handle = true
  case neg =>
    rw [Step.run_of_dead hlive, Holders.after_of_notMem (h.notMem hlive),
      Holders.call?_of_notMem (h.notMem hlive)]
    exact ⟨rfl, rfl, h⟩
  cases step with
  | clone handle =>
    have hlive : s.isLive handle = true := hlive
    rw [Step.run_clone hlive]
    exact ⟨rfl, rfl, h.clone hlive⟩
  | drop handle =>
    have hlive : s.isLive handle = true := hlive
    rw [Step.run_drop hlive]
    exact ⟨rfl, rfl, h.erase hlive⟩
  | reclaim handle =>
    have hlive : s.isLive handle = true := hlive
    have hone := h.liveCount_eq_one_iff hlive
    by_cases honly : o.holding = {handle}
    · rw [Step.run_reclaim_last hlive (hone.2 honly), Holders.after, if_pos honly,
        ← Finset.erase_singleton handle, ← honly]
      exact ⟨rfl, rfl, h.erase hlive⟩
    · rw [Step.run_reclaim_shared hlive fun hcount => honly (hone.1 hcount), Holders.after,
        if_neg honly]
      exact ⟨rfl, rfl, h⟩
  | call handle act =>
    have hlive : s.isLive handle = true := hlive
    rw [Step.run_call hlive, Holders.call?, if_pos ((h.holding handle).2 hlive)]
    exact ⟨rfl, rfl, ⟨h.made, h.holding, h.counted⟩⟩

theorem answered_cons (reply : Reply σ α) (replies : List (Reply σ α)) :
    answered (reply :: replies) = answered [reply] ++ answered replies :=
  List.filterMap_append (l := [reply])

theorem Agrees.runAll (steps : List (Step σ α)) : ∀ {o : Holders} {s : Shared σ}, Agrees o s →
    answered (runAll steps s).1 = answers (o.calls steps) s.store ∧
      (Shared.runAll steps s).2.store = leave (o.calls steps) s.store ∧
      Agrees (o.afterAll steps) (Shared.runAll steps s).2 := by
  induction steps with
  | nil => exact fun h => ⟨rfl, rfl, h⟩
  | cons step steps ih =>
    intro o s h
    obtain ⟨hanswers, hstore, hnext⟩ := h.step step
    obtain ⟨hrest, hleave, hagrees⟩ := ih hnext
    refine ⟨?_, ?_, hagrees⟩
    · rw [Shared.runAll, answered_cons, hanswers, hrest, Holders.calls, answers_append, hstore]
    · rw [Shared.runAll, hleave, Holders.calls, leave_append, hstore]

theorem Agrees.reclaim_last (h : Agrees o s) (hlive : s.isLive handle = true)
    (honly : o.holding = {handle}) : ∃ t, s.reclaim handle = some (some s.store, t) := by
  have hone := (h.liveCount_eq_one_iff hlive).2 honly
  exact ⟨_, by rw [Shared.reclaim, if_pos hlive, if_pos hone]⟩

theorem Agrees.reclaim_shared (h : Agrees o s) (hlive : s.isLive handle = true)
    (hmore : o.holding ≠ {handle}) : s.reclaim handle = some (none, s) := by
  have hone := mt (h.liveCount_eq_one_iff hlive).1 hmore
  rw [Shared.reclaim, if_pos hlive, if_neg hone]

/-- Once the other holders have let go, in whatever order, the store comes back to the last one. -/
theorem Agrees.drop_others (others : List Nat) : ∀ {o : Holders} {s : Shared σ}, Agrees o s →
    others.Nodup → (∀ other, other ∈ others ↔ other ∈ o.holding ∧ other ≠ handle) →
    s.isLive handle = true →
    ∃ t u, others.foldlM (fun s other => s.drop other) s = some t ∧
      t.reclaim handle = some (some s.store, u) := by
  induction others with
  | nil =>
    intro o s h _ hothers hlive
    have honly : o.holding = {handle} := by
      refine Finset.eq_singleton_iff_unique_mem.2 ⟨(h.holding handle).2 hlive, fun other hmem => ?_⟩
      by_contra hne
      exact List.not_mem_nil ((hothers other).2 ⟨hmem, hne⟩)
    obtain ⟨u, hu⟩ := h.reclaim_last hlive honly
    exact ⟨s, u, rfl, hu⟩
  | cons other others ih =>
    intro o s h hdup hothers hlive
    obtain ⟨hfresh, hdup⟩ := List.nodup_cons.1 hdup
    obtain ⟨hmem, hne⟩ := (hothers other).1 List.mem_cons_self
    have hother := (h.holding other).1 hmem
    have hrest : ∀ k, k ∈ others ↔ k ∈ o.holding.erase other ∧ k ≠ handle := by
      intro k
      have hk := hothers k
      rw [List.mem_cons] at hk
      rw [Finset.mem_erase]
      constructor
      · intro hin
        obtain ⟨hmem, hne⟩ := hk.1 (Or.inr hin)
        exact ⟨⟨fun heq => hfresh (heq ▸ hin), hmem⟩, hne⟩
      · rintro ⟨⟨hneq, hmem⟩, hne⟩
        exact (hk.2 ⟨hmem, hne⟩).resolve_left hneq
    obtain ⟨t, u, hdrops, hu⟩ := ih (h.erase hother) hdup hrest
      ((isLive_set s other handle).2 ⟨Ne.symm hne, hlive⟩)
    refine ⟨t, u, ?_, hu⟩
    rw [List.foldlM_cons, Shared.drop, if_pos hother]
    exact hdrops

/-- What is behind the live handles: this store, and it comes back just to a handle that is alone. -/
structure Serves (s : Shared σ) (store : σ) (holding : Finset Nat) : Prop where
  holds : s.store = store
  live : ∀ handle, s.isLive handle = true ↔ handle ∈ holding
  reclaim_iff : ∀ handle ∈ holding,
    (∃ t, s.reclaim handle = some (some store, t)) ↔ ∀ other ∈ holding, other = handle
  /-- An attempt that is not allowed changes neither the handles nor the store. -/
  reclaim_shared : ∀ handle ∈ holding, ∀ other ∈ holding, other ≠ handle →
    s.reclaim handle = some (none, s)
  reclaim_dead : ∀ handle, handle ∉ holding → s.reclaim handle = none
  drop_others : ∀ handle ∈ holding, ∀ others : List Nat, others.Nodup →
    (∀ other, other ∈ others ↔ other ∈ holding ∧ other ≠ handle) →
    ∃ t u, others.foldlM (fun s other => s.drop other) s = some t ∧
      t.reclaim handle = some (some store, u)

theorem Agrees.serves (h : Agrees o s) : Serves s s.store o.holding where
  holds := rfl
  live handle := (h.holding handle).symm
  reclaim_iff handle hmem := by
    have hlive := (h.holding handle).1 hmem
    constructor
    · rintro ⟨t, ht⟩ other hother
      by_contra hne
      have hmore : o.holding ≠ {handle} := fun honly =>
        hne (Finset.mem_singleton.1 (honly ▸ hother))
      rw [h.reclaim_shared hlive hmore] at ht
      cases ht
    · exact fun hall => h.reclaim_last hlive (Finset.eq_singleton_iff_unique_mem.2 ⟨hmem, hall⟩)
  reclaim_shared handle hmem other hother hne :=
    h.reclaim_shared ((h.holding handle).1 hmem) fun honly =>
      hne (Finset.mem_singleton.1 (honly ▸ hother))
  reclaim_dead handle hmem := if_neg fun hlive => hmem ((h.holding handle).2 hlive)
  drop_others handle hmem others hdup hothers :=
    h.drop_others others hdup hothers ((h.holding handle).1 hmem)

/-- Handles on one store. After any steps with any handles the store has answered, and is left, as by the
calls of its holders alone, one after the other; and it comes back just to the last holder. -/
theorem handles_share_one_store (store : σ) (steps : List (Step σ α)) :
    answered (runAll steps { store }).1 = answers (Holders.calls {} steps) store ∧
      Serves (runAll steps { store }).2 (leave (Holders.calls {} steps) store)
        (Holders.afterAll {} steps).holding := by
  obtain ⟨hanswers, hstore, hagrees⟩ := (agrees_start store).runAll steps
  refine ⟨hanswers, ?_⟩
  rw [← hstore]
  exact hagrees.serves

/-- What one handle writes comes back to another, once that one is alone. -/
example : (runAll [.clone 0, .call 1 (Storage.write "ab".toUTF8), .reclaim 0, .drop 1, .reclaim 0]
    { store := Memory.ofBytes ByteArray.empty }).1 =
    [.copied 1, .answered (.ok ()), .stillShared, .dropped,
      .reclaimed { bytes := "ab".toUTF8, cursor := 2 }] := rfl

end Shared

end ByteTower
