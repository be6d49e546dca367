import ByteTower.Proofs.Contract
import ByteTower.Store.Transfer

namespace ByteTower

open StoreM

section Mimics

variable {σ τ α β : Type} {Good : σ → Prop} {view : σ → τ} {s : σ}

/-- Run on `s`, `act` gives the answer that `model` gives on the view of `s`, and ends in a good state
whose view is the one in which `model` ends. -/
def Mimics (Good : σ → Prop) (view : σ → τ) (act : StoreM σ α) (model : StoreM τ α) (s : σ) : Prop :=
  Good (act.run s).2 ∧ model.run (view s) = ((act.run s).1, view (act.run s).2)

variable {act : StoreM σ α} {model : StoreM τ α}

theorem Mimics.of_run {answer : Except StoreError α} {t : σ} (ha : act.run s = (answer, t))
    (ht : Good t) (hm : model.run (view s) = (answer, view t)) : Mimics Good view act model s := by
  rw [Mimics, ha]
  exact ⟨ht, hm⟩

theorem Mimics.of_meets {r : α × τ}
    (ha : act.Meets s (fun a t => Good t ∧ (a, view t) = r) fun _ _ => False)
    (hm : model.Meets (view s) (fun a t => (a, t) = r) fun _ _ => False) :
    Mimics Good view act model s := by
  rcases hrun : act.run s with ⟨e | a, t⟩
  · exact (ha.of_run_error hrun).elim
  rcases hrun' : model.run (view s) with ⟨e' | a', t'⟩
  · exact (hm.of_run_error hrun').elim
  obtain ⟨ht, hr⟩ := ha.of_run_ok hrun
  obtain ⟨rfl, rfl⟩ := Prod.mk.inj (hr.trans (hm.of_run_ok hrun').symm)
  exact .of_run hrun ht hrun'

theorem Mimics.meets {good : α → τ → Prop} {bad : StoreError → τ → Prop}
    (h : Mimics Good view act model s) (hm : model.Meets (view s) good bad) :
    act.Meets s (fun a t => Good t ∧ good a (view t)) fun e t => Good t ∧ bad e (view t) := by
  obtain ⟨ht, hrun⟩ := h
  rcases ha : act.run s with ⟨e | a, t⟩
  · rw [ha] at ht hrun
    exact meets_of_error ha ⟨ht, hm.of_run_error hrun⟩
  · rw [ha] at ht hrun
    exact meets_of_ok ha ⟨ht, hm.of_run_ok hrun⟩

theorem Mimics.and_view {P : τ → Prop} (h : Mimics Good view act model s)
    (hp : P (model.run (view s)).2) :
    Mimics (fun t => Good t ∧ P (view t)) view act model s := by
  obtain ⟨ht, hm⟩ := h
  rw [hm] at hp
  exact ⟨⟨ht, hp⟩, hm⟩

theorem Mimics.and_state {Q : σ → Prop} (h : Mimics Good view act model s) (hq : Q (act.run s).2) :
    Mimics (fun t => Good t ∧ Q t) view act model s := ⟨⟨h.1, hq⟩, h.2⟩

/-- What mimics a computation mimics all that this one mimics, where the views agree. -/
theorem Mimics.through {ρ : Type} {Fine : τ → Prop} {below : τ → ρ} {below' : σ → ρ}
    {model' : StoreM ρ α} (h : Mimics Good view act model s)
    (h' : Mimics Fine below model model' (view s)) (hs : below (view s) = below' s)
    (hview : ∀ t, Good t → below (view t) = below' t) :
    Mimics (fun t => Good t ∧ Fine (view t)) below' act model' s := by
  obtain ⟨ht, hm⟩ := h
  obtain ⟨hu, hm'⟩ := h'
  rw [hm] at hu hm'
  rw [hs, hview _ ht] at hm'
  exact ⟨⟨ht, hu⟩, hm'⟩

theorem mimics_pure (hs : Good s) (a : α) : Mimics Good view (pure a) (pure a) s := ⟨hs, rfl⟩

theorem mimics_throw (hs : Good s) (e : StoreError) :
    Mimics Good view (throw e : StoreM σ α) (throw e) s := ⟨hs, rfl⟩

theorem Mimics.bind {next : α → StoreM σ β} {next' : α → StoreM τ β}
    (h : Mimics Good view act model s)
    (hn : ∀ a t, Good t → Mimics Good view (next a) (next' a) t) :
    Mimics Good view (act >>= next) (model >>= next') s := by
  obtain ⟨ht, hm⟩ := h
  -- where the first part fails, neither goes on
  rcases ha : act.run s with ⟨e | a, t⟩
  · rw [ha] at ht hm
    exact .of_run (run_bind_error ha next) ht (run_bind_error hm next')
  · rw [ha] at ht hm
    obtain ⟨hu, hm'⟩ := hn a t ht
    refine .of_run (run_bind_ok ha next) hu ?_
    rw [run_bind_ok hm next']
    exact hm'

theorem mimics_get_bind {next : σ → StoreM σ α} {next' : τ → StoreM τ α}
    (h : Mimics Good view (next s) (next' (view s)) s) :
    Mimics Good view (get >>= next) (get >>= next') s := h

theorem mimics_ite {c : Prop} [Decidable c] {act' : StoreM σ α} {model' : StoreM τ α}
    (hyes : c → Mimics Good view act model s) (hno : ¬c → Mimics Good view act' model' s) :
    Mimics Good view (if c then act else act') (if c then model else model') s := by
  split
  case isTrue hc => exact hyes hc
  case isFalse hc => exact hno hc

theorem mimics_modify {f : σ → σ} {f' : τ → τ} (hs : Good (f s)) (hview : f' (view s) = view (f s)) :
    Mimics Good view (modify f : StoreM σ PUnit) (modify f') s :=
  ⟨hs, congrArg (Prod.mk (Except.ok PUnit.unit)) hview⟩

theorem mimics_set {t : σ} {t' : τ} (ht : Good t) (hview : t' = view t) :
    Mimics Good view (set t : StoreM σ PUnit) (set t') s :=
  ⟨ht, congrArg (Prod.mk (Except.ok PUnit.unit)) hview⟩

theorem Mimics.handle {handler : StoreError → StoreM σ α} {handler' : StoreError → StoreM τ α}
    (h : Mimics Good view act model s)
    (hh : ∀ e t, Good t → Mimics Good view (handler e) (handler' e) t) :
    Mimics Good view (tryCatch act handler) (tryCatch model handler') s := by
  obtain ⟨ht, hm⟩ := h
  rcases ha : act.run s with ⟨e | a, t⟩
  · rw [ha] at ht hm
    obtain ⟨hu, hm'⟩ := hh e t ht
    have hrun : (tryCatch act handler).run s = (handler e).run t := by rw [run_tryCatch, ha]
    refine .of_run hrun hu ?_
    rw [run_tryCatch, hm]
    exact hm'
  · rw [ha] at ht hm
    exact .of_run (by rw [run_tryCatch, ha]) ht (by rw [run_tryCatch, hm])

theorem mimics_requireOpen (hs : Good s) (closed : Bool) :
    Mimics Good view (requireOpen closed) (requireOpen closed) s :=
  mimics_ite (fun _ => mimics_throw hs _) fun _ => mimics_pure hs ()

theorem mimics_checkPosition (hs : Good s) (pos : Nat) :
    Mimics Good view (checkPosition pos) (checkPosition pos) s :=
  mimics_ite (fun _ => mimics_throw hs _) fun _ => mimics_pure hs ()

theorem mimics_endOf (hs : Good s) (pos count : Nat) :
    Mimics Good view (endOf pos count) (endOf pos count) s :=
  mimics_ite (fun _ => mimics_throw hs _) fun _ => mimics_pure hs _

theorem mimics_checkSlice (hs : Good s) (size start count : Nat) :
    Mimics Good view (checkSlice size start count) (checkSlice size start count) s :=
  mimics_ite (fun _ => mimics_throw hs _) fun _ => mimics_pure hs ()

theorem Mimics.zoom {σ' τ' : Type} {Good' : σ' → Prop} {view' : σ' → τ'} {part : σ' → σ}
    {put : σ → σ' → σ'} {part' : τ' → τ} {put' : τ → τ' → τ'} {w : σ'}
    (h : Mimics Good view act model (part w)) (hgood : ∀ t, Good t → Good' (put t w))
    (hpart : part' (view' w) = view (part w))
    (hput : ∀ t, put' (view t) (view' w) = view' (put t w)) :
    Mimics Good' view' (act.zoom part put) (model.zoom part' put') w := by
  obtain ⟨ht, hm⟩ := h
  refine .of_run (run_zoom part put act w) (hgood _ ht) ?_
  rw [run_zoom, hpart, hm, hput]

end Mimics

section World

variable {σ τ ω α : Type} {Good : σ → Prop} {view : σ → τ}

def Beside (Good : σ → Prop) (p : σ × ω) : Prop := Good p.1

def beside (view : σ → τ) (p : σ × ω) : τ × ω := (view p.1, p.2)

theorem Mimics.onFirst {p : σ × ω} {act : StoreM σ α} {model : StoreM τ α}
    (h : Mimics Good view act model p.1) :
    Mimics (Beside Good) (beside view) act.onFirst model.onFirst p :=
  h.zoom (fun _ ht => ht) rfl fun _ => rfl

theorem mimics_onSecond {p : σ × ω} (hp : Beside Good p) (act : StoreM ω α) :
    Mimics (Beside Good) (beside view) act.onSecond act.onSecond p := ⟨hp, rfl⟩

end World

section Stores

variable {σ τ : Type} [Storage σ] [Storage τ] {Good : σ → Prop} {view : σ → τ}

/-- What reading asks of a good store it answers as the store that `view` makes of it. -/
structure ReadsLike (Good : σ → Prop) (view : σ → τ) : Prop where
  length : ∀ s, Good s → Mimics Good view Storage.length Storage.length s
  cursor : ∀ s, Good s → Mimics Good view Storage.cursor Storage.cursor s
  seek : ∀ pos s, Good s → Mimics Good view (Storage.seek pos) (Storage.seek pos) s
  read : ∀ n s, Good s → Mimics Good view (Storage.read n) (Storage.read n) s

/-- Every call on a good store but a close does what it does on the store that `view` makes of it. -/
structure Imitates (Good : σ → Prop) (view : σ → τ) : Prop extends ReadsLike Good view where
  resize : ∀ n s, Good s → Mimics Good view (Storage.resize n) (Storage.resize n) s
  write : ∀ data s, Good s → Mimics Good view (Storage.write data) (Storage.write data) s
  flush : ∀ s, Good s → Mimics Good view Storage.flush Storage.flush s

/-- So do the calls that blocks are made of, among which no single read may come up short. -/
structure Matches (Good : σ → Prop) (view : σ → τ) : Prop where
  length : ∀ s, Good s → Mimics Good view Storage.length Storage.length s
  resize : ∀ n s, Good s → Mimics Good view (Storage.resize n) (Storage.resize n) s
  seek : ∀ pos s, Good s → Mimics Good view (Storage.seek pos) (Storage.seek pos) s
  readExactly : ∀ n s, Good s →
    Mimics Good view (Storage.readExactly n) (Storage.readExactly n) s
  write : ∀ data s, Good s → Mimics Good view (Storage.write data) (Storage.write data) s

theorem Matches.through {ρ : Type} [Storage ρ] {Fine : τ → Prop} {below : τ → ρ} {below' : σ → ρ}
    (h : Matches Good view) (h' : Matches Fine below)
    (hview : ∀ s, Good s → below (view s) = below' s) :
    Matches (fun s => Good s ∧ Fine (view s)) below' where
  length s hs := (h.length s hs.1).through (h'.length _ hs.2) (hview s hs.1) hview
  resize n s hs := (h.resize n s hs.1).through (h'.resize n _ hs.2) (hview s hs.1) hview
  seek pos s hs := (h.seek pos s hs.1).through (h'.seek pos _ hs.2) (hview s hs.1) hview
  readExactly n s hs :=
    (h.readExactly n s hs.1).through (h'.readExactly n _ hs.2) (hview s hs.1) hview
  write data s hs := (h.write data s hs.1).through (h'.write data _ hs.2) (hview s hs.1) hview

theorem mimics_gather (h : ReadsLike Good view) {p : σ × Bytes} (hp : Beside Good p) (wanted fuel : Nat) :
    Mimics (Beside Good) (beside view) (Storage.gather wanted fuel) (Storage.gather wanted fuel)
      p := by
  induction fuel generalizing p with
  | zero => exact mimics_pure hp ()
  | succ fuel ih =>
    apply mimics_get_bind
    apply mimics_ite _ fun _ => mimics_pure hp ()
    intro _
    apply (Mimics.onFirst (h.read _ p.1 hp)).bind
    intro result q hq
    apply mimics_ite (fun _ => mimics_throw hq _)
    intro _
    apply Mimics.bind
    · exact mimics_modify hq rfl
    · exact fun _ r hr => ih hr

theorem Imitates.matches (h : Imitates Good view) : Matches Good view where
  length := h.length
  resize := h.resize
  seek := h.seek
  readExactly n s hs := by
    obtain ⟨ht, hm⟩ := mimics_gather h.toReadsLike (p := (s, ByteArray.empty)) hs n n
    have hm : (Storage.gather n n).run (view s, ByteArray.empty) = _ := hm
    rcases hr : (Storage.gather n n).run (s, ByteArray.empty) with ⟨e | _, t, got⟩
    · rw [hr] at ht hm
      have hrun : (Storage.readExactly n).run s = (.error e, t) := by
        simp only [Storage.readExactly, hr]
      exact .of_run hrun ht (by simp only [Storage.readExactly, hm, beside])
    · rw [hr] at ht hm
      have hrun : (Storage.readExactly n).run s = (.ok got, t) := by
        simp only [Storage.readExactly, hr]
      exact .of_run hrun ht (by simp only [Storage.readExactly, hm, beside])
  write := h.write

end Stores

section Answers

variable {σ τ ι α : Type} {Good : σ → Prop} {view : σ → τ} {run : ι → StoreM σ α}
variable {run' : ι → StoreM τ α}

/-- The answers of computations that run one after the other, whether they fail or not. -/
def answers : List (StoreM σ α) → σ → List (Except StoreError α)
  | [], _ => []
  | act :: acts, s => (act.run s).1 :: answers acts (act.run s).2

theorem answers_append (acts acts' : List (StoreM σ α)) (s : σ) :
    answers (acts ++ acts') s = answers acts s ++ answers acts' (leave acts s) := by
  induction acts generalizing s with
  | nil => rfl
  | cons act acts ih => exact congrArg ((act.run s).1 :: ·) (ih _)

/-- Where each step is mimicked, so is every run. -/
theorem answers_of_mimics (h : ∀ i s, Good s → Mimics Good view (run i) (run' i) s)
    (steps : List ι) : ∀ {s : σ}, Good s →
      answers (steps.map run) s = answers (steps.map run') (view s) ∧
        leave (steps.map run') (view s) = view (leave (steps.map run) s) := by
  induction steps with
  | nil => exact fun _ => ⟨rfl, rfl⟩
  | cons i steps ih =>
    intro s hs
    obtain ⟨ht, hm⟩ := h i s hs
    obtain ⟨hanswers, hleave⟩ := ih ht
    constructor
    · rw [List.map_cons, List.map_cons, answers, answers, hm, hanswers]
    · rw [List.map_cons, List.map_cons, leave, leave, List.foldl_cons, List.foldl_cons, hm]
      exact hleave

end Answers

/-- A store that never fails without a reason mimics its plain store. -/
theorem Follows.mimics {σ α : Type} [Meaning σ] {Good : σ → Prop} {loss : Memory → Memory → Prop}
    {act : StoreM σ α} {model : StoreM Memory α} {s : σ}
    (h : Follows .never Good Good loss act (Eq model) s) : Mimics Good plain act model s := by
  rcases ha : act.run s with ⟨e | a, t⟩
  · -- a call that fails does so for the reason its model has
    obtain ⟨ht, ⟨_, rfl, hm⟩ | ⟨hocc, -⟩⟩ := Meets.of_run_error h ha
    · exact .of_run ha ht hm
    · exact hocc.elim
  · obtain ⟨ht, _, rfl, hm⟩ := Meets.of_run_ok h ha
    exact .of_run ha ht hm

section Kept

variable {σ : Type} [Storage σ] [Meaning σ]

/-- What no call on a store changes, whether it fails or not. -/
structure Kept (P : σ → Prop) : Prop where
  length : ∀ s, P s → P (Storage.length.run s).2
  resize : ∀ n s, P s → P ((Storage.resize n).run s).2
  cursor : ∀ s, P s → P (Storage.cursor.run s).2
  seek : ∀ pos s, P s → P ((Storage.seek pos).run s).2
  read : ∀ n s, P s → P ((Storage.read n).run s).2
  write : ∀ data s, P s → P ((Storage.write data).run s).2
  flush : ∀ s, P s → P (Storage.flush.run s).2
  close : ∀ s, P s → P (Storage.close.run s).2

section View

variable {ρ : Type} [Storage ρ] {Good : ρ → Prop} {view : ρ → σ} {P : σ → Prop}

omit [Meaning σ]

theorem ReadsLike.and_view (h : ReadsLike Good view) (hp : Kept P) :
    ReadsLike (fun s => Good s ∧ P (view s)) view where
  length s hs := (h.length s hs.1).and_view (hp.length _ hs.2)
  cursor s hs := (h.cursor s hs.1).and_view (hp.cursor _ hs.2)
  seek pos s hs := (h.seek pos s hs.1).and_view (hp.seek pos _ hs.2)
  read n s hs := (h.read n s hs.1).and_view (hp.read n _ hs.2)

theorem Imitates.and_view (h : Imitates Good view) (hp : Kept P) :
    Imitates (fun s => Good s ∧ P (view s)) view where
  toReadsLike := h.toReadsLike.and_view hp
  resize n s hs := (h.resize n s hs.1).and_view (hp.resize n _ hs.2)
  write data s hs := (h.write data s hs.1).and_view (hp.write data _ hs.2)
  flush s hs := (h.flush s hs.1).and_view (hp.flush _ hs.2)

theorem ReadsLike.and_kept {Q : ρ → Prop} (h : ReadsLike Good view) (hq : Kept Q) :
    ReadsLike (fun s => Good s ∧ Q s) view where
  length s hs := (h.length s hs.1).and_state (hq.length s hs.2)
  cursor s hs := (h.cursor s hs.1).and_state (hq.cursor s hs.2)
  seek pos s hs := (h.seek pos s hs.1).and_state (hq.seek pos s hs.2)
  read n s hs := (h.read n s hs.1).and_state (hq.read n s hs.2)

theorem Imitates.and_kept {Q : ρ → Prop} (h : Imitates Good view) (hq : Kept Q) :
    Imitates (fun s => Good s ∧ Q s) view where
  toReadsLike := h.toReadsLike.and_kept hq
  resize n s hs := (h.resize n s hs.1).and_state (hq.resize n s hs.2)
  write data s hs := (h.write data s hs.1).and_state (hq.write data s hs.2)
  flush s hs := (h.flush s hs.1).and_state (hq.flush s hs.2)

end View

variable {α : Type} {f : Failures} {Good P : σ → Prop} {loss : Memory → Memory → Prop}
variable {act : StoreM σ α} {models : StoreM Memory α → Prop} {s : σ}

omit [Storage σ] in
theorem Follows.and_state (h : Follows f Good Good loss act models s) (hp : P (act.run s).2) :
    Follows f (fun t => Good t ∧ P t) (fun t => Good t ∧ P t) loss act models s := by
  refine meets_iff.2 ⟨fun a t hr => ?_, fun e t hr => ?_⟩
  · rw [hr] at hp
    obtain ⟨ht, hm⟩ := Meets.of_run_ok h hr
    exact ⟨⟨ht, hp⟩, hm⟩
  · rw [hr] at hp
    obtain ⟨ht, hm⟩ := Meets.of_run_error h hr
    exact ⟨⟨ht, hp⟩, hm⟩

theorem Contract.and (h : Contract f Good) (hp : Kept P) : Contract f fun s => Good s ∧ P s where
  length s hs := (h.length s hs.1).and_state (hp.length s hs.2)
  cursor s hs := (h.cursor s hs.1).and_state (hp.cursor s hs.2)
  seek pos s hs := (h.seek pos s hs.1).and_state (hp.seek pos s hs.2)
  read n s hs := (h.read n s hs.1).and_state (hp.read n s hs.2)
  flush s hs := (h.flush s hs.1).and_state (hp.flush s hs.2)
  close s hs := (h.close s hs.1).and_state (hp.close s hs.2)
  isClosed s hs := h.isClosed s hs.1
  bounded s hs := h.bounded s hs.1
  still _ hs := hs
  resize n s hs := (h.resize n s hs.1).and_state (hp.resize n s hs.2)
  write data s hs := (h.write data s hs.1).and_state (hp.write data s hs.2)

end Kept

end ByteTower
