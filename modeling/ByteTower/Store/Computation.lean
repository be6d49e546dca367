import ByteTower.Error

namespace ByteTower

/-- A computation on a state of type `σ` that may fail, and that keeps the state it has reached when it
does. -/
@[ext]
structure StoreM (σ α : Type) where
  ofRun ::
  /-- The outcome, and the state that is left. -/
  run : σ → Except StoreError α × σ

namespace StoreM

variable {σ τ α β : Type}

@[always_inline]
instance : Monad (StoreM σ) where
  pure a := ofRun fun s => (.ok a, s)
  bind act next := ofRun fun s =>
    match act.run s with
    | (.ok a, s) => (next a).run s
    | (.error e, s) => (.error e, s)

instance : LawfulMonad (StoreM σ) :=
  LawfulMonad.mk' (StoreM σ)
    (by
      intro α act
      apply StoreM.ext
      funext s
      change (match act.run s with
        | (.ok a, s) => (.ok a, s)
        | (.error e, s) => (.error e, s)) = act.run s
      split <;> simp_all)
    (by intro α β a next; rfl)
    (by
      intro α β γ act next last
      apply StoreM.ext
      funext s
      simp only [bind]
      cases act.run s with
      | mk result s => cases result <;> rfl)

@[always_inline]
instance : MonadStateOf σ (StoreM σ) where
  get := ofRun fun s => (.ok s, s)
  set s := ofRun fun _ => (.ok (), s)
  modifyGet f := ofRun fun s => (.ok (f s).1, (f s).2)

@[always_inline]
instance : MonadExceptOf StoreError (StoreM σ) where
  throw e := ofRun fun s => (.error e, s)
  tryCatch act handle := ofRun fun s =>
    match act.run s with
    | (.ok a, s) => (.ok a, s)
    | (.error e, s) => (handle e).run s

def attempt (act : StoreM σ α) : StoreM σ (Except StoreError α) :=
  ofRun fun s => (.ok (act.run s).1, (act.run s).2)

@[inline]
def zoom (part : τ → σ) (put : σ → τ → τ) (act : StoreM σ α) : StoreM τ α :=
  ofRun fun whole =>
    match act.run (part whole) with
    | (result, after) => (result, put after whole)

def onFirst (act : StoreM σ α) : StoreM (σ × τ) α := act.zoom Prod.fst fun s p => (s, p.2)

def onSecond (act : StoreM τ α) : StoreM (σ × τ) α := act.zoom Prod.snd fun t p => (p.1, t)

@[simp] theorem run_pure (a : α) (s : σ) : (pure a : StoreM σ α).run s = (.ok a, s) := rfl

theorem run_bind (act : StoreM σ α) (next : α → StoreM σ β) (s : σ) :
    (act >>= next).run s =
      match act.run s with
      | (.ok a, s) => (next a).run s
      | (.error e, s) => (.error e, s) := rfl

@[simp] theorem run_map (f : α → β) (act : StoreM σ α) (s : σ) :
    (f <$> act).run s = ((act.run s).1.map f, (act.run s).2) := by
  change (match act.run s with
    | (.ok a, s) => (Except.ok (f a), s)
    | (.error e, s) => (Except.error e, s)) = _
  split <;> simp_all [Except.map]

theorem run_bind_ok {act : StoreM σ α} {s t : σ} {a : α} (h : act.run s = (.ok a, t))
    (next : α → StoreM σ β) : (act >>= next).run s = (next a).run t := by
  rw [run_bind, h]

theorem run_bind_error {act : StoreM σ α} {s t : σ} {e : StoreError}
    (h : act.run s = (.error e, t)) (next : α → StoreM σ β) :
    (act >>= next).run s = (.error e, t) := by
  rw [run_bind, h]

@[simp] theorem run_throw (e : StoreError) (s : σ) :
    (throw e : StoreM σ α).run s = (.error e, s) := rfl

@[simp] theorem run_get (s : σ) : (get : StoreM σ σ).run s = (.ok s, s) := rfl

@[simp] theorem run_set (t s : σ) : (set t : StoreM σ PUnit).run s = (.ok (), t) := rfl

@[simp] theorem run_modify (f : σ → σ) (s : σ) :
    (modify f : StoreM σ PUnit).run s = (.ok (), f s) := rfl

theorem run_tryCatch (act : StoreM σ α) (handle : StoreError → StoreM σ α) (s : σ) :
    (tryCatch act handle).run s =
      match act.run s with
      | (.ok a, s) => (.ok a, s)
      | (.error e, s) => (handle e).run s := rfl

@[simp] theorem run_attempt (act : StoreM σ α) (s : σ) :
    act.attempt.run s = (.ok (act.run s).1, (act.run s).2) := rfl

@[simp] theorem run_zoom (part : τ → σ) (put : σ → τ → τ) (act : StoreM σ α) (t : τ) :
    (act.zoom part put).run t = ((act.run (part t)).1, put (act.run (part t)).2 t) := rfl

@[simp] theorem run_onFirst (act : StoreM σ α) (s : σ) (t : τ) :
    (act.onFirst).run (s, t) = ((act.run s).1, (act.run s).2, t) := rfl

@[simp] theorem run_onSecond (act : StoreM τ α) (s : σ) (t : τ) :
    (act.onSecond).run (s, t) = ((act.run t).1, s, (act.run t).2) := rfl

@[simp] theorem run_ite (c : Prop) [Decidable c] (yes no : StoreM σ α) (s : σ) :
    (if c then yes else no).run s = if c then yes.run s else no.run s := by
  split <;> rfl

end StoreM

end ByteTower
