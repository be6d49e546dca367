import ByteTower.Store.Basic

namespace ByteTower.StoreM

variable {σ τ α β : Type} {act : StoreM σ α} {s : σ}
variable {good : α → σ → Prop} {bad : StoreError → σ → Prop}

/-- Run on `s`, `act` yields a result and a state that are `good`, or fails with an error and a
state that are `bad`. -/
def Meets (act : StoreM σ α) (s : σ) (good : α → σ → Prop) (bad : StoreError → σ → Prop) : Prop :=
  match act.run s with
  | (.ok a, t) => good a t
  | (.error e, t) => bad e t

theorem meets_of_ok {a : α} {t : σ} (h : act.run s = (.ok a, t)) (hg : good a t) :
    act.Meets s good bad := by
  rw [Meets, h]
  exact hg

theorem meets_of_error {e : StoreError} {t : σ} (h : act.run s = (.error e, t)) (hb : bad e t) :
    act.Meets s good bad := by
  rw [Meets, h]
  exact hb

theorem meets_iff : act.Meets s good bad ↔
    (∀ a t, act.run s = (.ok a, t) → good a t) ∧ ∀ e t, act.run s = (.error e, t) → bad e t := by
  unfold Meets
  rcases act.run s with ⟨_ | _, _⟩ <;> simp

theorem meets_true : act.Meets s (fun _ _ => True) fun _ _ => True :=
  meets_iff.2 ⟨fun _ _ _ => trivial, fun _ _ _ => trivial⟩

theorem Meets.of_run_ok {a : α} {t : σ} (h : act.Meets s good bad)
    (hr : act.run s = (.ok a, t)) : good a t := (meets_iff.1 h).1 a t hr

theorem Meets.of_run_error {e : StoreError} {t : σ} (h : act.Meets s good bad)
    (hr : act.run s = (.error e, t)) : bad e t := (meets_iff.1 h).2 e t hr

theorem Meets.state {p : σ → Prop} (h : act.Meets s good bad) (hg : ∀ a t, good a t → p t)
    (hb : ∀ e t, bad e t → p t) : p (act.run s).2 := by
  rcases hr : act.run s with ⟨e | a, t⟩
  · exact hb e t (h.of_run_error hr)
  · exact hg a t (h.of_run_ok hr)

theorem Meets.imp {good' : α → σ → Prop} {bad' : StoreError → σ → Prop}
    (h : act.Meets s good bad) (hg : ∀ a t, good a t → good' a t)
    (hb : ∀ e t, bad e t → bad' e t) : act.Meets s good' bad' :=
  meets_iff.2 ⟨fun a t hr => hg a t (h.of_run_ok hr), fun e t hr => hb e t (h.of_run_error hr)⟩

theorem Meets.imp_ok {good' : α → σ → Prop} (h : act.Meets s good bad)
    (hg : ∀ a t, good a t → good' a t) : act.Meets s good' bad := h.imp hg fun _ _ hb => hb

theorem Meets.imp_error {bad' : StoreError → σ → Prop} (h : act.Meets s good bad)
    (hb : ∀ e t, bad e t → bad' e t) : act.Meets s good bad' := h.imp (fun _ _ hg => hg) hb

theorem Meets.exists_run (h : act.Meets s good fun _ _ => False) :
    ∃ a t, act.run s = (.ok a, t) ∧ good a t := by
  rcases hr : act.run s with ⟨e | a, t⟩
  · exact (h.of_run_error hr).elim
  · exact ⟨a, t, rfl, h.of_run_ok hr⟩

theorem Meets.and {good' : α → σ → Prop} {bad' : StoreError → σ → Prop}
    (h : act.Meets s good bad) (h' : act.Meets s good' bad') :
    act.Meets s (fun a t => good a t ∧ good' a t) fun e t => bad e t ∧ bad' e t :=
  meets_iff.2 ⟨fun _ _ hr => ⟨h.of_run_ok hr, h'.of_run_ok hr⟩,
    fun _ _ hr => ⟨h.of_run_error hr, h'.of_run_error hr⟩⟩

theorem Meets.map {g : α → β} {good : β → σ → Prop} (h : act.Meets s (fun a t => good (g a) t) bad) :
    (g <$> act).Meets s good bad := by
  rcases hr : act.run s with ⟨e | a, t⟩
  · exact meets_of_error (by rw [run_map, hr]; rfl) (h.of_run_error hr)
  · exact meets_of_ok (by rw [run_map, hr]; rfl) (h.of_run_ok hr)

theorem run_of_map_error {g : α → β} {t : σ} {e : StoreError}
    (h : (g <$> act).run s = (.error e, t)) : act.run s = (.error e, t) := by
  rw [run_map] at h
  rcases hr : act.run s with ⟨e' | a, u⟩
  · rw [hr] at h
    exact Prod.ext (congrArg Except.error (Except.error.inj (Prod.mk.inj h).1)) (Prod.mk.inj h).2
  · rw [hr] at h
    cases (Prod.mk.inj h).1

/-- The rest of a computation has to meet its end only where the first part succeeds. -/
theorem Meets.bind {next : α → StoreM σ β} {good' : β → σ → Prop} (h : act.Meets s good bad)
    (hn : ∀ a t, good a t → (next a).Meets t good' bad) : (act >>= next).Meets s good' bad := by
  rcases hr : act.run s with ⟨e | a, t⟩
  · exact meets_of_error (run_bind_error hr next) (h.of_run_error hr)
  · have ha := hn a t (h.of_run_ok hr)
    rwa [Meets, ← run_bind_ok hr next] at ha

theorem Meets.bind_unfailing {next : α → StoreM σ β} {good' : β → σ → Prop}
    {bad' : StoreError → σ → Prop} (h : act.Meets s good fun _ _ => False)
    (hn : ∀ a t, good a t → (next a).Meets t good' bad') : (act >>= next).Meets s good' bad' :=
  (h.imp_error fun _ _ hf => hf.elim).bind hn

theorem meets_pure {a : α} (h : good a s) : (pure a : StoreM σ α).Meets s good bad := h

theorem meets_throw {e : StoreError} (h : bad e s) : (throw e : StoreM σ α).Meets s good bad := h

theorem meets_get_bind {next : σ → StoreM σ α} (h : (next s).Meets s good bad) :
    (get >>= next).Meets s good bad := h

theorem meets_set {t : σ} {good : PUnit → σ → Prop} (h : good ⟨⟩ t) :
    (set t : StoreM σ PUnit).Meets s good bad := h

theorem meets_set_bind {t : σ} {next : PUnit → StoreM σ α} (h : (next ⟨⟩).Meets t good bad) :
    ((set t : StoreM σ PUnit) >>= next).Meets s good bad := h

theorem meets_modify {f : σ → σ} {good : PUnit → σ → Prop} (h : good ⟨⟩ (f s)) :
    (modify f : StoreM σ PUnit).Meets s good bad := h

theorem meets_modify_bind {f : σ → σ} {next : PUnit → StoreM σ α}
    (h : (next ⟨⟩).Meets (f s) good bad) :
    ((modify f : StoreM σ PUnit) >>= next).Meets s good bad := h

theorem meets_requireOpen_bind {closed : Bool} {next : Unit → StoreM σ α} (hc : closed = false)
    (h : (next ()).Meets s good bad) : (requireOpen closed >>= next).Meets s good bad := by
  subst hc
  exact h

/-- A computation that first asks whether the state is open does nothing where it is closed. -/
theorem run_refused {closed : σ → Bool} (hc : closed s = true) (next : σ → Unit → StoreM σ α) :
    (get >>= fun t => requireOpen (closed t) >>= next t).run s = (.error .closed, s) := by
  simp [run_bind, requireOpen, hc]

theorem meets_checkPosition_bind {pos : Nat} {next : Unit → StoreM σ α} (hp : pos ≤ maxPosition)
    (h : (next ()).Meets s good bad) : (checkPosition pos >>= next).Meets s good bad := by
  rw [checkPosition, if_neg (by omega)]
  exact h

theorem meets_endOf_bind {pos count : Nat} {next : Nat → StoreM σ α}
    (hp : pos + count ≤ maxPosition) (h : (next (pos + count)).Meets s good bad) :
    (endOf pos count >>= next).Meets s good bad := by
  rw [endOf, if_neg (by omega)]
  exact h

theorem Meets.handle {handle : StoreError → StoreM σ α} {bad' : StoreError → σ → Prop}
    (h : act.Meets s good bad') (hh : ∀ e t, bad' e t → (handle e).Meets t good bad) :
    (tryCatch act handle).Meets s good bad := by
  rcases hr : act.run s with ⟨e | a, t⟩
  · have he := hh e t (h.of_run_error hr)
    rwa [Meets, show (tryCatch act handle).run s = (handle e).run t by rw [run_tryCatch, hr]]
  · exact meets_of_ok (by rw [run_tryCatch, hr]) (h.of_run_ok hr)

theorem Meets.zoom {part : τ → σ} {put : σ → τ → τ} {t : τ} {good' : α → τ → Prop}
    {bad' : StoreError → τ → Prop}
    (h : act.Meets (part t) (fun a s => good' a (put s t)) fun e s => bad' e (put s t)) :
    (act.zoom part put).Meets t good' bad' := by
  rcases hr : act.run (part t) with ⟨e | a, s⟩
  · exact meets_of_error (by rw [run_zoom, hr]) (h.of_run_error hr)
  · exact meets_of_ok (by rw [run_zoom, hr]) (h.of_run_ok hr)

theorem Meets.embed {put : σ → τ} {act' : StoreM τ α} {good' : α → τ → Prop}
    {bad' : StoreError → τ → Prop}
    (h : act.Meets s (fun a t => good' a (put t)) fun e t => bad' e (put t))
    (hrun : act'.run (put s) = ((act.run s).1, put (act.run s).2)) :
    act'.Meets (put s) good' bad' := by
  rcases hr : act.run s with ⟨e | a, t⟩
  · exact meets_of_error (by rw [hrun, hr]) (h.of_run_error hr)
  · exact meets_of_ok (by rw [hrun, hr]) (h.of_run_ok hr)

/-- The state after these computations, one after the other, whether they fail or not. -/
def leave (acts : List (StoreM σ α)) (s : σ) : σ := acts.foldl (fun s act => (act.run s).2) s

theorem leave_append (acts acts' : List (StoreM σ α)) (s : σ) :
    leave (acts ++ acts') s = leave acts' (leave acts s) := List.foldl_append

theorem leave_of_step {p : σ → Prop} {acts : List (StoreM σ α)}
    (h : ∀ act ∈ acts, ∀ s, p s → p (act.run s).2) (hs : p s) : p (leave acts s) := by
  induction acts generalizing s with
  | nil => exact hs
  | cons act acts ih =>
    exact ih (fun act hact => h act (List.mem_cons_of_mem _ hact)) (h act List.mem_cons_self s hs)

end ByteTower.StoreM
