import ByteTower.Proofs.Closing
import ByteTower.Proofs.Delivery
import ByteTower.Proofs.Edits

namespace ByteTower

open StoreM

section Mimics

variable {σ τ α β : Type} {Good After : σ → Prop} {view : σ → τ} {act : StoreM σ α}
variable {model : StoreM τ α} {s : σ}

/-- The last part may leave less of a state than the parts before it, if that is less. -/
theorem Mimics.bind_last {next : α → StoreM σ β} {next' : α → StoreM τ β}
    (hafter : ∀ s, Good s → After s) (h : Mimics Good view act model s)
    (hn : ∀ a t, Good t → Mimics After view (next a) (next' a) t) :
    Mimics After view (act >>= next) (model >>= next') s := by
  obtain ⟨ht, hm⟩ := h
  rcases ha : act.run s with ⟨e | a, t⟩
  · rw [ha] at ht hm
    exact .of_run (run_bind_error ha next) (hafter t ht) (run_bind_error hm next')
  · rw [ha] at ht hm
    obtain ⟨hu, hm'⟩ := hn a t ht
    refine .of_run (run_bind_ok ha next) hu ?_
    rw [run_bind_ok hm next']
    exact hm'

end Mimics

/-- Closing a good store, and letting go of it, does what it does to its view, and leaves it as it may
be in the end. -/
structure Parts {σ τ : Type} [Storage σ] [Storage τ] (Good After : σ → Prop) (view : σ → τ) :
    Prop where
  close : ∀ s, Good s → Mimics After view Storage.close Storage.close s
  release : ∀ s, Good s →
    After (Storage.release s) ∧ view (Storage.release s) = Storage.release (view s)
  after : ∀ s, Good s → After s

section Layers

variable {σ τ : Type} [Storage σ] [Storage τ] {Good After : σ → Prop} {view : σ → τ}
variable (hp : Parts Good After view)

include hp

theorem ReadAhead.parts : Parts (Over Good) (Over After) (mapInner view) where
  close c hc := by
    have hafter : Over After c := hp.after c.inner hc
    apply mimics_get_bind
    apply mimics_ite (fun _ => mimics_pure hafter ())
    intro _
    have hinner : Mimics (Over After) (mapInner view) (onInner Storage.close)
        (onInner Storage.close) c := mimics_onInner (hp.close c.inner hc)
    exact hinner.bind fun _ _ hd => mimics_modify hd rfl
  release c hc := by
    obtain ⟨hafter, hview⟩ := hp.release c.inner hc
    exact ⟨hafter, congrArg (fun inner => { mapInner view c with inner }) hview⟩
  after c hc := hp.after c.inner hc

theorem WriteBehind.parts (h : Imitates Good view) :
    Parts (Over Good) (Over After) (mapInner view) where
  close c hc := by
    have hafter : Over After c := hp.after c.inner hc
    apply mimics_get_bind
    apply mimics_ite (fun _ => mimics_pure hafter ())
    intro _
    apply (mimics_settle h hc).bind_last fun d hd => hp.after d.inner hd
    intro _ d hd
    have hinner : Mimics (Over After) (mapInner view) (onInner Storage.close)
        (onInner Storage.close) d := mimics_onInner (hp.close d.inner hd)
    exact hinner.bind fun _ _ hu => mimics_modify hu rfl
  release c hc := by
    cases ho : c.closed with
    | true =>
      obtain ⟨hafter, hview⟩ := hp.release c.inner hc
      rw [release_of_closed ho, release_of_closed (c := mapInner view c) ho]
      exact ⟨hafter, congrArg (fun inner => { mapInner view c with inner }) hview⟩
    | false =>
      obtain ⟨hd, hm⟩ := mimics_settle h hc
      obtain ⟨hafter, hview⟩ := hp.release (settle.run c).2.inner hd
      rw [release_of_open ho, release_of_open (c := mapInner view c) ho, hm]
      exact ⟨hafter, congrArg (fun inner => { mapInner view (settle.run c).2 with inner }) hview⟩
  after c hc := hp.after c.inner hc

theorem BlockView.parts {κ : Type} :
    Parts (Over (κ := κ) Good) (Over After) (mapInner view) where
  close v hv := by
    have hinner : Mimics (Over After) (mapInner view) (onInner Storage.close)
        (onInner Storage.close) v := mimics_onInner (hp.close v.inner hv)
    exact hinner
  release v hv := by
    obtain ⟨hafter, hview⟩ := hp.release v.inner hv
    exact ⟨hafter, congrArg (fun inner => { mapInner view v with inner }) hview⟩
  after v hv := hp.after v.inner hv

end Layers

section Wraps

variable {σ τ : Type} [Storage σ] [Storage τ] {Good : σ → Prop} {view : σ → τ} {s : σ} {size : Nat}

theorem ReadsLike.exists_run_cursor (h : ReadsLike Good view) (hs : Good s) {cursor : Nat} {u : τ}
    (hrun : (Storage.cursor : StoreM τ Nat).run (view s) = (.ok cursor, u)) :
    ∃ t, (Storage.cursor : StoreM σ Nat).run s = (.ok cursor, t) ∧ Good t ∧ u = view t := by
  obtain ⟨ht, hm⟩ := h.cursor s hs
  rw [hm] at hrun
  obtain ⟨hok, hview⟩ := Prod.mk.inj hrun
  exact ⟨_, Prod.ext hok rfl, ht, hview.symm⟩

theorem ReadAhead.exists_wrap_of_view (h : ReadsLike Good view) (hs : Good s) {c : ReadAhead τ}
    (hw : wrap size (view s) = .ok c) :
    ∃ d, wrap size s = .ok d ∧ Over Good d ∧ mapInner view d = c := by
  obtain ⟨hsize, cursor, u, hrun, rfl⟩ := wrap_eq_ok.1 hw
  obtain ⟨t, hfound, ht, rfl⟩ := h.exists_run_cursor hs hrun
  exact ⟨_, wrap_eq_ok.2 ⟨hsize, cursor, t, hfound, rfl⟩, ht, rfl⟩

theorem WriteBehind.exists_wrap_of_view (h : ReadsLike Good view) (hs : Good s) {c : WriteBehind τ}
    (hw : wrap size (view s) = .ok c) :
    ∃ d, wrap size s = .ok d ∧ Over Good d ∧ mapInner view d = c := by
  obtain ⟨hsize, cursor, u, hrun, rfl⟩ := wrap_eq_ok.1 hw
  obtain ⟨t, hfound, ht, rfl⟩ := h.exists_run_cursor hs hrun
  exact ⟨_, wrap_eq_ok.2 ⟨hsize, cursor, t, hfound, rfl⟩, ht, rfl⟩

omit [Storage σ] [Storage τ] in
theorem BlockView.exists_wrap_of_view {κ : Type} {c : BlockView κ τ}
    (hw : wrap size (view s) = .ok c) : ∃ d, wrap size s = .ok d ∧ mapInner view d = c := by
  obtain ⟨hsize, rfl⟩ := wrap_eq_ok.1 hw
  exact ⟨_, wrap_eq_ok.2 ⟨hsize, rfl⟩, rfl⟩

theorem Tower.exists_standard_of_view {κ : Type} (h : ReadsLike Good view) (hs : Good s) {sizes : Sizes}
    {c : Tower κ τ standardKinds} (hw : Tower.standard sizes (view s) = .ok c) :
    ∃ d : Tower κ σ standardKinds,
      Tower.standard sizes s = .ok d ∧ Good d.medium ∧ d.reseat view = c := by
  obtain ⟨hcheck, behind, ahead, hbehind, hahead, hview⟩ := standard_eq_ok hw
  obtain ⟨behind', hb, hgood, rfl⟩ := WriteBehind.exists_wrap_of_view h hs hbehind
  obtain ⟨ahead', ha, hgood', rfl⟩ :=
    ReadAhead.exists_wrap_of_view (WriteBehind.readsLike h) hgood hahead
  obtain ⟨blocks, hblocks, hmap⟩ := BlockView.exists_wrap_of_view hview
  refine ⟨blocks, ?_, ?_, hmap⟩
  · simp only [Tower.standard, hcheck, hb, ha, hblocks]
  · show Good blocks.inner.inner.inner
    rw [BlockView.of_wrap hblocks]
    exact hgood'

end Wraps
namespace Tower

variable {κ μ ν : Type} [Storage μ] [Storage ν] {Good After : μ → Prop} {view : μ → ν}

omit [Storage μ] [Storage ν] in
theorem medium_reseat : ∀ {kinds : List LayerKind} (t : Tower κ μ kinds),
    (t.reseat view).medium = view t.medium
  | [], _ => rfl
  | .readAhead :: kinds, c => @medium_reseat kinds c.inner
  | .writeBehind :: kinds, c => @medium_reseat kinds c.inner
  | .blocks :: kinds, v => @medium_reseat kinds v.inner

theorem parts (h : Imitates Good view) (hp : Parts Good After view) : ∀ kinds,
    Parts (fun t : Tower κ μ kinds => Good t.medium) (fun t => After t.medium) (reseat view)
  | [] => hp
  | .readAhead :: kinds => ReadAhead.parts (parts h hp kinds)
  | .writeBehind :: kinds => WriteBehind.parts (parts h hp kinds) (imitates h kinds)
  | .blocks :: kinds => BlockView.parts (parts h hp kinds)

end Tower

theorem Contract.blames_nothing {σ : Type} [Storage σ] [Meaning σ] {Good : σ → Prop}
    (h : Contract .never Good) : Blames Good fun _ => 0 where
  seek pos s hs ho hpos := by
    apply (h.meets_seek hs ho (Or.inr hpos)).imp
    · exact fun _ _ _ => Nat.le_refl 0
    · exact fun _ _ ht => ht.2.1.elim
  write data s hs ho hd hfit := by
    apply (h.toWriting.meets_write hs ho hd hfit).imp
    · exact fun _ _ _ => Nat.le_refl 0
    · exact fun _ _ ht => ht.2.1.elim

namespace Tower

variable {κ μ ν : Type} [Storage μ] [Storage ν] [Meaning ν] {Good After : μ → Prop} {view : μ → ν}
variable {Fine : ν → Prop} {kinds : List LayerKind} {t : Tower κ μ kinds}

theorem exists_standard_seen (h : Contract .never Fine) (hi : ReadsLike Good view) {m : μ}
    (hm : Good m) (hfine : Fine (view m)) (ho : (plain (view m)).closed = false) {sizes : Sizes}
    (hsizes : sizes.check = .ok ()) : ∃ t : Tower κ μ standardKinds,
      Tower.standard sizes m = .ok t ∧ t.Seen Good view Fine ∧
        plain (t.reseat view) = plain (view m) := by
  obtain ⟨c, hc⟩ := exists_standard (κ := κ) h.unversioned id (i := 0) hfine hsizes trivial ho
  obtain ⟨t, ht, hmedium, rfl⟩ := exists_standard_of_view hi hm hc
  obtain ⟨hsound, hp⟩ := sound_of_standard (κ := κ) h.unversioned (fun _ _ _ => trivial) []
    (i := 0) hfine hc
  exact ⟨t, ht, ⟨hmedium, hsound⟩, hp⟩

variable (h : Contract .never Fine) (hi : Imitates Good view) (hp : Parts Good After view)
variable (ht : t.Seen Good view Fine) (ho : (plain (t.reseat view)).closed = false)

include h hi hp ht ho

/-- An open tower closes, and its medium is seen to have all that the tower showed. -/
theorem Seen.close : Storage.close.Meets t
    (fun _ u => After u.medium ∧ (plain (view u.medium)).bytes = (plain (t.reseat view)).bytes)
    fun _ _ => False := by
  have hc := AnyTower.contract_of_medium (κ := κ) h kinds
  have hopen : Storage.isClosed (t.reseat view) = false := (hc.isClosed _ ht.2).trans ho
  have hmodel : Storage.close.Meets (t.reseat view)
      (fun _ u => (plain u.medium).bytes = (plain (t.reseat view)).bytes) fun _ _ => False := by
    apply meets_iff.2
    constructor
    · intro _ u hrun
      exact (AnyTower.close_delivers h ht.2 hopen hrun).bytes
    · intro _ u hrun
      exact ((hc.meets_close ht.2).of_run_error hrun).2.1
  apply (((parts hi hp kinds).close t ht.1).meets hmodel).imp
  · intro _ u hu
    rw [medium_reseat] at hu
    exact hu
  · exact fun _ _ hu => hu.2

theorem Seen.release (hlet : ∀ m : ν, Storage.release m = m) :
    After (Storage.release t).medium ∧
      (plain (view (Storage.release t).medium)).bytes = (plain (t.reseat view)).bytes := by
  obtain ⟨hafter, hview⟩ := (parts hi hp kinds).release t ht.1
  have hdelivers := (Tower.release_delivers h h.blames_nothing hlet ht.2 ho).2 rfl
  rw [← hview, medium_reseat] at hdelivers
  exact ⟨hafter, hdelivers⟩

end Tower

end ByteTower
