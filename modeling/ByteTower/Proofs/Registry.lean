import ByteTower.Proofs.Tracking

namespace ByteTower

open StoreM

inductive RegisterCall (κ : Type)
  | add (listener : κ)
  | remove (id : Nat)

inductive RegisterAnswer
  /-- The number of the new registration. -/
  | number (id : Nat)
  /-- Whether there was such a registration. -/
  | flag (found : Bool)
deriving DecidableEq

def RegisterAnswer.number? : RegisterAnswer → Option Nat
  | number id => some id
  | flag _ => none

namespace Register

variable {κ : Type}

def call (r : Register κ) : RegisterCall κ → RegisterAnswer × Register κ
  | .add listener => (.number (r.add listener).1, (r.add listener).2)
  | .remove id => (.flag (r.contains id), r.erase id)

/-- The register after these calls. -/
def after (r : Register κ) (calls : List (RegisterCall κ)) : Register κ :=
  calls.foldl (fun r c => (r.call c).2) r

/-- The numbers that these calls answer. -/
def issued (r : Register κ) : List (RegisterCall κ) → List Nat
  | [] => []
  | c :: calls => (r.call c).1.number?.toList ++ issued (r.call c).2 calls

/-- The registrations stand in the order of their numbers, and the next number is beyond them. -/
structure Ordered (r : Register κ) : Prop where
  increasing : r.ids.Pairwise (· < ·)
  below : ∀ id ∈ r.ids, id < r.next

variable {r : Register κ} {id : Nat}

@[simp] theorem ids_add (r : Register κ) (listener : κ) : (r.add listener).2.ids = r.ids ++ [r.next] := by
  simp [ids, add]

theorem ids_erase (r : Register κ) (id : Nat) : (r.erase id).ids = r.ids.eraseP (· == id) := by
  rw [ids, ids, List.eraseP_map]
  rfl

theorem ordered_empty : (({} : Register κ)).Ordered := ⟨List.Pairwise.nil, by intro id hid; cases hid⟩

theorem Ordered.add (h : r.Ordered) (listener : κ) : (r.add listener).2.Ordered where
  increasing := by
    rw [ids_add, List.pairwise_append]
    refine ⟨h.increasing, List.pairwise_singleton _ _, ?_⟩
    intro id hid next hnext
    rw [List.mem_singleton.1 hnext]
    exact h.below id hid
  below id hid := by
    rw [ids_add, List.mem_append, List.mem_singleton] at hid
    rcases hid with hid | rfl
    · exact Nat.lt_succ_of_lt (h.below id hid)
    · exact Nat.lt_succ_self _

theorem Ordered.erase (h : r.Ordered) (id : Nat) : (r.erase id).Ordered where
  increasing := by
    rw [ids_erase]
    exact h.increasing.sublist List.eraseP_sublist
  below other hother := by
    rw [ids_erase] at hother
    exact h.below other (List.mem_of_mem_eraseP hother)

theorem Ordered.call (h : r.Ordered) (c : RegisterCall κ) : (r.call c).2.Ordered := by
  cases c with
  | add listener => exact h.add listener
  | remove id => exact h.erase id

theorem Ordered.after (h : r.Ordered) (calls : List (RegisterCall κ)) : (r.after calls).Ordered := by
  induction calls generalizing r with
  | nil => exact h
  | cons c calls ih => exact ih (h.call c)

/-- The numbers are given out one after the other, and the next one is the one behind them. -/
theorem issued_eq (r : Register κ) (calls : List (RegisterCall κ)) :
    r.issued calls = List.range' r.next (r.issued calls).length ∧
      (r.after calls).next = r.next + (r.issued calls).length := by
  -- a removal gives out no number and leaves the next one as it is
  induction calls generalizing r with
  | nil => exact ⟨rfl, rfl⟩
  | cons c calls ih =>
    obtain ⟨hnumbers, hnext⟩ := ih (r.call c).2
    cases c with
    | add listener =>
      have hissued : r.issued (.add listener :: calls) =
          r.next :: (r.add listener).2.issued calls := rfl
      refine ⟨?_, ?_⟩
      · rw [hissued, List.length_cons, List.range'_succ]
        exact congrArg (r.next :: ·) hnumbers
      · rw [hissued, List.length_cons]
        have hafter : (r.after (.add listener :: calls)).next =
          r.next + 1 + ((r.add listener).2.issued calls).length := hnext
        omega
    | remove id => exact ⟨hnumbers, hnext⟩

theorem Ordered.erase_present (h : r.Ordered) (hid : id ∈ r.ids) :
    ∃ before listener behind, r.entries = before ++ (id, listener) :: behind ∧
      (r.erase id).entries = before ++ behind ∧ id ∉ (r.erase id).ids := by
  obtain ⟨entry, hentry, rfl⟩ := List.mem_map.1 hid
  obtain ⟨found, before, behind, -, hfound, hsplit, herase⟩ :=
    List.exists_of_eraseP (p := fun other => other.1 == entry.1) hentry (beq_self_eq_true _)
  have hfound : found.1 = entry.1 := eq_of_beq hfound
  refine ⟨before, found.2, behind, ?_, herase, ?_⟩
  · rw [hsplit, ← hfound]
  · -- a number stands in the order only once
    have hnodup : r.ids.Nodup := h.increasing.imp Nat.ne_of_lt
    rw [ids_erase, ← List.erase_eq_eraseP']
    exact hnodup.not_mem_erase

theorem erase_absent (hid : id ∉ r.ids) : r.erase id = r := by
  have hnone : ∀ entry ∈ r.entries, ¬(entry.1 == id) = true := by
    intro entry hentry hbeq
    exact hid (List.mem_map.2 ⟨entry, hentry, eq_of_beq hbeq⟩)
  rw [erase, List.eraseP_of_forall_not hnone]

/-- A number that was given out and is no longer registered never is again. -/
theorem not_mem_after (hid : id ∉ r.ids) (hlt : id < r.next) (calls : List (RegisterCall κ)) :
    id ∉ (r.after calls).ids := by
  -- only a number that is still to be given out can come in, and this one is below it
  induction calls generalizing r with
  | nil => exact hid
  | cons c calls ih =>
    cases c with
    | add listener =>
      refine ih (r := (r.add listener).2) ?_ (Nat.lt_succ_of_lt hlt)
      rw [ids_add, List.mem_append, List.mem_singleton]
      rintro (hmem | rfl)
      · exact hid hmem
      · exact Nat.lt_irrefl _ hlt
    | remove other =>
      refine ih (r := r.erase other) ?_ hlt
      rw [ids_erase]
      exact fun hmem => hid (List.mem_of_mem_eraseP hmem)

/-- What holds of a register after any calls, from an empty one on. -/
structure Faithful (calls : List (RegisterCall κ)) (r : Register κ) : Prop where
  /-- The numbers in the order in which the listeners are told. -/
  increasing : r.ids.Pairwise (· < ·)
  /-- All numbers ever given out, in order: no two of them are the same. -/
  issued : ({} : Register κ).issued calls = List.range r.next
  added : ∀ listener, ∃ id, r.call (.add listener) =
    (.number id, { entries := r.entries ++ [(id, listener)], next := id + 1 }) ∧
      id ∉ ({} : Register κ).issued calls
  found : ∀ id, (r.call (.remove id)).1 = .flag (decide (id ∈ r.ids))
  absent : ∀ id, id ∉ r.ids → (r.call (.remove id)).2 = r
  removed : ∀ id ∈ r.ids, ∃ before listener behind,
    r.entries = before ++ (id, listener) :: behind ∧
      (r.call (.remove id)).2.entries = before ++ behind
  /-- Whatever is done later, a number that was removed is not found again. -/
  gone : ∀ id ∈ r.ids, ∀ later,
    (((r.call (.remove id)).2.after later).call (.remove id)).1 = .flag false

theorem call_remove_fst (r : Register κ) (id : Nat) :
    (r.call (.remove id)).1 = .flag (decide (id ∈ r.ids)) := by
  rw [call, contains, List.contains_eq_mem]

theorem faithful_after (calls : List (RegisterCall κ)) : Faithful calls (({} : Register κ).after calls) := by
  have hordered := (ordered_empty (κ := κ)).after calls
  obtain ⟨hnumbers, hnext⟩ := issued_eq ({} : Register κ) calls
  have hissued : ({} : Register κ).issued calls = List.range (({} : Register κ).after calls).next := by
    rw [hnext, hnumbers, List.length_range', List.range_eq_range']
    exact congrArg (List.range' 0) (Nat.zero_add _).symm
  refine ⟨hordered.increasing, hissued, ?_, call_remove_fst _, fun _ => erase_absent, ?_, ?_⟩
  · intro listener
    refine ⟨_, rfl, ?_⟩
    rw [hissued, List.mem_range]
    exact Nat.lt_irrefl _
  · intro id hid
    obtain ⟨before, listener, behind, hsplit, herase, -⟩ := hordered.erase_present hid
    exact ⟨before, listener, behind, hsplit, herase⟩
  · intro id hid later
    obtain ⟨-, -, -, -, -, hgone⟩ := hordered.erase_present hid
    have hlater := not_mem_after hgone (hordered.below id hid) later
    rw [call_remove_fst]
    exact congrArg RegisterAnswer.flag (decide_eq_false hlater)

end Register

section Notices

variable {κ ω σ : Type} [Audience κ ω] [Storage σ] {change : Change} {world world' : ω}
variable {outcome : Except StoreError Unit} {called : List κ}

/-- These listeners were told of a change, one after the other, and all but the last one took it: with
its answer the telling ends. -/
inductive Told (change : Change) : List κ → ω → Except StoreError Unit → ω → Prop
  | nobody (world : ω) : Told change [] world (.ok ()) world
  | took {l : κ} {called : List κ} {world world' world'' : ω} {outcome : Except StoreError Unit}
      (hears : (Audience.hear l change).run world = (.ok (), world'))
      (rest : Told change called world' outcome world'') : Told change (l :: called) world outcome world''
  | refused {l : κ} {world world' : ω} {e : StoreError}
      (hears : (Audience.hear l change).run world = (.error e, world')) :
      Told change [l] world (.error e) world'

/-- The log has every listener that hears of a change, and the change. -/
def Records (log : ω → List (κ × Change)) : Prop :=
  ∀ l change world, log ((Audience.hear l change).run world).2 = log world ++ [(l, change)]

theorem Told.log_eq {log : ω → List (κ × Change)} (h : Told change called world outcome world')
    (hlog : Records log) : log world' = log world ++ called.map (·, change) := by
  induction h with
  | nobody => exact (List.append_nil _).symm
  | @took l _ world _ _ _ hears _ ih =>
    have hl := hlog l change world
    rw [hears] at hl
    rw [ih, hl, List.append_assoc]
    rfl
  | @refused l world _ _ hears =>
    have hl := hlog l change world
    rw [hears] at hl
    exact hl

/-- The telling ends with the first listener that fails. -/
theorem exists_told (listeners : List κ) (change : Change) (world : ω) :
    ∃ called, called <+: listeners ∧
      Told change called world ((tell listeners change).run world).1
        ((tell listeners change).run world).2 ∧
      (((tell listeners change).run world).1 = .ok () → called = listeners) := by
  induction listeners generalizing world with
  | nil => exact ⟨[], List.prefix_refl _, .nobody world, fun _ => rfl⟩
  | cons l listeners ih =>
    rw [tell_cons]
    rcases hr : (Audience.hear l change).run world with ⟨e | ⟨⟩, world'⟩
    · -- those behind it hear nothing
      rw [run_bind_error hr]
      refine ⟨[l], List.prefix_append [l] listeners, .refused hr, ?_⟩
      intro hok
      cases hok
    · obtain ⟨called, hprefix, htold, hall⟩ := ih world'
      rw [run_bind_ok hr]
      exact ⟨l :: called, List.cons_prefix_cons.2 ⟨rfl, hprefix⟩, .took hr htold,
        fun hok => congrArg (l :: ·) (hall hok)⟩

theorem Edit.register_act (edit : Edit) (v : BlockView κ σ) :
    (edit.act.run v).2.register = v.register := by
  have hkept : BlockView.KeptBelow fun w : BlockView κ σ => w.register = v.register :=
    BlockView.keptBelow_beside fun _ _ hw => hw
  cases edit with
  | insert index count => exact ends_iff.1 (BlockView.ends_openGap hkept rfl index count)
  | delete index count => exact ends_iff.1 (BlockView.ends_closeGap hkept rfl index count)
  | write block offset data => exact ends_iff.1 (BlockView.ends_writeBlock hkept rfl block offset data)

/-- What an edit of `v` does to the listeners. -/
structure Edit.Announces (edit : Edit) (change : Change) (v : BlockView κ σ) (world : ω) : Prop where
  /-- Where the blocks are not moved in full, nobody is told. -/
  silent : ∀ e w, edit.act.run v = (.error e, w) → edit.run.run (v, world) = (.error e, w, world)
  told : ∀ w, edit.act.run v = (.ok (), w) → w.register = v.register ∧
    ∃ called outcome world', edit.run.run (v, world) = (outcome, w, world') ∧
      called <+: v.register.listeners ∧ Told change called world outcome world' ∧
      (outcome = .ok () → called = v.register.listeners) ∧
      ∀ log : ω → List (κ × Change), Records log → log world' = log world ++ called.map (·, change)

theorem Edit.announces {edit : Edit} (hchange : edit.change? = some change) (v : BlockView κ σ)
    (world : ω) : edit.Announces change v world where
  silent _ _ h := run_of_error h
  told w h := by
    have hregister : w.register = v.register := by
      have hkept := edit.register_act v
      rwa [h] at hkept
    obtain ⟨called, hprefix, htold, hall⟩ := exists_told w.register.listeners change world
    have hlisteners : w.register.listeners = v.register.listeners := congrArg Register.listeners hregister
    rw [hlisteners] at hprefix
    exact ⟨hregister, called, _, _, run_of_change hchange h, hprefix, htold,
      fun hok => (hall hok).trans hlisteners, fun log hlog => htold.log_eq hlog⟩

/-- Whatever calls have made a register what it is, its numbers are in order and were each given out
once, and removing one takes it out for good. And whatever its listeners do, an edit of blocks that is
made in full tells them of it in that order, each registration once, up to the first that fails, and an
edit that fails tells nobody. -/
theorem registered_are_told_in_order (made : List (RegisterCall κ)) :
    (({} : Register κ).after made).Faithful made ∧
      ∀ v : BlockView κ σ, v.register = ({} : Register κ).after made → ∀ (edit : Edit) (change : Change),
        edit.change? = some change → ∀ world : ω, edit.Announces change v world :=
  ⟨Register.faithful_after made, fun v _ _ _ hchange world => Edit.announces hchange v world⟩

end Notices

def Cast.diary (c : Cast) : List (String × Change) := c.heard.reverse

theorem Cast.records_diary : Records (κ := String) Cast.diary := by
  intro name change c
  show ((hear name change).run c).2.heard.reverse = _
  rw [heard_hear, List.reverse_cons]
  rfl

/-- One registration is removed, and of the others two have the same listener. -/
def enrolled : List (RegisterCall String) :=
  [.add "twin", .add "first", .remove 0, .add "twin", .add "twin", .add "last"]

def attended : BlockView String Memory :=
  { inner := .ofBytes (.ofOctets [1, 2, 3, 4, 5]), blockSize := 2, blockSize_pos := by decide,
    register := ({} : Register String).after enrolled }

def patient : Cast := { scripts := [("twin", { objection := some .io, grace := 1 })] }

theorem registered_are_told_in_order_of_enrolled :
    attended.register.entries = [(1, "first"), (2, "twin"), (3, "twin"), (4, "last")] ∧
      ({} : Register String).issued enrolled = [0, 1, 2, 3, 4] ∧
      (∃ outcome w world', (Edit.insert 1 1).run.run (attended, patient) = (outcome, w, world') ∧
        outcome.isOk = false ∧
        Told (.inserted 1 1) ["first", "twin", "twin"] patient outcome world') ∧
      ∃ e w, (Edit.delete 1 2).run.run (attended, patient) = (.error e, w, patient) := by
  obtain ⟨hfaithful, htelling⟩ :=
    registered_are_told_in_order (σ := Memory) (ω := Cast) enrolled
  refine ⟨by decide, hfaithful.issued, ?_, ?_⟩
  · have hok : ((Edit.insert 1 1).act.run attended).1.isOk = true := by decide +kernel
    have hdiary : ((Edit.insert 1 1).run.run (attended, patient)).2.2.diary =
        ["first", "twin", "twin"].map (·, .inserted 1 1) := by decide +kernel
    have hfails : ((Edit.insert 1 1).run.run (attended, patient)).1.isOk = false := by
      decide +kernel
    rcases hact : (Edit.insert 1 1).act.run attended with ⟨e | ⟨⟩, w⟩
    · rw [hact] at hok
      cases hok
    obtain ⟨-, called, outcome, world', hrun, -, htold, -, hlog⟩ :=
      (htelling attended rfl (.insert 1 1) _ rfl patient).told w hact
    rw [hrun] at hdiary hfails
    have hcalled : called.map (·, Change.inserted 1 1) =
        ["first", "twin", "twin"].map (·, .inserted 1 1) :=
      (hlog Cast.diary Cast.records_diary).symm.trans hdiary
    rw [(List.map_inj_right fun _ _ h => congrArg Prod.fst h).1 hcalled] at htold
    exact ⟨outcome, w, world', hrun, hfails, htold⟩
  · have hfails : ((Edit.delete 1 2).act.run attended).1.isOk = false := by decide +kernel
    rcases hact : (Edit.delete 1 2).act.run attended with ⟨e | ⟨⟩, w⟩
    · exact ⟨e, w, (htelling attended rfl (.delete 1 2) _ rfl patient).silent e w hact⟩
    · rw [hact] at hfails
      cases hfails

end ByteTower
