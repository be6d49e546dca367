import ByteTower.Proofs.Delivery
import ByteTower.Proofs.Watching

namespace ByteTower

open StoreM

namespace Request

def payload : Request → Nat
  | .write data => data.size
  | _ => 0

/-- The number of bytes that are taken over, which is none if the request fails. -/
def handed (r : Request) (ok : Bool) : Nat := if ok then r.payload else 0

end Request

namespace WriteBehind

variable {σ : Type}

def settled (pending : Option Extent) : List Sent := pending.toList.map (⟨·, true⟩)

/-- What a request to `c` may send to the wrapped store, what is pending then, and whether the request
has succeeded. -/
inductive Sends (c : WriteBehind σ) (r : Request) : List Sent → Option Extent → Bool → Prop
  | nothing {ok : Bool} (h : 0 < r.payload → ok = false) : Sends c r [] c.pending ok
  /-- What is pending does not arrive. -/
  | fails {p : Extent} (hp : c.pending = some p) : Sends c r [⟨p, false⟩] (some p) false
  | settles {ok : Bool} (h : 0 < r.payload → ok = false) :
    Sends c r (settled c.pending) none ok
  | joins {data : Bytes} {p : Extent} (hr : r = .write data) (hd : 0 < data.size)
    (hp : c.merged? c.cursor data = some p) : Sends c r [] (some p) true
  | replaces {data : Bytes} (hr : r = .write data) (hd : 0 < data.size)
    (hfit : data.size ≤ c.capacity) (hp : c.merged? c.cursor data = none) :
    Sends c r (settled c.pending) (some ⟨c.cursor, data⟩) true
  | passes {data : Bytes} {ok : Bool} (hr : r = .write data) (hlong : c.capacity < data.size) :
    Sends c r (settled c.pending ++ [⟨⟨c.cursor, data⟩, ok⟩]) none ok

theorem whole_settled {pending : Option Extent} {w : Sent} (hw : w ∈ settled pending) :
    w.whole = true := by
  obtain ⟨p, -, rfl⟩ := List.mem_map.1 hw
  rfl

theorem Sends.whole {c : WriteBehind σ} {r : Request} {sent : List Sent} {pending : Option Extent}
    (h : Sends c r sent pending true) : ∀ w ∈ sent, w.whole = true := by
  intro w hw
  cases h with
  | nothing | joins => cases hw
  | settles | replaces => exact whole_settled hw
  | passes =>
    rcases List.mem_append.1 hw with hw | hw
    · exact whole_settled hw
    · rw [List.mem_singleton.1 hw]

theorem eq_of_mem_settled {pending : Option Extent} {w : Sent} (hw : w ∈ settled pending) :
    pending = some w.extent := by
  obtain ⟨p, hp, rfl⟩ := List.mem_map.1 hw
  exact Option.mem_toList.1 hp

/-- What is sent is what was held back, as a whole, or a write that is too long to be held back. -/
theorem Sends.origin {c : WriteBehind σ} {r : Request} {sent : List Sent} {pending : Option Extent}
    {ok : Bool} (h : Sends c r sent pending ok) {w : Sent} (hw : w ∈ sent) :
    c.pending = some w.extent ∨
      ∃ data, r = .write data ∧ c.capacity < data.size ∧ w.extent = ⟨c.cursor, data⟩ := by
  cases h with
  | nothing | joins => cases hw
  | fails hp =>
    obtain rfl := List.mem_singleton.1 hw
    exact .inl hp
  | settles | replaces => exact .inl (eq_of_mem_settled hw)
  | passes hr hlong =>
    rcases List.mem_append.1 hw with hw | hw
    · exact .inl (eq_of_mem_settled hw)
    · obtain rfl := List.mem_singleton.1 hw
      exact .inr ⟨_, hr, hlong, rfl⟩

section Step

variable [Storage σ] [Meaning σ] {f : Failures} {Good : σ → Prop} {size : Nat}
variable {c d : WriteBehind (Watched σ)}

/-- `d` is what a request to `c` leaves. What is sent in vain is a fault. -/
def Ships (Good : σ → Prop) (c : WriteBehind (Watched σ)) (r : Request)
    (d : WriteBehind (Watched σ)) (ok : Bool) : Prop :=
  ∃ sent, d.inner.writes = c.inner.writes ++ sent ∧ Sends c r sent d.pending ok ∧
    ∀ faults : σ → Nat, Blames Good faults →
      (∀ w ∈ sent, w.whole = true) ∨ faults c.inner.store < faults d.inner.store

def Idle (c d : WriteBehind (Watched σ)) : Prop :=
  d.pending = c.pending ∧ d.inner.writes = c.inner.writes

theorem Idle.ships (h : Idle c d) {r : Request} {ok : Bool} (hr : 0 < r.payload → ok = false) :
    Ships Good c r d ok := by
  refine ⟨[], by rw [h.2, List.append_nil], ?_, fun _ _ => Or.inl ?_⟩
  · rw [h.1]
    exact .nothing hr
  · intro _ hw
    exact absurd hw List.not_mem_nil

omit [Storage σ] in
theorem idle_onInner {α : Type} {act : StoreM (Watched σ) α} (hd : Idle c d)
    (h : act.Ends (fun t => t.writes = d.inner.writes) d.inner) :
    (onInner act).Ends (Idle c) d :=
  Meets.zoom (h.imp (fun _ _ ht => ⟨hd.1, ht.trans hd.2⟩) fun _ _ ht => ⟨hd.1, ht.trans hd.2⟩)

theorem idle_length (hd : Idle c d) : length.Ends (Idle c) d := by
  apply (idle_onInner hd (Watched.ends_writes (fun _ _ _ => rfl) _ _)).bind
  intro n e he
  apply meets_get_bind
  split
  · exact meets_pure he
  · exact meets_pure he

theorem idle_segment (hd : Idle c d) (pos n : Nat) : (segment pos n).Ends (Idle c) d := by
  apply meets_get_bind
  split
  case h_1 => exact meets_pure hd
  case h_2 =>
    apply (idle_onInner hd (Watched.ends_writes (fun _ _ _ => rfl) _ _)).bind
    intro length e he
    split
    case isTrue => exact meets_pure he
    case isFalse =>
      apply (idle_onInner he (Watched.ends_writes (fun _ _ _ => rfl) _ _)).bind
      intro _ e he
      apply (idle_onInner he (Watched.ends_writes (fun _ _ _ => rfl) _ _)).bind
      intro _ e he
      exact meets_pure he

theorem idle_collect (hd : Idle c d) (wanted fuel : Nat) (got : Bytes) :
    (collect wanted fuel got).Ends (Idle c) d := by
  induction fuel generalizing d got with
  | zero => exact meets_pure hd
  | succ fuel ih =>
    unfold collect
    split
    case isFalse => exact meets_pure hd
    case isTrue =>
      refine meets_get_bind ((idle_segment hd _ _).bind ?_)
      intro piece e he
      dsimp only
      split
      case isTrue => exact meets_pure he
      case isFalse => exact ih he _

theorem idle_read (hc : Idle c c) (n : Nat) :
    (Storage.read n : StoreM (WriteBehind (Watched σ)) ReadResult).Ends (Idle c) c := by
  apply meets_get_bind
  apply (ends_requireOpen hc c.closed).bind
  intro _ d hd
  apply (idle_length hd).bind
  intro n e he
  apply meets_get_bind
  split
  case isTrue => exact meets_pure he
  case isFalse =>
    apply (idle_collect he _ _ _).bind
    intro data e he
    exact meets_modify_bind (meets_pure he)

theorem writes_put (h : Contract f Good) (hc : Sound (fun s => Good s.store) size c)
    (ho : c.closed = false) {pos : Nat} (hpos : pos ≤ maxPosition) (data : Bytes) :
    (do
      onInner (Storage.seek pos)
      onInner (Storage.write data)).Meets c
      (fun _ d => ∃ t : Watched σ, d = { c with inner := t } ∧
        t.writes = c.inner.writes ++ [(⟨⟨pos, data⟩, true⟩ : Sent)])
      fun _ d => ∃ t : Watched σ, d = { c with inner := t } ∧ (t.writes = c.inner.writes ∨
        t.writes = c.inner.writes ++ [(⟨⟨pos, data⟩, false⟩ : Sent)]) := by
  have hquiet : (Storage.seek pos : StoreM (Watched σ) Unit).Ends
      (fun t => t.writes = c.inner.writes) c.inner := Watched.ends_writes (fun _ _ _ => rfl) _ _
  have hplace := ((Watched.contract h).meets_seek hc.inner (hc.closed.trans ho)
    (Or.inr hpos)).and hquiet
  have hseek : (onInner (Storage.seek pos)).Meets c
      (fun _ d => ∃ t, d = { c with inner := t } ∧ (plain t).cursor = pos ∧
        t.writes = c.inner.writes)
      fun _ d => ∃ t, d = { c with inner := t } ∧
        (t.writes = c.inner.writes ∨ t.writes = c.inner.writes ++ [⟨⟨pos, data⟩, false⟩]) := by
    refine Meets.zoom (hplace.imp ?_ ?_)
    · rintro _ t ⟨⟨-, hp⟩, hw⟩
      exact ⟨t, rfl, by rw [hp], hw⟩
    · rintro _ t ⟨-, hw⟩
      exact ⟨t, rfl, Or.inl hw⟩
  apply hseek.bind
  rintro _ _ ⟨t, rfl, hcur, hw⟩
  have hnoted := Watched.meets_write_noted (s := t) data
  rw [hcur, hw] at hnoted
  refine Meets.zoom (hnoted.imp ?_ ?_)
  · intro _ u hu
    exact ⟨u, rfl, hu⟩
  · intro _ u hu
    exact ⟨u, rfl, Or.inr hu⟩

theorem sends_pending (h : Contract f Good) (hc : Sound (fun s => Good s.store) size c)
    (ho : c.closed = false) : settle.Meets c
      (fun _ d => d.inner.writes = c.inner.writes ++ settled c.pending)
      fun _ d => d.pending = c.pending ∧ (d.inner.writes = c.inner.writes ∨
        ∃ p, c.pending = some p ∧ d.inner.writes = c.inner.writes ++ [⟨p, false⟩]) := by
  apply meets_get_bind
  split
  case h_1 hnone =>
    refine meets_pure ?_
    rw [hnone]
    exact (List.append_nil _).symm
  case h_2 p hsome =>
    obtain ⟨-, -, hstop⟩ := hc.pending p hsome
    have hpos : p.start ≤ maxPosition := Nat.le_trans (Nat.le_add_right p.start p.bytes.size) hstop
    rw [← bind_assoc]
    apply ((writes_put h hc ho hpos p.bytes).imp_error ?_).bind
    · rintro _ _ ⟨t, rfl, hw⟩
      refine meets_modify ?_
      rw [hsome]
      exact hw
    · rintro _ _ ⟨t, rfl, hw | hw⟩
      · exact ⟨rfl, Or.inl hw⟩
      · exact ⟨rfl, Or.inr ⟨p, hsome, hw⟩⟩

theorem ships_settle (h : Contract f Good) (hc : Sound (fun s => Good s.store) size c)
    (ho : c.closed = false) : settle.Meets c
      (fun _ d => (Sound (fun s => Good s.store) size d ∧ d.pending = none ∧ plain d = plain c) ∧
        d.inner.writes = c.inner.writes ++ settled c.pending)
      fun _ d => ∀ r, Ships Good c r d false := by
  have hsound := meets_settle (Watched.contract h).unversioned hc.behind ho
  have hsend := sends_pending h hc ho
  refine meets_iff.2 ⟨fun _ d hr => ⟨hsound.of_run_ok hr, hsend.of_run_ok hr⟩, ?_⟩
  intro e d hr r
  obtain ⟨hpending, hw | ⟨p, hp, hw⟩⟩ := hsend.of_run_error hr
  · exact Idle.ships ⟨hpending, hw⟩ fun _ => rfl
  · refine ⟨[⟨p, false⟩], hw, ?_, fun faults hb => Or.inr ?_⟩
    · rw [hpending, hp]
      exact .fails hp
    · exact (charged_settle (Watched.contract h) hb.watched hc ho).of_run_error hr

theorem ships_of_idle {α : Type} {act : StoreM (WriteBehind (Watched σ)) α}
    (h : act.Ends (Idle c) c) {r : Request} (hr : r.payload = 0) :
    act.Meets c (fun _ d => Ships Good c r d true) fun _ d => Ships Good c r d false :=
  h.imp (fun _ _ hd => hd.ships fun hpos => absurd hr (Nat.ne_of_gt hpos))
    fun _ _ hd => hd.ships fun _ => rfl

theorem ships_settle_bind (h : Contract f Good) (hc : Sound (fun s => Good s.store) size c)
    (ho : c.closed = false) {α : Type} {next : Unit → StoreM (WriteBehind (Watched σ)) α}
    (hnext : ∀ d, (next ()).Ends (Idle d) d) {r : Request} (hr : r.payload = 0) :
    (settle >>= next).Meets c (fun _ d => Ships Good c r d true)
      fun _ d => Ships Good c r d false := by
  apply ((ships_settle h hc ho).imp_error fun _ _ hd => hd r).bind
  rintro _ d ⟨⟨-, hnone, -⟩, hw⟩
  have hships : ∀ ok e, Idle d e → Ships Good c r e ok := by
    intro ok e he
    refine ⟨settled c.pending, by rw [he.2, hw], ?_, fun _ _ => Or.inl fun _ => whole_settled⟩
    rw [he.1, hnone]
    exact .settles fun hpos => absurd hr (Nat.ne_of_gt hpos)
  exact (hnext d).imp (fun _ e he => hships true e he) fun _ e he => hships false e he

theorem sends_through (h : Contract f Good) (hd : Sound (fun s => Good s.store) size d)
    (ho : d.closed = false) (hnone : d.pending = none)
    (hw : d.inner.writes = c.inner.writes ++ settled c.pending) {data : Bytes}
    (hlong : c.capacity < data.size) (hfit : c.cursor + data.size ≤ maxPosition) :
    (do
      onInner (Storage.seek c.cursor)
      onInner (Storage.write data)).Meets d
      (fun _ e => ∃ sent, e.inner.writes = c.inner.writes ++ sent ∧
        Sends c (.write data) sent e.pending true)
      fun _ e => ∃ sent, e.inner.writes = c.inner.writes ++ sent ∧
        Sends c (.write data) sent e.pending false := by
  have hpos : c.cursor ≤ maxPosition := by omega
  have hpasses : ∀ ok, Sends c (.write data) (settled c.pending ++ [⟨⟨c.cursor, data⟩, ok⟩])
      d.pending ok := by
    intro ok
    rw [hnone]
    exact .passes rfl hlong
  refine (writes_put h hd ho hpos data).imp ?_ ?_
  · rintro _ _ ⟨t, rfl, ht⟩
    rw [hw, List.append_assoc] at ht
    exact ⟨_, ht, hpasses true⟩
  · rintro _ _ ⟨t, rfl, ht | ht⟩
    · refine ⟨settled c.pending, ht.trans hw, ?_⟩
      show Sends c _ _ d.pending false
      rw [hnone]
      exact .settles fun _ => rfl
    · rw [hw, List.append_assoc] at ht
      exact ⟨_, ht, hpasses false⟩

theorem sends_write (h : Contract f Good) (hc : Sound (fun s => Good s.store) size c)
    (ho : c.closed = false) {data : Bytes} (hd : 0 < data.size)
    (hfit : c.cursor + data.size ≤ maxPosition) :
    (Storage.write data : StoreM (WriteBehind (Watched σ)) Unit).Meets c
      (fun _ d => ∃ sent, d.inner.writes = c.inner.writes ++ sent ∧
        Sends c (.write data) sent d.pending true)
      fun _ d => ∃ sent, d.inner.writes = c.inner.writes ++ sent ∧
        Sends c (.write data) sent d.pending false := by
  refine meets_get_bind (meets_requireOpen_bind ho ?_)
  rw [if_neg (Nat.ne_of_gt hd)]
  apply meets_endOf_bind hfit
  split
  case h_1 p hp => exact meets_set ⟨[], (List.append_nil _).symm, .joins rfl hd hp⟩
  case h_2 hp =>
    -- what is held back has to go before the data take its place or pass it
    have hsettle := (ships_settle h hc ho).imp_error fun _ _ hd => hd (.write data)
    apply (hsettle.imp_error fun _ _ ⟨sent, hw, hsends, _⟩ => ⟨sent, hw, hsends⟩).bind
    rintro _ d ⟨⟨hsound, hnone, hplain⟩, hw⟩
    have ho' : d.closed = false := (congrArg Memory.closed hplain).trans ho
    have hcur : d.cursor = c.cursor := congrArg Memory.cursor hplain
    split
    case isTrue hlong =>
      dsimp only
      rw [← bind_assoc]
      apply (sends_through h hsound ho' hnone hw hlong hfit).bind
      exact fun _ e he => meets_modify he
    case isFalse hshort =>
      refine meets_modify_bind (meets_modify ⟨settled c.pending, hw, ?_⟩)
      show Sends c _ _ (some ⟨d.cursor, data⟩) true
      rw [hcur]
      exact .replaces rfl hd (Nat.le_of_not_lt hshort) hp

theorem ships_write (h : Contract f Good) (hc : Sound (fun s => Good s.store) size c)
    (data : Bytes) : (Storage.write data : StoreM (WriteBehind (Watched σ)) Unit).Meets c
      (fun _ d => Ships Good c (.write data) d true) fun _ d => Ships Good c (.write data) d false := by
  have hrefused : ∀ d, Idle c d → Ships Good c (.write data) d false := fun _ hd => hd.ships fun _ => rfl
  have hself : Idle c c := ⟨rfl, rfl⟩
  cases ho : c.closed with
  | true => exact meets_of_error (run_refused ho _) (hrefused c hself)
  | false =>
    by_cases hd : data.size = 0
    · have hrun : (Storage.write data : StoreM (WriteBehind (Watched σ)) Unit).run c = (.ok (), c) := by
        simp [Storage.write, write, run_bind, requireOpen, ho, hd]
      exact meets_of_ok hrun (hself.ships fun hpos => absurd hd (Nat.ne_of_gt hpos))
    · have hd := Nat.pos_of_ne_zero hd
      by_cases hfit : c.cursor + data.size ≤ maxPosition
      · have hsends := sends_write h hc ho hd hfit
        refine meets_iff.2 ⟨fun _ d hr => ?_, fun e d hr => ?_⟩
        · obtain ⟨sent, hw, hsent⟩ := hsends.of_run_ok hr
          exact ⟨sent, hw, hsent, fun _ _ => Or.inl hsent.whole⟩
        · obtain ⟨sent, hw, hsent⟩ := hsends.of_run_error hr
          refine ⟨sent, hw, hsent, fun faults hb => Or.inr ?_⟩
          exact (charged_write (Watched.contract h) hb.watched hc ho hd hfit).of_run_error hr
      · have hrun : (Storage.write data : StoreM (WriteBehind (Watched σ)) Unit).run c =
            (.error (.argument (.transferTooLong data.size c.cursor)), c) := by
          simp [Storage.write, write, run_bind, requireOpen, ho, Nat.ne_of_gt hd, endOf,
            Nat.lt_of_not_le hfit]
        exact meets_of_error hrun (hrefused c hself)

/-- Every request to a sound layer sends what it may send. -/
theorem ships_run (h : Contract f Good) (hc : Sound (fun s => Good s.store) size c) (r : Request) :
    r.run.Meets c (fun _ d => Ships Good c r d true) fun _ d => Ships Good c r d false := by
  have hself : Idle c c := ⟨rfl, rfl⟩
  cases r with
  | length =>
    refine Meets.map (ships_of_idle (meets_get_bind ((ends_requireOpen hself c.closed).bind ?_)) rfl)
    exact fun _ _ hd => idle_length hd
  | cursor =>
    refine Meets.map (ships_of_idle (meets_get_bind ((ends_requireOpen hself c.closed).bind ?_)) rfl)
    exact fun _ _ hd => meets_pure hd
  | seek pos =>
    refine Meets.map (ships_of_idle (meets_get_bind ((ends_requireOpen hself c.closed).bind ?_)) rfl)
    exact fun _ _ hd => (ends_checkPosition hd pos).bind fun _ _ _ => meets_set hself
  | read n => exact Meets.map (ships_of_idle (idle_read hself n) rfl)
  | write data => exact Meets.map (ships_write h hc data)
  | resize n =>
    refine Meets.map (meets_get_bind ?_)
    cases ho : c.closed with
    | true => exact meets_throw (hself.ships fun _ => rfl)
    | false =>
      refine meets_requireOpen_bind rfl ?_
      by_cases hn : n ≤ maxPosition
      · refine meets_checkPosition_bind hn (ships_settle_bind h hc ho (fun d => ?_) rfl)
        have hinner : (onInner (Storage.resize n)).Ends (Idle d) d :=
          idle_onInner ⟨rfl, rfl⟩ (Watched.ends_writes (fun _ _ _ => rfl) _ _)
        exact hinner.bind fun _ _ he => meets_modify he
      · rw [checkPosition, if_pos (Nat.lt_of_not_le hn)]
        exact meets_throw (hself.ships fun _ => rfl)
  | flush =>
    refine Meets.map (meets_get_bind ?_)
    cases ho : c.closed with
    | true => exact meets_throw (hself.ships fun _ => rfl)
    | false =>
      refine meets_requireOpen_bind rfl (ships_settle_bind h hc ho (fun d => ?_) rfl)
      exact idle_onInner ⟨rfl, rfl⟩ (Watched.ends_writes (fun _ _ _ => rfl) _ _)
  | close =>
    refine Meets.map (meets_get_bind ?_)
    cases ho : c.closed with
    | true => exact meets_pure (hself.ships fun hpos => absurd hpos (Nat.lt_irrefl 0))
    | false =>
      refine ships_settle_bind h hc ho (fun d => ?_) rfl
      have hinner : (onInner Storage.close).Ends (Idle d) d :=
        idle_onInner ⟨rfl, rfl⟩ (Watched.ends_writes (fun _ _ _ => rfl) _ _)
      exact hinner.bind fun _ _ he => meets_modify he

theorem ships_step (h : Contract f Good) (hc : Sound (fun s => Good s.store) size c) (r : Request) :
    Ships Good c r (r.run.run c).2 (r.run.run c).1.isOk := by
  have hships := ships_run h hc r
  rcases hr : r.run.run c with ⟨e | a, d⟩
  · exact hships.of_run_error hr
  · exact hships.of_run_ok hr

end Step

section Joins

variable {c : WriteBehind σ} {p : Extent} {pos : Nat} {data : Bytes}

theorem merged?_eq_some (hm : c.merged? pos data = some p) :
    ∃ q, c.pending = some q ∧ q.start ≤ pos ∧ pos ≤ q.stop ∧
      max (pos + data.size) q.stop - q.start ≤ c.capacity ∧ p = q.absorb pos data := by
  unfold merged? at hm
  split at hm
  case h_1 => cases hm
  case h_2 q hq =>
    split at hm
    case isTrue hfit => exact ⟨q, hq, hfit.1, hfit.2.1, hfit.2.2, (Option.some.inj hm).symm⟩
    case isFalse => cases hm

theorem merged?_of_joins (hp : c.pending = some p) (hstart : p.start ≤ pos) (hstop : pos ≤ p.stop)
    (hfit : max (pos + data.size) p.stop - p.start ≤ c.capacity) :
    c.merged? pos data = some (p.absorb pos data) := by
  simp only [merged?, hp]
  rw [if_pos ⟨hstart, hstop, hfit⟩]

theorem ends_inner_of_joins [Storage σ] (hp : c.pending = some p) (hstart : p.start ≤ c.cursor)
    (hstop : c.cursor ≤ p.stop) (hfit : max (c.cursor + data.size) p.stop - p.start ≤ c.capacity) :
    (Storage.write data : StoreM (WriteBehind σ) Unit).Ends (Over (· = c.inner)) c := by
  have hself : Over (· = c.inner) c := rfl
  refine meets_get_bind ((ends_requireOpen hself c.closed).bind ?_)
  intro _ d hd
  split
  case isTrue => exact meets_pure hd
  case isFalse =>
    apply (ends_endOf hd _ _).bind
    intro _ d hd
    rw [merged?_of_joins hp hstart hstop hfit]
    exact meets_set rfl

end Joins

end WriteBehind

/-- The bytes that writes brought to a store, each with its place. -/
def delivered (writes : List Sent) : List Extent := (writes.filter Sent.whole).map Sent.extent

def total : List Bytes → Nat
  | [] => 0
  | b :: pieces => b.size + total pieces

@[simp] theorem total_nil : total [] = 0 := rfl

@[simp] theorem total_cons (b : Bytes) (pieces : List Bytes) :
    total (b :: pieces) = b.size + total pieces := rfl

@[simp] theorem total_append (first second : List Bytes) :
    total (first ++ second) = total first + total second := by
  induction first with
  | nil => exact (Nat.zero_add _).symm
  | cons b first ih =>
    rw [List.cons_append, total_cons, total_cons, ih]
    omega

/-- The number of bytes that are placed somewhere. -/
def volume (extents : List Extent) : Nat := total (extents.map Extent.bytes)

@[simp] theorem delivered_append (first second : List Sent) :
    delivered (first ++ second) = delivered first ++ delivered second := by
  simp [delivered]

@[simp] theorem volume_append (first second : List Extent) :
    volume (first ++ second) = volume first + volume second := by
  rw [volume, List.map_append, total_append]
  rfl

@[simp] theorem delivered_nil : delivered [] = [] := rfl

@[simp] theorem delivered_true (e : Extent) : delivered [⟨e, true⟩] = [e] := rfl

@[simp] theorem delivered_false (e : Extent) : delivered [⟨e, false⟩] = [] := rfl

@[simp] theorem volume_nil : volume [] = 0 := rfl

@[simp] theorem volume_singleton (e : Extent) : volume [e] = e.bytes.size := rfl

theorem delivered_of_whole {writes : List Sent} (h : ∀ w ∈ writes, w.whole = true) :
    delivered writes = writes.map Sent.extent := by
  rw [delivered, List.filter_eq_self.2 h]

@[simp] theorem delivered_settled (pending : Option Extent) :
    delivered (WriteBehind.settled pending) = pending.toList := by
  rw [delivered_of_whole fun _ => WriteBehind.whole_settled, WriteBehind.settled, List.map_map]
  exact List.map_id _

namespace WriteBehind

section Traffic

variable {σ : Type} {c : WriteBehind σ} {r : Request} {sent : List Sent} {pending : Option Extent}
variable {ok : Bool}

/-- With a request that is accepted one write more is on its way, unless it joins another one. -/
theorem Sends.length_le (h : Sends c r sent pending ok) :
    (delivered sent).length + pending.toList.length ≤
      c.pending.toList.length + min 1 (r.handed ok) := by
  cases h with
  | nothing => simp
  | fails hp => simp [hp]
  | settles => simp
  | joins hr hd hp =>
    obtain ⟨q, hq, -⟩ := merged?_eq_some hp
    simp [hq]
  | replaces hr hd =>
    subst hr
    simp [Request.handed, Request.payload]
    omega
  | passes hr hlong =>
    subst hr
    cases ok with
    | false => simp
    | true =>
      simp [Request.handed, Request.payload]
      omega

theorem Sends.volume_le (h : Sends c r sent pending ok) :
    volume (delivered sent) + volume pending.toList ≤ volume c.pending.toList + r.handed ok := by
  cases h with
  | nothing => simp
  | fails hp => simp [hp]
  | settles => simp
  | joins hr hd hp =>
    obtain ⟨q, hq, hstart, hstop, -, rfl⟩ := merged?_eq_some hp
    subst hr
    simp [hq, Request.handed, Request.payload, Extent.absorb, Extent.stop] at hstop ⊢
    omega
  | replaces hr hd =>
    subst hr
    simp [Request.handed, Request.payload]
  | passes hr hlong =>
    subst hr
    cases ok with
    | false => simp
    | true => simp [Request.handed, Request.payload]

end Traffic

end WriteBehind

section Accepted

variable {σ : Type} [Meaning σ]

/-- What was taken over in a call, with its place. -/
def Noted.taken (n : Noted σ) : List Extent :=
  (delivered n.write?.toList).filter fun e => 0 < e.bytes.size

/-- The writes that succeeded, other than those of no bytes. -/
def Watched.accepted (s : Watched σ) : List Extent :=
  (delivered s.writes).filter fun e => 0 < e.bytes.size

theorem Watched.accepted_append (s : Watched σ) (store : σ) (n : Noted σ) :
    accepted ⟨store, s.calls ++ [n]⟩ = s.accepted ++ n.taken := by
  rw [accepted, writes_append, delivered_append, List.filter_append]
  rfl

theorem Noted.taken_eq (n : Noted σ) :
    (n.taken = [] ∧ n.request.handed n.answer.isOk = 0) ∨
      ∃ e, n.taken = [e] ∧ 0 < e.bytes.size ∧ n.request.handed n.answer.isOk = e.bytes.size := by
  obtain ⟨before, r, answer, after⟩ := n
  cases r with
  | length | resize | cursor | seek | read | flush | close =>
    exact .inl ⟨rfl, ite_self 0⟩
  | write data =>
    cases answer with
    | error e => exact .inl ⟨rfl, rfl⟩
    | ok a =>
      have htaken : taken ⟨before, .write data, .ok a, after⟩ =
          [⟨(plain before).cursor, data⟩].filter fun e => 0 < e.bytes.size := rfl
      rw [htaken]
      by_cases hd : 0 < data.size
      · exact .inr ⟨_, List.filter_cons_of_pos (decide_eq_true hd), hd, rfl⟩
      · exact .inl ⟨List.filter_cons_of_neg (by simpa using hd), Nat.eq_zero_of_not_pos hd⟩

theorem Noted.length_taken (n : Noted σ) :
    n.taken.length = min 1 (n.request.handed n.answer.isOk) := by
  obtain ⟨ht, hz⟩ | ⟨e, ht, hpos, hsize⟩ := n.taken_eq
  · rw [ht, hz]
    rfl
  · rw [ht, hsize, Nat.min_eq_left hpos]
    rfl

theorem Noted.volume_taken (n : Noted σ) : volume n.taken = n.request.handed n.answer.isOk := by
  obtain ⟨ht, hz⟩ | ⟨e, ht, -, hsize⟩ := n.taken_eq
  · rw [ht, hz]
    rfl
  · rw [ht, hsize]
    rfl

end Accepted

namespace WriteBehind

section Bounded

variable {σ : Type}

def held (c : WriteBehind σ) : Nat := volume c.pending.toList

/-- What is held back is never empty, fits, and can be written where it belongs. -/
structure Bounded (size : Nat) (c : WriteBehind σ) : Prop where
  dirty : c.pending.isSome ↔ 0 < c.held
  held_le : c.held ≤ size
  stop_le : ∀ p, c.pending = some p → p.stop ≤ maxPosition

theorem Sound.bounded [Meaning σ] {Good : σ → Prop} {size : Nat} {c : WriteBehind σ}
    (hc : Sound Good size c) : Bounded size c := by
  cases hp : c.pending with
  | none => exact ⟨by simp [held, hp], by simp [held, hp], fun p h => by simp [hp] at h⟩
  | some p =>
    obtain ⟨hpos, hle, hstop⟩ := hc.pending p hp
    refine ⟨by simpa [held, hp] using hpos, by simpa [held, hp] using hle, fun q hq => ?_⟩
    obtain rfl := Option.some.inj (hp.symm.trans hq)
    exact hstop

end Bounded

section Calls

variable {σ : Type} [Storage σ] [Meaning σ] {f : Failures} {Good : σ → Prop} {size : Nat}

def sent (n : Noted (WriteBehind (Watched σ))) : List Sent :=
  n.after.inner.writes.drop n.before.inner.writes.length

/-- What a call on a layer of capacity `size` does with the bytes that are held back. -/
structure Frugal (size : Nat) (n : Noted (WriteBehind (Watched σ))) : Prop where
  before : Bounded size n.before
  after : Bounded size n.after
  writes : n.after.inner.writes = n.before.inner.writes ++ sent n
  /-- Only what is held back is written, as a whole, or a write that is too long to be held back. -/
  sent : ∀ w ∈ sent n, n.before.pending = some w.extent ∨
    ∃ data, n.request = .write data ∧ size < data.size ∧ w.extent = ⟨n.before.cursor, data⟩
  /-- A write that can join what is held back makes no call at all. -/
  joins : ∀ p data, n.before.pending = some p → n.request = .write data →
    p.start ≤ n.before.cursor → n.before.cursor ≤ p.stop →
    max (n.before.cursor + data.size) p.stop - p.start ≤ size → n.after.inner = n.before.inner

variable {c : WriteBehind (Watched σ)} {calls : List (Noted (WriteBehind (Watched σ)))}

theorem sound_step (h : Contract f Good) (hc : Sound (fun s => Good s.store) size c) (r : Request) :
    Sound (fun s => Good s.store) size (r.run.run c).2 := by
  have hcontract := (tracks (Watched.contract h).unversioned size).contract 0
  exact (hcontract.kept.request r hc.behind).sound

theorem frugal_step (h : Contract f Good) (hc : Sound (fun s => Good s.store) size c) (r : Request) :
    Frugal size ⟨c, r, (r.run.run c).1, (r.run.run c).2⟩ := by
  obtain ⟨sent', hw, hsends, -⟩ := ships_step h hc r
  have hsent : sent ⟨c, r, (r.run.run c).1, (r.run.run c).2⟩ = sent' := by
    rw [sent, hw]
    exact List.drop_left
  refine ⟨hc.bounded, (sound_step h hc r).bounded, hsent ▸ hw, ?_, ?_⟩
  · intro w hmem
    rw [← hc.capacity]
    exact hsends.origin (hsent ▸ hmem)
  · rintro p data hp rfl hstart hstop hfit
    rw [← hc.capacity] at hfit
    have hwrite := ends_iff.1 (ends_inner_of_joins hp hstart hstop hfit)
    rw [Request.run, run_map]
    exact hwrite

/-- What is true after any calls: all that was sent was sent in one of them, and what has arrived or
is held back was taken over before. -/
structure Traffic (Good : σ → Prop) (size : Nat) (c : WriteBehind (Watched σ))
    (calls : List (Noted (WriteBehind (Watched σ)))) : Prop where
  sound : Sound (fun s => Good s.store) size c
  frugal : ∀ n ∈ calls, Frugal size n
  writes : c.inner.writes = calls.flatMap sent
  length_le : (delivered c.inner.writes).length + c.pending.toList.length ≤
    (Watched.mk c calls).accepted.length
  volume_le : volume (delivered c.inner.writes) + c.held ≤ volume (Watched.mk c calls).accepted

theorem Traffic.step (h : Contract f Good) (hc : Traffic Good size c calls) (r : Request) :
    Traffic Good size (r.run.run c).2 (calls ++ [⟨c, r, (r.run.run c).1, (r.run.run c).2⟩]) := by
  obtain ⟨sent', hw, hsends, -⟩ := ships_step h hc.sound r
  have hlength := hsends.length_le
  have hvolume := hsends.volume_le
  have hfrugal := frugal_step h hc.sound r
  refine ⟨sound_step h hc.sound r, ?_, ?_, ?_, ?_⟩
  · intro n hn
    rcases List.mem_append.1 hn with hn | hn
    · exact hc.frugal n hn
    · exact List.mem_singleton.1 hn ▸ hfrugal
  · rw [List.flatMap_append, ← hc.writes, List.flatMap_singleton]
    exact hfrugal.writes
  · rw [hw, delivered_append, List.length_append, Watched.accepted_append ⟨c, calls⟩, List.length_append,
      Noted.length_taken]
    dsimp only
    have hbefore := hc.length_le
    omega
  · rw [hw, delivered_append, volume_append, Watched.accepted_append ⟨c, calls⟩, volume_append,
      Noted.volume_taken]
    dsimp only
    have hbefore := hc.volume_le
    unfold held at *
    omega

theorem Traffic.kept (h : Contract f Good) :
    Kept fun u : Watched (WriteBehind (Watched σ)) => Traffic Good size u.store u.calls :=
  Watched.kept_of_step fun r _ _ hc => hc.step h r

/-- There have been no less than `least` faults, and more if a write has failed. -/
def Charging (faults : σ → Nat) (least : Nat) (c : WriteBehind (Watched σ)) : Prop :=
  least ≤ faults c.inner.store ∧
    ((∀ w ∈ c.inner.writes, w.whole = true) ∨ least < faults c.inner.store)

variable {faults : σ → Nat} {least : Nat}

theorem Charging.step (h : Contract f Good) (hrec : Reckons Good faults)
    (hc : Sound (fun s => Good s.store) size c) (hcharge : Charging faults least c) (r : Request) :
    Charging faults least (r.run.run c).2 := by
  obtain ⟨sent', hw, -, hfault⟩ := ships_step h hc r
  have hle : faults c.inner.store ≤ faults (r.run.run c).2.inner.store :=
    (kept_inner (Watched.kept (hrec.kept _))).request r (Nat.le_refl _)
  obtain ⟨hleast, hwhole⟩ := hcharge
  refine ⟨Nat.le_trans hleast hle, ?_⟩
  rw [hw]
  rcases hwhole, hfault faults hrec.toBlames with ⟨hwhole | hlt, hsent | hfault⟩
  · refine .inl fun w hw => ?_
    rcases List.mem_append.1 hw with hw | hw
    · exact hwhole w hw
    · exact hsent w hw
  · exact .inr (Nat.lt_of_le_of_lt hleast hfault)
  · exact .inr (Nat.lt_of_lt_of_le hlt hle)
  · exact .inr (Nat.lt_of_lt_of_le hlt hle)

theorem Charging.kept (h : Contract f Good) (hrec : Reckons Good faults) :
    Kept fun u : Watched (WriteBehind (Watched σ)) =>
      Sound (fun s => Good s.store) size u.store ∧ Charging faults least u.store :=
  Watched.kept_of_step (P := fun c _ => Sound (fun s => Good s.store) size c ∧ Charging faults least c)
    fun r _ _ hc => ⟨sound_step h hc.1 r, hc.2.step h hrec hc.1 r⟩

theorem writes_release (h : Contract f Good) (hc : Sound (fun s => Good s.store) size c) :
    ∃ sent, (Storage.release c).inner.writes = c.inner.writes ++ sent ∧
      (sent = [] ∨ ∃ p whole, c.pending = some p ∧ sent = [⟨p, whole⟩]) := by
  cases ho : c.closed with
  | true =>
    rw [release_of_closed ho]
    exact ⟨[], (List.append_nil _).symm, .inl rfl⟩
  | false =>
    rw [release_of_open ho]
    have hsend := sends_pending h hc ho
    show ∃ sent, (settle.run c).2.inner.writes = _ ∧ _
    rcases hr : settle.run c with ⟨e | a, d⟩
    · obtain ⟨-, hw | ⟨p, hp, hw⟩⟩ := hsend.of_run_error hr
      · exact ⟨[], by rw [hw, List.append_nil], .inl rfl⟩
      · exact ⟨_, hw, .inr ⟨p, false, hp, rfl⟩⟩
    · refine ⟨_, hsend.of_run_ok hr, ?_⟩
      cases hp : c.pending with
      | none => exact .inl rfl
      | some p => exact .inr ⟨p, true, rfl, rfl⟩

theorem Traffic.of_wrap (h : Contract f Good) {s : σ} (hs : Good s)
    (hw : wrap size ⟨s, []⟩ = .ok c) : Traffic Good size c [] := by
  have hsound := (WriteBehind.of_wrap (Watched.contract h).unversioned hs trivial hw).1.sound
  obtain ⟨_, cursor, t, hrun, rfl⟩ := wrap_eq_ok.1 hw
  have hcursor : (Storage.cursor : StoreM (Watched σ) Nat).Ends (fun t => t.writes = []) ⟨s, []⟩ :=
    Watched.ends_writes (fun _ _ _ => rfl) _ _
  have hnone := ends_iff.1 hcursor
  rw [hrun] at hnone
  refine ⟨hsound, fun _ hn => absurd hn List.not_mem_nil, hnone, ?_, ?_⟩
  · simp [hnone]
  · simp [hnone, held]

end Calls

end WriteBehind

section Runs

variable {κ ω ς ρ μ : Type} [Audience κ ω] [Collector ς] [ByteSource ρ] [Storage μ] [Meaning μ]
variable {f : Failures} {Good : μ → Prop} (h : Contract f Good) {m : μ} (hm : Good m)
variable (world world' : ω) (below above : List (Action κ ς ρ)) {t : AnyTower κ μ}
variable (ht : t = (leave (below.map Action.run) (AnyTower.ofMedium m, world)).1) {size : Nat}
variable {c : WriteBehind (Watched (Tower κ μ t.kinds))}
variable (hc : WriteBehind.wrap size ⟨t.tower, []⟩ = .ok c)
variable {u : Watched (WriteBehind (Watched (Tower κ μ t.kinds)))}
variable (hu : u = (leave (above.map Action.run) (AnyTower.ofMedium ⟨c, []⟩, world')).1.medium)

include h hm ht hc hu

theorem WriteBehind.traffic_leave :
    Traffic (Tower.Sound (fun _ _ => True) (fun _ => Good) t.kinds 0) size u.store u.calls := by
  have hintact : t.Intact Good := ht ▸ AnyTower.intact_leave h hm world below
  have hcontract := AnyTower.contract_of_medium (κ := κ) h t.kinds
  rw [hu]
  exact AnyTower.medium_leave (Traffic.kept hcontract) (m := ⟨c, []⟩)
    (Traffic.of_wrap hcontract hintact hc) world' above

theorem WriteBehind.charging_leave {faults : μ → Nat} (hrec : Reckons Good faults) :
    Charging (fun t : Tower κ μ t.kinds => faults t.medium) (faults c.inner.store.medium) u.store := by
  have hintact : t.Intact Good := ht ▸ AnyTower.intact_leave h hm world below
  have hcontract := AnyTower.contract_of_medium (κ := κ) h t.kinds
  have hstart := Traffic.of_wrap hcontract hintact hc
  have hcharge : Charging (fun t : Tower κ μ t.kinds => faults t.medium)
      (faults c.inner.store.medium) c := by
    refine ⟨Nat.le_refl _, .inl ?_⟩
    rw [hstart.writes]
    exact fun _ hw => absurd hw List.not_mem_nil
  have hkept := AnyTower.medium_leave (Charging.kept hcontract (hrec.tower h t.kinds))
    (m := ⟨c, []⟩) ⟨hstart.sound, hcharge⟩ world' above
  rw [hu]
  exact hkept.2

/-- Over any tower, and whatever is built on it and done there, write-behind stays bounded. Each call
writes below what is held back, as a whole, or a write that is too long to be held back; nothing else
is written below, and to let go of the layer writes what is held back or nothing. Where the medium
takes what it can take, there are no more writes below than callers have made, with one more for what
is held back, and no more bytes. -/
theorem coalescing_frugal :
    u.store.Bounded size ∧ (∀ n ∈ u.calls, WriteBehind.Frugal size n) ∧
      u.store.inner.writes = u.calls.flatMap WriteBehind.sent ∧
      (∃ sent, (Storage.release u.store).inner.writes = u.store.inner.writes ++ sent ∧
        (sent = [] ∨ ∃ p whole, u.store.pending = some p ∧ sent = [⟨p, whole⟩])) ∧
      ∀ faults : μ → Nat, Reckons Good faults →
        faults u.store.inner.store.medium = faults c.inner.store.medium →
        u.store.inner.writes.length + u.store.pending.toList.length ≤ u.accepted.length ∧
        volume (u.store.inner.writes.map Sent.extent) + u.store.held ≤ volume u.accepted := by
  have htraffic := WriteBehind.traffic_leave h hm world world' below above ht hc hu
  refine ⟨htraffic.sound.bounded, htraffic.frugal, htraffic.writes,
    WriteBehind.writes_release (AnyTower.contract_of_medium h t.kinds) htraffic.sound, ?_⟩
  intro faults hrec hsame
  have hcharge := WriteBehind.charging_leave h hm world world' below above ht hc hu hrec
  have hwhole := hcharge.2.resolve_right (Nat.not_lt_of_le (Nat.le_of_eq hsame))
  have hlength := htraffic.length_le
  have hvolume := htraffic.volume_le
  rw [delivered_of_whole hwhole] at hlength hvolume
  rw [List.length_map] at hlength
  exact ⟨hlength, hvolume⟩

end Runs

def faultless : Tallied Memory where
  medium := .ofBytes (.ofOctets [1, 2, 3, 4, 5, 6])

/-- A write that is held back, one that joins it, one that takes its place, a long one, and one
more. -/
def patches : List (Action String EndlessSink ThrottledSource) :=
  [.step (.store (.write (.ofOctets [9, 9, 9]))), .step (.store (.write (.ofOctets [8]))),
    .step (.store (.write (.ofOctets [7, 7]))), .step (.store (.write (.ofOctets [1, 2, 3, 4, 5]))),
    .step (.wrap (.blocks 2)), .step (.store (.write (.ofOctets [6])))]

def windowed : AnyTower String (Tallied Memory) :=
  (leave ([(.step (.wrap (.readAhead 3)) : Action String EndlessSink ThrottledSource)].map Action.run)
    (AnyTower.ofMedium faultless, ({} : Cast))).1

/-- Five writes go down as three, and the last byte is held back. -/
theorem coalescing_frugal_of_patches :
    ∃ (c : WriteBehind (Watched (Tower String (Tallied Memory) windowed.kinds)))
      (u : Watched (WriteBehind (Watched (Tower String (Tallied Memory) windowed.kinds)))),
      WriteBehind.wrap 4 ⟨windowed.tower, []⟩ = .ok c ∧
      u = (leave (patches.map Action.run) (AnyTower.ofMedium ⟨c, []⟩, ({} : Cast))).1.medium ∧
      u.store.inner.writes.map (fun w => (w.extent.start, w.extent.bytes.octets)) =
        [(0, [9, 9, 9, 8]), (4, [7, 7]), (6, [1, 2, 3, 4, 5])] ∧
      u.store.pending = some ⟨11, .ofOctets [6]⟩ ∧ u.accepted.length = 5 ∧
      (∀ n ∈ u.calls, WriteBehind.Frugal 4 n) ∧
      u.store.inner.writes.length + u.store.pending.toList.length ≤ u.accepted.length := by
  have hgood : faultless.medium.Bounded := by
    show faultless.medium.bytes.size ≤ maxPosition
    decide
  have hrun := fun (c : WriteBehind (Watched (Tower String (Tallied Memory) windowed.kinds)))
      (hc : WriteBehind.wrap 4 ⟨windowed.tower, []⟩ = .ok c) =>
    coalescing_frugal (Tallied.contract Memory.contract) hgood ({} : Cast) ({} : Cast) _ patches
      (t := windowed) rfl hc rfl
  refine ⟨_, _, rfl, rfl, ?_, ?_, ?_, (hrun _ rfl).2.1,
    ((hrun _ rfl).2.2.2.2 Tallied.failed (Tallied.counts_failed.reckons _) ?_).1⟩
  · decide +kernel
  · decide +kernel
  · decide +kernel
  · decide +kernel

end ByteTower
