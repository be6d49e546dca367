import ByteTower.Block.Scripted
import ByteTower.Proofs.Chart

namespace ByteTower

open StoreM

section Listeners

variable {κ ω : Type} [Audience κ ω]

def tell (listeners : List κ) (change : Change) : StoreM ω Unit :=
  listeners.forM fun l => Audience.hear l change

/-- `k` enters every change that it hears of in the log, whether it then fails or not, and the others
leave the log alone. -/
structure Logs (log : ω → List Change) (k : κ) (others : List κ) : Prop where
  hears : ∀ change world, log ((Audience.hear k change).run world).2 = log world ++ [change]
  others : ∀ l ∈ others, ∀ change world, log ((Audience.hear l change).run world).2 = log world

theorem tell_cons (l : κ) (listeners : List κ) (change : Change) :
    tell (l :: listeners) change = Audience.hear l change >>= fun _ => tell listeners change := rfl

theorem tell_append (before after : List κ) (change : Change) :
    tell (before ++ after) change = tell before change >>= fun _ => tell after change :=
  List.forM_append

variable {log : ω → List Change} {k : κ} {others before after : List κ}

theorem Logs.unheard (h : Logs log k others) (change : Change) {listeners : List κ}
    (hothers : ∀ l ∈ listeners, l ∈ others) (world : ω) :
    log ((tell listeners change).run world).2 = log world := by
  induction listeners generalizing world with
  | nil => rfl
  | cons l listeners ih =>
    have hl := h.others l (hothers l List.mem_cons_self) change world
    rw [tell_cons]
    -- one that fails keeps the rest from hearing of it
    rcases hr : (Audience.hear l change).run world with ⟨e | _, world'⟩
    · rw [hr] at hl
      rw [run_bind_error hr]
      exact hl
    · rw [hr] at hl
      rw [run_bind_ok hr]
      exact (ih (fun l hl => hothers l (List.mem_cons_of_mem _ hl)) world').trans hl

/-- Where those before it do not fail, a listener hears of a change, whatever those behind it do. -/
theorem Logs.notify (h : Logs log k (before ++ after)) {r : Register κ}
    (hr : r.listeners = before ++ k :: after) {change : Change} {world : ω}
    (hwilling : ((tell before change).run world).1.isOk) :
    log ((r.notify change).run world).2 = log world ++ [change] := by
  have hbefore := h.unheard change (fun l hl => List.mem_append_left after hl) world
  have hafter : ∀ world, log ((tell after change).run world).2 = log world :=
    h.unheard change fun l hl => List.mem_append_right before hl
  rcases hb : (tell before change).run world with ⟨e | _, world'⟩
  · rw [hb] at hwilling
    cases hwilling
  rw [hb] at hbefore
  show log ((tell r.listeners change).run world).2 = log world ++ [change]
  rw [hr, tell_append, run_bind_ok hb, tell_cons, ← hbefore]
  have hk := h.hears change world'
  rcases hh : (Audience.hear k change).run world' with ⟨e | _, world''⟩
  · rw [hh] at hk
    rw [run_bind_error hh]
    exact hk
  · rw [hh] at hk
    rw [run_bind_ok hh, hafter]
    exact hk

variable {σ : Type} [Storage σ]

/-- In the run of these edits none of the listeners `before` fails when it is told of one. -/
def Willing (before : List κ) : List Edit → BlockView κ σ × ω → Prop
  | [], _ => True
  | edit :: edits, p =>
    (∀ change ∈ edit.change?, (edit.act.run p.1).1.isOk →
      ((tell before change).run p.2).1.isOk) ∧ Willing before edits (edit.run.run p).2

instance decidableWilling (before : List κ) :
    (edits : List Edit) → (p : BlockView κ σ × ω) → Decidable (Willing before edits p)
  | [], _ => .isTrue trivial
  | _ :: edits, _ =>
    have := decidableWilling before edits
    inferInstanceAs (Decidable (_ ∧ _))

namespace Chart

/-- Takes in a write that was answered. -/
def answered (chart : Chart) : Edit → Except StoreError Unit → Chart
  | .write block offset data, .ok () => chart.write block offset data
  | _, _ => chart

/-- The chart after these edits, kept by what is new in the log after each of them and by the answers
to writes. -/
def follow (log : ω → List Change) (chart : Chart) : List Edit → BlockView κ σ × ω → Chart
  | [], _ => chart
  | edit :: edits, p =>
    let answer := (edit.run.run p).1
    let next := (edit.run.run p).2
    let heard := (log next.2).drop (log p.2).length
    follow log ((heard.foldl hear chart).answered edit answer) edits next

/-- The chart is right about a store as far as calls on the store can tell. -/
structure Tells (chart : Chart) [Meaning σ] (v : BlockView κ σ) : Prop where
  count : ∃ w, BlockView.blockCount.run v = (.ok chart.length, w)
  known : ∀ i known, chart[i]? = some (some known) →
    known = (plain v).bytes.block v.blockSize i ∧
      ∃ w, (BlockView.readBlock i 0 v.blockSize).run v = (.ok known, w)

variable [Meaning σ] {Good : σ → Prop} {v w : BlockView κ σ} {b : Bytes} {chart : Chart}

omit [Audience κ ω] in
theorem Fits.tells (hfits : chart.Fits v.blockSize b) (hrel : BlockView.Reliable κ Good)
    (hw : BlockView.Holds Good v b w) : chart.Tells w where
  count := by
    rcases hr : BlockView.blockCount.run w with ⟨e | n, w'⟩
    · exact ((hrel.blockCount hw).of_run_error hr).elim
    · obtain ⟨rfl, -⟩ := (hrel.blockCount hw).of_run_ok hr
      exact ⟨w', by rw [hfits.length]⟩
  known i known hi := by
    have hknown := hfits.known i known hi
    have hlt : i < b.size / v.blockSize := by
      rw [← hfits.length]
      exact (List.getElem?_eq_some_iff.1 hi).1
    have hin : BlockView.Inside v.blockSize b.size i 0 v.blockSize :=
      ⟨hlt, v.blockSize_pos, Nat.le_of_eq (Nat.zero_add _)⟩
    have hb : (plain w).bytes = b := hw.bytes
    rw [hb, hw.blockSize]
    refine ⟨hknown, ?_⟩
    have hread := hrel.readBlock hw i 0 v.blockSize
    rcases hr : (BlockView.readBlock i 0 v.blockSize).run w with ⟨e | data, w'⟩
    · exact absurd hin (hread.of_run_error hr).2
    · obtain ⟨-, hdata, -⟩ := hread.of_run_ok hr
      exact ⟨w', by rw [hdata, hknown]; rfl⟩

section Step

variable (hrel : BlockView.Reliable κ Good) (hlog : Logs log k (before ++ after))
variable (hk : v.register.listeners = before ++ k :: after)

include hrel hlog hk

/-- One edit, made or refused: what is heard of it and what is answered keep the chart right. -/
theorem Fits.step (hw : BlockView.Holds Good v b w) (hfits : chart.Fits v.blockSize b)
    (edit : Edit) {world : ω}
    (hwilling : ∀ change ∈ edit.change?, (edit.act.run w).1.isOk →
      ((tell before change).run world).1.isOk) :
    ∃ answer w' world' b', edit.run.run (w, world) = (answer, w', world') ∧
      BlockView.Holds Good v b' w' ∧ b'.rest v.blockSize = b.rest v.blockSize ∧
      ((((log world').drop (log world).length).foldl hear chart).answered edit answer).Fits
        v.blockSize b' := by
  have hact := hrel.edit hw edit
  rcases hr : edit.act.run w with ⟨e | _, w'⟩
  · refine ⟨_, _, _, b, Edit.run_of_error hr, (hact.of_run_error hr).1, rfl, ?_⟩
    rw [List.drop_length]
    cases edit with
    | insert | delete | write => exact hfits
  · obtain ⟨⟨hwithin, -⟩, hw'⟩ := hact.of_run_ok hr
    have hnoted := hfits.note v.blockSize_pos hwithin
    have hrest := Bytes.rest_outcome v.blockSize_pos hwithin
    cases hchange : edit.change? with
    | none =>
      refine ⟨_, _, _, _, Edit.run_of_silent hchange hr, hw', hrest, ?_⟩
      rw [List.drop_length]
      cases edit with
      | insert | delete => cases hchange
      | write block offset data => exact hnoted
    | some change =>
      refine ⟨_, _, _, _, Edit.run_of_change hchange hr, hw', hrest, ?_⟩
      have hheard := hlog.notify (hw'.register ▸ hk) (hwilling change hchange (by rw [hr]; rfl))
      rw [hheard, List.drop_left]
      cases edit with
      | insert index count =>
        obtain rfl := Option.some.inj hchange
        exact hnoted
      | delete index count =>
        obtain rfl := Option.some.inj hchange
        exact hnoted
      | write => cases hchange

theorem Fits.follow (hw : BlockView.Holds Good v b w) (hfits : chart.Fits v.blockSize b)
    {edits : List Edit} {world : ω} (hwilling : Willing before edits (w, world)) :
    ∃ b', BlockView.Holds Good v b' (leave (edits.map Edit.run) (w, world)).1 ∧
      b'.rest v.blockSize = b.rest v.blockSize ∧
      (chart.follow log edits (w, world)).Fits v.blockSize b' := by
  induction edits generalizing w world b chart with
  | nil => exact ⟨b, hw, rfl, hfits⟩
  | cons edit edits ih =>
    obtain ⟨answer, w', world', b', hrun, hw', hrest, hfits'⟩ :=
      hfits.step hrel hlog hk hw edit hwilling.1
    have hwilling' := hwilling.2
    rw [hrun] at hwilling'
    obtain ⟨b'', hw'', hrest', hfits''⟩ := ih hw' hfits' hwilling'
    have hleave : leave ((edit :: edits).map Edit.run) (w, world) =
        leave (edits.map Edit.run) (w', world') := by
      rw [List.map_cons, leave, List.foldl_cons, hrun]
      rfl
    have hfollow : chart.follow log (edit :: edits) (w, world) =
        ((((log world').drop (log world).length).foldl hear chart).answered edit answer).follow log
          edits (w', world') := by
      rw [Chart.follow, hrun]
    rw [hleave, hfollow]
    exact ⟨b'', hw'', hrest'.trans hrest, hfits''⟩

end Step

end Chart

/-- Over a medium that fails no more, a listener that hears of every change can keep a chart of the
blocks, whatever was done to the tower before and whatever edits are asked for now, and whether the
listeners behind it fail or not. The bytes behind the last block stay as they are. -/
theorem chart_tracks {ς ρ μ : Type} [Collector ς] [ByteSource ρ] [Storage μ] [Meaning μ]
    {f : Failures} {Sane Good : μ → Prop} (h : Contract f Sane) (hfaultless : Faultless Good) {m : μ}
    (hm : Sane m) (world : ω) (actions : List (Action κ ς ρ)) {kinds : List LayerKind}
    {v : BlockView κ (Tower κ μ kinds)} {heard : ω}
    (hv : leave (actions.map Action.run) (AnyTower.ofMedium m, world) = (⟨.blocks :: kinds, v⟩, heard))
    (hgood : Good v.inner.medium) (hopen : Storage.isClosed v = false)
    (hk : v.register.listeners = before ++ k :: after) (hlog : Logs log k (before ++ after))
    {edits : List Edit} (hwilling : Willing before edits (v, heard)) :
    let w := (leave (edits.map Edit.run) (v, heard)).1
    ((Chart.start (plain v).bytes v.blockSize).follow log edits (v, heard)).Tells w ∧
      (plain w).bytes.rest w.blockSize = (plain v).bytes.rest v.blockSize ∧
      w.blockSize = v.blockSize := by
  have hintact := AnyTower.intact_leave h hm world actions
  rw [hv] at hintact
  have hsound : Tower.Sound (fun _ _ => True) (fun _ => Sane) kinds 0 v.inner := hintact
  have ho : (plain v.inner).closed = false :=
    ((AnyTower.contract_of_medium h kinds).isClosed v.inner hsound).symm.trans hopen
  obtain ⟨P, hrel, hP⟩ := Tower.exists_reliable (κ := κ) hfaultless kinds
  have hself := BlockView.holds_self (hP v.inner hsound hgood) ho
  obtain ⟨b, hw, hrest, hfits⟩ := (Chart.fits_start _ _).follow hrel hlog hk hself hwilling
  have hb : (plain (leave (edits.map Edit.run) (v, heard)).1).bytes = b := hw.bytes
  refine ⟨hfits.tells hrel hw, ?_, hw.blockSize⟩
  rw [hb, hw.blockSize]
  exact hrest

end Listeners

namespace Cast

def heardBy (name : String) (c : Cast) : List Change :=
  ((c.heard.filter fun note => note.1 == name).map Prod.snd).reverse

theorem heard_hear (name : String) (change : Change) (c : Cast) :
    ((hear name change).run c).2.heard = (name, change) :: c.heard := by
  simp only [hear, run_bind, run_modify, run_get]
  split <;> rfl

theorem logs_heardBy {name : String} {others : List String} (h : name ∉ others) :
    Logs (heardBy name) name others where
  hears change c := by
    show heardBy name ((hear name change).run c).2 = _
    rw [heardBy, heard_hear]
    simp [heardBy]
  others l hl change c := by
    have hne : l ≠ name := fun he => h (he ▸ hl)
    show heardBy name ((hear l change).run c).2 = _
    rw [heardBy, heard_hear]
    simp [heardBy, hne]

end Cast

def sevenBytes : Medium := .file { name := "disk.bin", bytes := .ofOctets [1, 2, 3, 4, 5, 6, 7] }

/-- A write is held back when the blocks are wrapped on, and of three listeners the last one fails. -/
def overheard : List (Action String EndlessSink ThrottledSource) :=
  [.step (.wrap (.writeBehind 3)), .step (.store (.write (.ofOctets [9]))),
    .step (.wrap (.readAhead 4)), .step (.wrap (.blocks 2)),
    .step (.blocks (.addListener "first")), .step (.blocks (.addListener "log")),
    .step (.blocks (.addListener "sour"))]

def soured : Cast := { scripts := [("sour", { objection := some .io })] }

def edited : List Edit :=
  [.insert 1 2, .write 0 1 (.ofOctets [8]), .insert 9 1, .delete 1 1, .delete 3 2,
    .write 3 0 (.ofOctets [5, 5]), .write 0 1 (.ofOctets [5, 5])]

/-- What is there when the edits begin, and what they leave: the listener behind the log fails
whenever it is told, and the chart is kept for all that. -/
theorem edited_overheard :
    ∃ (v : BlockView String (Tower String Medium [.readAhead, .writeBehind])) (heard : Cast),
      leave (overheard.map Action.run) (AnyTower.ofMedium sevenBytes, soured) =
        (⟨[.blocks, .readAhead, .writeBehind], v⟩, heard) ∧
      v.inner.medium = sevenBytes ∧ Storage.isClosed v = false ∧
      v.register.listeners = ["first"] ++ "log" :: ["sour"] ∧
      Willing ["first"] edited (v, heard) ∧
      ((Chart.start (plain v).bytes v.blockSize).follow (Cast.heardBy "log") edited
        (v, heard)).map (Option.map Bytes.octets) = [some [9, 8], none, some [3, 4], some [5, 5]] ∧
      Bytes.octets (plain (leave (edited.map Edit.run) (v, heard)).1).bytes =
        [9, 8, 5, 6, 3, 4, 5, 5, 7] := by
  refine ⟨_, _, rfl, rfl, rfl, rfl, ?_, ?_, ?_⟩
  · decide +kernel
  · decide +kernel
  · decide +kernel

theorem chart_tracks_of_edited :
    ∃ (v : BlockView String (Tower String Medium [.readAhead, .writeBehind])) (heard : Cast),
      leave (overheard.map Action.run) (AnyTower.ofMedium sevenBytes, soured) =
        (⟨[.blocks, .readAhead, .writeBehind], v⟩, heard) ∧
      ∃ w chart, w = (leave (edited.map Edit.run) (v, heard)).1 ∧
        chart = (Chart.start (plain v).bytes v.blockSize).follow (Cast.heardBy "log") edited
          (v, heard) ∧
        chart.map (Option.map Bytes.octets) = [some [9, 8], none, some [3, 4], some [5, 5]] ∧
        Bytes.octets (plain w).bytes = [9, 8, 5, 6, 3, 4, 5, 5, 7] ∧ chart.Tells w ∧
        (plain w).bytes.rest w.blockSize = (plain v).bytes.rest v.blockSize ∧
        w.blockSize = v.blockSize := by
  have hgenuine : sevenBytes.Genuine := rfl
  have hserving : sevenBytes.Serving True := by
    refine ⟨rfl, fun _ => rfl, rfl, ?_⟩
    show 7 ≤ maxPosition
    decide
  have hlog : Logs (Cast.heardBy "log") "log" (["first"] ++ ["sour"]) :=
    Cast.logs_heardBy (by decide)
  obtain ⟨v, heard, hv, hmedium, hopen, hk, hwilling, hchart, hbytes⟩ := edited_overheard
  refine ⟨v, heard, hv, _, _, rfl, rfl, hchart, hbytes, ?_⟩
  exact chart_tracks (Medium.contract (f := .whole) trivial) Medium.faultless hgenuine soured
    overheard hv (hmedium ▸ hserving) hopen hk hlog hwilling

end ByteTower
