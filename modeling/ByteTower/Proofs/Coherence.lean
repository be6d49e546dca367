import ByteTower.Proofs.Media
import ByteTower.Proofs.Request
import ByteTower.Proofs.Tower
import ByteTower.Proofs.Transfer

namespace ByteTower

open StoreM

inductive CacheCall
  | ask (request : Request)
  /-- To read so many bytes and no fewer. -/
  | insist (n : Nat)
  /-- To drop the window. -/
  | invalidate

namespace CacheCall

variable {σ : Type} [Storage σ]

def run : CacheCall → StoreM (ReadAhead σ) Response
  | ask request => request.run
  | insist n => (fun data => .given (.bytes data)) <$> Storage.readExactly n
  | invalidate => do
    modify ReadAhead.invalidate
    return .nothing

variable [Meaning σ] {f : Failures} {v : Nat → Bytes → Prop} {Good : Nat → σ → Prop}

theorem sound_run (h : Tracks f (fun _ _ => True) Good) {i size : Nat} {c : ReadAhead σ}
    (hc : ReadAhead.Sound (Good i) size c) (call : CacheCall) :
    ReadAhead.Sound (Good i) size (call.run.run c).2 := by
  have ht := ReadAhead.tracks h size
  cases call with
  | ask request =>
    have hr := request.meets_run ht (Nat.le_refl i) hc
    exact hr.state (fun _ _ ht => ht.1 trivial) fun _ _ ht => ht.1
  | insist n =>
    have hr := (ht.reading i).readExactly hc n
    rw [run, run_map]
    exact Meets.state hr (fun _ _ ht => ht.1) fun _ _ ht => ht.1
  | invalidate => exact hc.invalidate

theorem sound_leave (h : Tracks f (fun _ _ => True) Good) {i size : Nat} {c : ReadAhead σ}
    (hc : ReadAhead.Sound (Good i) size c) (calls : List CacheCall) :
    ReadAhead.Sound (Good i) size (leave (calls.map run) c) := by
  refine leave_of_step ?_ hc
  intro act hact d hd
  obtain ⟨call, -, rfl⟩ := List.mem_map.1 hact
  exact call.sound_run h hd

end CacheCall

variable {κ μ : Type} [Storage μ] [Meaning μ] {Good : μ → Prop}

/-- The window of a read-ahead layer over any tower mirrors the wrapped store after every run, whichever
calls of the medium have failed in it. -/
theorem window_coherent (h : Contract .torn Good) {m : μ} (hm : Good m) {plans : List LayerPlan}
    {t : AnyTower κ μ} (ht : (AnyTower.ofMedium m).wrapAll plans = .ok t) {size : Nat}
    {c : ReadAhead (Tower κ μ t.kinds)} (hc : ReadAhead.wrap size t.tower = .ok c)
    (calls : List CacheCall) :
    let c' := leave (calls.map CacheCall.run) c
    c'.window.valid ≤ size ∧ c'.window.valid ≤ c'.window.buffer.size ∧
      (0 < c'.window.valid → c'.window.stop ≤ (plain c'.inner).bytes.size) ∧
      c'.window.buffer.slice 0 c'.window.valid =
        (plain c'.inner).bytes.slice c'.window.start c'.window.valid := by
  intro c'
  have hmedium : (AnyTower.ofMedium m : AnyTower κ μ).Sound (fun _ _ => True) (fun _ => Good) 0 := hm
  -- which bytes there are is of no concern, so all contents count as one version
  have htower := (AnyTower.sound_of_wrapAll h.unversioned (fun _ _ _ => trivial) hmedium ht).1
  have hlayers := Tower.tracks (κ := κ) h.unversioned t.kinds
  have hsound := (ReadAhead.of_wrap (hlayers.reading 0) htower hc).1
  have hleft := CacheCall.sound_leave hlayers hsound calls
  exact ⟨hleft.valid_le, hleft.mirrors.valid_le, hleft.mirrors.stop_le, hleft.mirrors.same⟩

def tearing : Probe :=
  { memory := .ofBytes (.ofOctets [1, 2, 3, 4, 5, 6]), faults := [(.write, ⟨0, 1⟩)] }

/-- A window that was patched by a write, after the write has been torn on its way to the medium. -/
theorem window_coherent_after_torn_flush :
    ∃ (t : AnyTower Empty Probe) (c c' : ReadAhead (Tower Empty Probe t.kinds)),
      (AnyTower.ofMedium tearing).wrapAll [.writeBehind 4] = .ok t ∧
      ReadAhead.wrap 4 t.tower = .ok c ∧
      c' = leave ([.ask (.read 2), .ask (.seek 1), .ask (.write (.ofOctets [9, 9])),
        .ask .flush].map CacheCall.run) c ∧
      c'.window.valid = 4 ∧ Bytes.octets (Tower.medium c'.inner).memory.bytes = [1, 9, 3, 4, 5, 6] ∧
      c'.window.valid ≤ 4 ∧ c'.window.valid ≤ c'.window.buffer.size ∧
      (0 < c'.window.valid → c'.window.stop ≤ (plain c'.inner).bytes.size) ∧
      c'.window.buffer.slice 0 c'.window.valid =
        (plain c'.inner).bytes.slice c'.window.start c'.window.valid := by
  have hw : (AnyTower.ofMedium tearing : AnyTower Empty Probe).wrapAll [.writeBehind 4] = .ok _ := rfl
  refine ⟨_, _, _, hw, rfl, rfl, ?_, ?_, ?_⟩
  · decide +kernel
  · decide +kernel
  · exact window_coherent (Probe.contract trivial trivial) (Or.inl fun _ => trivial) hw rfl _

end ByteTower
