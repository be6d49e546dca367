import ByteTower.Proofs.Imitation
import ByteTower.Proofs.Shift

namespace ByteTower

open StoreM

/-- A call that changes the blocks of a store. -/
inductive Edit
  | insert (index count : Nat)
  | delete (index count : Nat)
  | write (block offset : Nat) (data : Bytes)

namespace Edit

def act {κ σ : Type} [Storage σ] : Edit → StoreM (BlockView κ σ) Unit
  | insert index count => BlockView.openGap index count
  | delete index count => BlockView.closeGap index count
  | write block offset data => BlockView.writeBlock block offset data

def run {κ ω σ : Type} [Storage σ] [Audience κ ω] : Edit → StoreM (BlockView κ σ × ω) Unit
  | insert index count => BlockView.insertBlocks index count
  | delete index count => BlockView.deleteBlocks index count
  | write block offset data => onFirst (BlockView.writeBlock block offset data)

/-- What the listeners are told. -/
def change? : Edit → Option Change
  | insert index count => some (.inserted index count)
  | delete index count => some (.deleted index count)
  | write _ _ _ => none

/-- The edit stays within the blocks of `b`, which are of this size. -/
def Within (size : Nat) (b : Bytes) : Edit → Prop
  | insert index count => 0 < count ∧ index ≤ b.size / size
  | delete index count => 0 < count ∧ index + count ≤ b.size / size
  | write block offset data => BlockView.Inside size b.size block offset data.size

/-- What the edit makes of `b`. -/
def outcome (size : Nat) (b : Bytes) : Edit → Bytes
  | insert index count => b.opened (count * size) (index * size)
  | delete index count => b.without (index * size) (count * size)
  | write block offset data => b.put (block * size + offset) data

/-- The edit can be made: what comes of it is not too long either. -/
def Allowed (size : Nat) (b : Bytes) (edit : Edit) : Prop :=
  edit.Within size b ∧ (edit.outcome size b).size ≤ maxPosition

section Run

variable {κ ω σ : Type} [Storage σ] [Audience κ ω] {v w : BlockView κ σ} {world : ω} {edit : Edit}

theorem run_of_error {e : StoreError} (h : edit.act.run v = (.error e, w)) :
    edit.run.run (v, world) = (.error e, w, world) := by
  have hfirst : (onFirst edit.act).run (v, world) = (.error e, w, world) := by rw [run_onFirst, h]
  cases edit with
  | insert index count => exact run_bind_error hfirst _
  | delete index count => exact run_bind_error hfirst _
  | write block offset data => exact hfirst

theorem run_of_change {change : Change} (hchange : edit.change? = some change)
    (h : edit.act.run v = (.ok (), w)) :
    edit.run.run (v, world) =
      (((w.register.notify change).run world).1, w, ((w.register.notify change).run world).2) := by
  have hfirst : (onFirst edit.act).run (v, world) = (.ok (), w, world) := by rw [run_onFirst, h]
  cases edit with
  | insert index count =>
    obtain rfl := Option.some.inj hchange
    exact run_bind_ok hfirst _
  | delete index count =>
    obtain rfl := Option.some.inj hchange
    exact run_bind_ok hfirst _
  | write block offset data => cases hchange

theorem run_of_silent (hchange : edit.change? = none) (h : edit.act.run v = (.ok (), w)) :
    edit.run.run (v, world) = (.ok (), w, world) := by
  have hfirst : (onFirst edit.act).run (v, world) = (.ok (), w, world) := by rw [run_onFirst, h]
  cases edit with
  | insert | delete => cases hchange
  | write block offset data => exact hfirst

end Run

theorem mimics_act {κ σ τ : Type} [Storage σ] [Storage τ] {Good : σ → Prop} {view : σ → τ}
    {w : BlockView κ σ} (h : Matches Good view) (hw : BlockView.Over Good w) (edit : Edit) :
    Mimics (BlockView.Over Good) (BlockView.mapInner view) edit.act edit.act w := by
  cases edit with
  | insert index count => exact BlockView.mimics_openGap h hw index count
  | delete index count => exact BlockView.mimics_closeGap h hw index count
  | write block offset data => exact BlockView.mimics_writeBlock h hw block offset data

end Edit

namespace BlockView

section Allowed

variable {κ σ : Type} {v : BlockView κ σ} {b : Bytes}

theorem allowed_insert_iff {index count : Nat} :
    (Edit.insert index count).Allowed v.blockSize b ↔
      0 < count ∧ index ≤ b.size / v.blockSize ∧ b.size + count * v.blockSize ≤ maxPosition := by
  constructor
  · rintro ⟨⟨hcount, hindex⟩, hmax⟩
    rw [Edit.outcome, Bytes.size_opened (mul_blockSize_le hindex)] at hmax
    exact ⟨hcount, hindex, hmax⟩
  · rintro ⟨hcount, hindex, hmax⟩
    refine ⟨⟨hcount, hindex⟩, ?_⟩
    rw [Edit.outcome, Bytes.size_opened (mul_blockSize_le hindex)]
    exact hmax

theorem allowed_delete_iff (hmax : b.size ≤ maxPosition) {index count : Nat} :
    (Edit.delete index count).Allowed v.blockSize b ↔
      0 < count ∧ index + count ≤ b.size / v.blockSize := by
  refine ⟨And.left, fun hwithin => ⟨hwithin, ?_⟩⟩
  rw [Edit.outcome, Bytes.without]
  grind

theorem allowed_write_iff (hmax : b.size ≤ maxPosition) {block offset : Nat} {data : Bytes} :
    (Edit.write block offset data).Allowed v.blockSize b ↔
      Inside v.blockSize b.size block offset data.size := by
  refine ⟨And.left, fun hwithin => ⟨hwithin, ?_⟩⟩
  have hend := hwithin.le
  rw [Edit.outcome, Bytes.put]
  grind

end Allowed

variable {κ σ τ : Type} [Meaning σ] [Meaning τ] {Good : σ → Prop} {Fine : τ → Prop}
variable {view : σ → τ} {v w : BlockView κ σ} {b : Bytes}

theorem Holds.viewed (hw : Holds (fun s => Good s ∧ Fine (view s)) v b w)
    (hp : ∀ s, Good s → plain (view s) = plain s) :
    Holds Fine (v.mapInner view) b (w.mapInner view) := by
  have hplain := hp w.inner hw.good.1
  refine ⟨hw.good.2, ?_, ?_, hw.blockSize, hw.register⟩
  · exact (congrArg Memory.bytes hplain).trans hw.bytes
  · exact (congrArg Memory.closed hplain).trans hw.isOpen

theorem Holds.of_view (hgood : Good w.inner) (hw : Holds Fine (v.mapInner view) b (w.mapInner view))
    (hp : ∀ s, Good s → plain (view s) = plain s) :
    Holds (fun s => Good s ∧ Fine (view s)) v b w := by
  have hplain := hp w.inner hgood
  refine ⟨⟨hgood, hw.good⟩, ?_, ?_, hw.blockSize, hw.register⟩
  · exact (congrArg Memory.bytes hplain).symm.trans hw.bytes
  · exact (congrArg Memory.closed hplain).symm.trans hw.isOpen

variable [Storage σ] [Storage τ]

/-- The calls on the blocks of an open good store do what they are made for, and fail for no reason
but their arguments. The calls that they are made of do what they do on the plain store. -/
structure Reliable (κ : Type) {σ : Type} [Storage σ] [Meaning σ] (Good : σ → Prop) : Prop where
  matching : Matches Good plain
  bounded : ∀ {v w : BlockView κ σ} {b : Bytes}, Holds Good v b w → b.size ≤ maxPosition
  length : ∀ {v w : BlockView κ σ} {b : Bytes}, Holds Good v b w →
    (onInner Storage.length).Meets w (fun n w' => n = b.size ∧ Holds Good v b w') fun _ _ => False
  blockCount : ∀ {v w : BlockView κ σ} {b : Bytes}, Holds Good v b w →
    blockCount.Meets w (fun n w' => n = b.size / v.blockSize ∧ Holds Good v b w') fun _ _ => False
  readBlock : ∀ {v w : BlockView κ σ} {b : Bytes}, Holds Good v b w → ∀ block offset count,
    (readBlock block offset count).Meets w
      (fun data w' => Inside v.blockSize b.size block offset count ∧
        data = b.slice (block * v.blockSize + offset) count ∧ Holds Good v b w')
      fun _ w' => Holds Good v b w' ∧ ¬Inside v.blockSize b.size block offset count
  edit : ∀ {v w : BlockView κ σ} {b : Bytes}, Holds Good v b w → ∀ edit : Edit,
    edit.act.Meets w
      (fun _ w' => edit.Allowed v.blockSize b ∧ Holds Good v (edit.outcome v.blockSize b) w')
      fun _ w' => Holds Good v b w' ∧ ¬edit.Allowed v.blockSize b

theorem reliable_of_contract (h : Contract .never Good) : Reliable κ Good where
  matching := h.matches
  bounded hw := (hw.bounded h).resolve_left id
  length hw := (meets_length h hw).imp_error fun _ _ hf => hf.1
  blockCount hw := (meets_blockCount h hw).imp_error fun _ _ hf => hf.1
  readBlock hw block offset count := meets_readBlock h hw block offset count
  edit {v w b} hw edit := by
    have hmax : b.size ≤ maxPosition := (hw.bounded h).resolve_left id
    have hwhole : ∀ size, ¬Failures.never.tear size := fun _ => id
    cases edit with
    | insert index count =>
      rw [allowed_insert_iff]
      exact (meets_openGap h hwhole hw index count).imp_error
        fun _ _ hw' => hw'.resolve_right fun hf => hf.1
    | delete index count =>
      rw [allowed_delete_iff hmax]
      exact (meets_closeGap h hwhole hw index count).imp_error
        fun _ _ hw' => hw'.resolve_right fun hf => hf.1
    | write block offset data =>
      rw [allowed_write_iff hmax]
      exact meets_writeBlock h hwhole hw block offset data

theorem Reliable.of_imitates (hf : Reliable κ Fine) (h : Imitates Good view)
    (hp : ∀ s, Good s → plain (view s) = plain s) : Reliable κ fun s => Good s ∧ Fine (view s) where
  matching := h.matches.through hf.matching hp
  bounded hw := hf.bounded (hw.viewed hp)
  length hw := by
    have hlength := (mimics_onInner (h.length _ hw.good.1)).meets (hf.length (hw.viewed hp))
    exact hlength.imp (fun _ _ hw' => ⟨hw'.2.1, hw'.2.2.of_view hw'.1 hp⟩) fun _ _ hw' => hw'.2
  blockCount hw := by
    have hcount := (mimics_blockCount h.matches hw.good.1).meets (hf.blockCount (hw.viewed hp))
    exact hcount.imp (fun _ _ hw' => ⟨hw'.2.1, hw'.2.2.of_view hw'.1 hp⟩) fun _ _ hw' => hw'.2
  readBlock hw block offset count := by
    have hread := (mimics_readBlock h.matches hw.good.1 block offset count).meets
      (hf.readBlock (hw.viewed hp) block offset count)
    exact hread.imp (fun _ _ hw' => ⟨hw'.2.1, hw'.2.2.1, hw'.2.2.2.of_view hw'.1 hp⟩)
      fun _ _ hw' => ⟨hw'.2.1.of_view hw'.1 hp, hw'.2.2⟩
  edit hw edit := by
    have hedit := (edit.mimics_act h.matches hw.good.1).meets (hf.edit (hw.viewed hp) edit)
    exact hedit.imp (fun _ _ hw' => ⟨hw'.2.1, hw'.2.2.of_view hw'.1 hp⟩)
      fun _ _ hw' => ⟨hw'.2.1.of_view hw'.1 hp, hw'.2.2⟩

end BlockView

namespace Tower

variable {κ μ ν : Type}

/-- A tower over a good medium whose layers are sound over what the medium is seen as. -/
def Seen [Meaning ν] (Good : μ → Prop) (view : μ → ν) (Fine : ν → Prop) {kinds : List LayerKind}
    (t : Tower κ μ kinds) : Prop :=
  Good t.medium ∧ Sound (fun _ _ => True) (fun _ => Fine) kinds 0 (t.reseat view)

variable [Storage μ] [Meaning μ] {Good : μ → Prop}

theorem reliable_seen [Storage ν] [Meaning ν] {view : μ → ν} {Fine : ν → Prop}
    (h : Contract .never Fine) (hi : Imitates Good view)
    (hview : ∀ m, Good m → plain (view m) = plain m) (kinds : List LayerKind) :
    BlockView.Reliable κ fun t : Tower κ μ kinds => t.Seen Good view Fine := by
  have hreliable := BlockView.reliable_of_contract (κ := κ)
    (AnyTower.contract_of_medium (κ := κ) h kinds)
  exact hreliable.of_imitates (Tower.imitates hi kinds) fun t ht => plain_reseat (hview t.medium ht)

/-- Blocks of every sound tower over a medium without faults are reliable. -/
theorem exists_reliable {Sane : μ → Prop} (h : Faultless Good) (kinds : List LayerKind) :
    ∃ P : Tower κ μ kinds → Prop, BlockView.Reliable κ P ∧ ∀ t,
      Sound (fun _ _ => True) (fun _ => Sane) kinds 0 t → Good t.medium → P t := by
  obtain ⟨ν, _, _, view, Fine, hfine, himitates, hview⟩ := h
  refine ⟨_, reliable_seen hfine himitates (fun m hm => (hview m hm).2) kinds, ?_⟩
  intro t ht hgood
  obtain ⟨hmedium, hp⟩ := hview t.medium hgood
  exact ⟨hgood, sound_reseat ht hmedium hp⟩

end Tower

/-- Whatever was done to a tower before, its blocks are reliable as long as it is open and its medium
fails no more. -/
theorem AnyTower.exists_reliable_leave {κ ω ς ρ μ : Type} [Audience κ ω] [Collector ς] [ByteSource ρ]
    [Storage μ] [Meaning μ] {f : Failures} {Sane Good : μ → Prop} (h : Contract f Sane)
    (hfaultless : Faultless Good) {m : μ} (hm : Sane m) (world : ω) (actions : List (Action κ ς ρ))
    {kinds : List LayerKind} {v : BlockView κ (Tower κ μ kinds)} {heard : ω}
    (hv : leave (actions.map Action.run) (ofMedium m, world) = (⟨.blocks :: kinds, v⟩, heard))
    (hgood : Good v.inner.medium) (hopen : Storage.isClosed v = false) :
    ∃ P, BlockView.Reliable κ P ∧ BlockView.Holds P v (plain v).bytes v := by
  have hintact := intact_leave h hm world actions
  rw [hv] at hintact
  have hsound : Tower.Sound (fun _ _ => True) (fun _ => Sane) kinds 0 v.inner := hintact
  have ho : (plain v.inner).closed = false :=
    ((contract_of_medium h kinds).isClosed v.inner hsound).symm.trans hopen
  obtain ⟨P, hrel, hP⟩ := Tower.exists_reliable (κ := κ) hfaultless kinds
  exact ⟨P, hrel, BlockView.holds_self (hP v.inner hsound hgood) ho⟩

end ByteTower
