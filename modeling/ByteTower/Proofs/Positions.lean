import ByteTower.Proofs.Region

namespace ByteTower.Region

variable {a b c : Region} {p : Nat}

theorem isEmpty_eq_true_iff : a.isEmpty = true ↔ a.size = 0 := beq_iff_eq

theorem isEmpty_eq_false_iff : a.isEmpty = false ↔ 0 < a.size := by
  rw [← Bool.not_eq_true, isEmpty_eq_true_iff, Nat.pos_iff_ne_zero]

theorem bounds_mem (ha : 0 < a.size) : a.start ∈ a ∧ a.stop - 1 ∈ a := by
  simp only [mem_iff, stop]
  omega

/-- Where the overlap lies, both regions lie, and nowhere else do they meet. -/
theorem mem_of_overlap? (h : a.overlap? b = some c) : p ∈ c ↔ p ∈ a ∧ p ∈ b := by
  obtain ⟨hlt, rfl⟩ := overlap?_eq_some_iff.1 h
  simp only [mem_iff, stop] at hlt ⊢
  omega

theorem isEmpty_of_overlap? (h : a.overlap? b = some c) : c.isEmpty = false := by
  obtain ⟨hlt, rfl⟩ := overlap?_eq_some_iff.1 h
  exact isEmpty_eq_false_iff.2 (Nat.sub_pos_of_lt hlt)

/-- Two regions do not overlap if and only if they have no position in common: if their ends leave room
for one, the later start is one. -/
theorem overlap?_eq_none_iff_disjoint : a.overlap? b = none ↔ ∀ p, ¬(p ∈ a ∧ p ∈ b) := by
  rw [overlap?_eq_none_iff]
  simp only [mem_iff]
  constructor
  · intro hle p hp
    omega
  · intro hnone
    have hstart := hnone (max a.start b.start)
    omega

theorem overlap?_comm (a b : Region) : a.overlap? b = b.overlap? a := by
  simp only [overlap?, Nat.max_comm, Nat.min_comm]

theorem covers_iff_forall_mem (hb : 0 < b.size) : a.Covers b ↔ ∀ p ∈ b, p ∈ a := by
  rw [Covers, if_neg (Nat.ne_of_gt hb)]
  constructor
  · rintro ⟨hstart, hstop⟩ p hp
    simp only [mem_iff] at hp ⊢
    omega
  · intro hsub
    -- the first and the last position of `b` tell its ends
    have hfirst := hsub b.start (bounds_mem hb).1
    have hlast := hsub (b.stop - 1) (bounds_mem hb).2
    simp only [mem_iff, stop] at hfirst hlast ⊢
    omega

theorem covers_iff_overlap?_eq (hb : 0 < b.size) : a.Covers b ↔ a.overlap? b = some b := by
  obtain ⟨start, size⟩ := b
  have hsize : 0 < size := hb
  rw [Covers, if_neg (Nat.ne_of_gt hsize), overlap?_eq_some_iff, Region.mk.injEq]
  simp only [stop]
  omega

theorem covers_iff_start_mem (hb : b.size = 0) : a.Covers b ↔ b.start ∈ a := by
  rw [Covers, if_pos hb]

theorem Covers.trans (hb : 0 < b.size) (hc : 0 < c.size) (hab : a.Covers b) (hbc : b.Covers c) :
    a.Covers c := by
  rw [covers_iff_forall_mem hb] at hab
  rw [covers_iff_forall_mem hc] at hbc ⊢
  exact fun p hp => hab p (hbc p hp)

theorem ext_mem (ha : 0 < a.size) (hb : 0 < b.size) (h : ∀ p, p ∈ a ↔ p ∈ b) : a = b := by
  obtain ⟨hfirst, hlast⟩ := bounds_mem ha
  obtain ⟨hfirst', hlast'⟩ := bounds_mem hb
  rw [h] at hfirst hlast
  rw [← h] at hfirst' hlast'
  obtain ⟨start, size⟩ := a
  obtain ⟨start', size'⟩ := b
  simp only [mem_iff, stop] at *
  rw [Region.mk.injEq]
  omega

theorem Covers.antisymm (ha : 0 < a.size) (hb : 0 < b.size) (hab : a.Covers b) (hba : b.Covers a) :
    a = b := by
  rw [covers_iff_forall_mem hb] at hab
  rw [covers_iff_forall_mem ha] at hba
  exact ext_mem ha hb fun p => ⟨hba p, hab p⟩

/-- What the ends of regions are compared for is what their positions say. Two regions have no overlap
if they have no position in common, and otherwise overlap where they do, whichever of them is asked, and
end no later. A region covers one that is not empty if it has all its positions, which is to say that
this one is their overlap, and an empty one if it has its start. Among regions that are not empty, to
cover is an order. -/
theorem ends_tell_positions (a b c : Region) :
    (a.overlap? b = none ↔ ∀ p, ¬(p ∈ a ∧ p ∈ b)) ∧
      (∀ common, a.overlap? b = some common →
        common.isEmpty = false ∧ (∀ p, p ∈ common ↔ p ∈ a ∧ p ∈ b) ∧
          common.stop ≤ a.stop ∧ common.stop ≤ b.stop) ∧
      a.overlap? b = b.overlap? a ∧
      (b.isEmpty = false →
        (a.Covers b ↔ ∀ p ∈ b, p ∈ a) ∧ (a.Covers b ↔ a.overlap? b = some b)) ∧
      (b.isEmpty = true → (a.Covers b ↔ b.start ∈ a)) ∧
      (a.isEmpty = false → b.isEmpty = false → c.isEmpty = false →
        a.Covers b → b.Covers c → a.Covers c) ∧
      (a.isEmpty = false → b.isEmpty = false → a.Covers b → b.Covers a → a = b) := by
  simp only [isEmpty_eq_false_iff, isEmpty_eq_true_iff]
  refine ⟨overlap?_eq_none_iff_disjoint, ?_, overlap?_comm a b, ?_, covers_iff_start_mem, ?_, ?_⟩
  · intro common h
    obtain ⟨-, -, hstop⟩ := bounds_of_overlap? h
    exact ⟨isEmpty_eq_false_iff.1 (isEmpty_of_overlap? h), fun p => mem_of_overlap? h, hstop⟩
  · exact fun hb => ⟨covers_iff_forall_mem hb, covers_iff_overlap?_eq hb⟩
  · exact fun _ hb hc hab hbc => hab.trans hb hc hbc
  · exact fun ha hb hab hba => hab.antisymm ha hb hba

/-- Three regions that end together, each inside the one before, and one that starts where they end. -/
theorem ends_tell_positions_of_nested :
    let a : Region := ⟨10, 10⟩
    a.overlap? ⟨12, 8⟩ = some ⟨12, 8⟩ ∧ a.Covers ⟨19, 1⟩ ∧
      ∀ p, ¬(p ∈ a ∧ p ∈ (⟨20, 5⟩ : Region)) := by
  obtain ⟨-, -, -, hcovers, -, htrans, -⟩ := ends_tell_positions ⟨10, 10⟩ ⟨12, 8⟩ ⟨19, 1⟩
  have hab : Covers ⟨10, 10⟩ ⟨12, 8⟩ := by decide
  refine ⟨(hcovers rfl).2.1 hab, htrans rfl rfl rfl hab (by decide), ?_⟩
  exact (ends_tell_positions ⟨10, 10⟩ ⟨20, 5⟩ ⟨20, 5⟩).1.1 rfl

end ByteTower.Region
