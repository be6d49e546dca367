import ByteTower.Region

namespace ByteTower.Region

variable {a b c : Region}

theorem overlap?_of_lt (h : max a.start b.start < min a.stop b.stop) :
    a.overlap? b = some ⟨max a.start b.start, min a.stop b.stop - max a.start b.start⟩ := by
  simp only [overlap?]
  exact if_pos h

theorem overlap?_of_le (h : min a.stop b.stop ≤ max a.start b.start) : a.overlap? b = none := by
  simp only [overlap?]
  exact if_neg (Nat.not_lt.2 h)

theorem overlap?_eq_none_iff : a.overlap? b = none ↔ min a.stop b.stop ≤ max a.start b.start := by
  refine ⟨fun h => Nat.le_of_not_lt fun hlt => ?_, overlap?_of_le⟩
  rw [overlap?_of_lt hlt] at h
  cases h

theorem overlap?_eq_some_iff : a.overlap? b = some c ↔
    max a.start b.start < min a.stop b.stop ∧
      c = ⟨max a.start b.start, min a.stop b.stop - max a.start b.start⟩ := by
  by_cases h : max a.start b.start < min a.stop b.stop
  · rw [overlap?_of_lt h, Option.some.injEq, eq_comm, and_iff_right h]
  · rw [overlap?_of_le (by omega)]
    exact ⟨fun hc => (nomatch hc), fun hc => absurd hc.1 h⟩

theorem bounds_of_overlap? (h : a.overlap? b = some c) :
    a.start ≤ c.start ∧ b.start ≤ c.start ∧ c.stop ≤ a.stop ∧ c.stop ≤ b.stop := by
  obtain ⟨hlt, rfl⟩ := overlap?_eq_some_iff.1 h
  have hstop : max a.start b.start + (min a.stop b.stop - max a.start b.start) =
      min a.stop b.stop := by omega
  refine ⟨Nat.le_max_left _ _, Nat.le_max_right _ _, ?_, ?_⟩
  · exact Nat.le_trans (Nat.le_of_eq hstop) (Nat.min_le_left _ _)
  · exact Nat.le_trans (Nat.le_of_eq hstop) (Nat.min_le_right _ _)

end ByteTower.Region
