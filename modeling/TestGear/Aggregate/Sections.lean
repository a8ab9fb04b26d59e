import TestGear.Aggregate

/-!
# TestGear.Aggregate.Sections

The sections of the Markdown that a matrix is rendered to.  A check that some
compared column fails is listed once: under the one column that fails it
alone, among the failures all share, or where the implementations disagree
(`failure_in_one_section`).
-/

namespace TestGear.Aggregate

namespace Matrix

/-- The rows listed under column `i`. -/
def UniqueTo (m : Matrix) (i : Nat) (r : Row) : Prop :=
  ∃ rows, (i, rows) ∈ m.uniqueFailuresByColumn ∧ r ∈ rows

end Matrix

section

variable {columns : List Column}

/-- Only one column can fail a check alone. -/
theorem FailsAlone.eq {key : Text} {i j : Nat} (hi : FailsAlone columns key i)
    (hj : FailsAlone columns key j) : i = j := by
  by_contra hne
  have hpass := hj.2.2.2 i hi.1 hne
  rw [hi.2.2.1] at hpass
  exact Outcome.noConfusion hpass

theorem FailsAlone.differs {key : Text} {i : Nat} (h : FailsAlone columns key i) :
    Differs columns key := by
  obtain ⟨hi, ⟨j, hj, hne⟩, hfail, hpass⟩ := h
  refine ⟨i, hi, j, hj, ?_⟩
  rw [hfail, hpass j hj hne]
  exact Outcome.noConfusion

theorem FailedByAll.not_differs {key : Text} (h : FailedByAll columns key) :
    ¬ Differs columns key := by
  rintro ⟨i, hi, j, hj, hne⟩
  exact hne ((h.2 i hi).trans (h.2 j hj).symm)

/-- A check that one column fails and not every one does is disagreed about. -/
theorem differs_of_fail {key : Text} {i : Nat} (hi : i ∈ compared columns)
    (hfail : outcomeIn columns key i = .fail) (htwo : 2 ≤ (compared columns).length)
    (hnot : ¬ FailedByAll columns key) : Differs columns key := by
  have hother : ∃ j ∈ compared columns, outcomeIn columns key j ≠ .fail := by
    by_contra hall
    push Not at hall
    exact hnot ⟨htwo, hall⟩
  obtain ⟨j, hj, hne⟩ := hother
  exact ⟨i, hi, j, hj, fun heq => hne (heq ▸ hfail)⟩

theorem mem_uniqueKeys_iff {r : Row} (hr : r ∈ (build columns).rows) :
    r.key ∈ (build columns).uniqueKeys ↔ ∃ i, (build columns).UniqueTo i r := by
  simp only [Matrix.uniqueKeys, List.mem_flatMap, List.mem_map]
  constructor
  · rintro ⟨⟨i, rows⟩, hmem, s, hs, hkey⟩
    have hsrows := (mem_uniqueFailures_iff.mp ⟨rows, hmem, hs⟩).1
    exact ⟨i, rows, hmem, eq_of_key_eq hsrows hr hkey ▸ hs⟩
  · rintro ⟨i, rows, hmem, hin⟩
    exact ⟨(i, rows), hmem, r, hin, rfl⟩

theorem mem_remaining_iff {r : Row} :
    r ∈ (build columns).remainingDisagreements ↔ r ∈ (build columns).disagreements ∧
      ¬ (∃ i, (build columns).UniqueTo i r) ∧ r ∉ (build columns).sharedFailures := by
  rw [Matrix.remainingDisagreements, List.mem_filter]
  refine and_congr_right fun hr => ?_
  rw [Bool.and_eq_true, decide_eq_true_iff, decide_eq_true_iff,
    mem_uniqueKeys_iff (List.mem_filter.mp hr).1]

/-- **Every failure is in one section**: with two columns to compare, a row
that one of them fails is listed under exactly one column, or as shared, or as
a remaining disagreement, and in no two of these; the lists of different
columns have nothing in common, what is listed under a column is disagreed
about and what is shared is not, and neither list has a row without failure. -/
theorem failure_in_one_section (htwo : 2 ≤ (compared columns).length) (r : Row)
    (hr : r ∈ (build columns).rows) :
    ((∃ i ∈ compared columns, r.outcomeAt i = .fail) →
      ((∃! i, (build columns).UniqueTo i r) ∧ r ∉ (build columns).sharedFailures ∧
          r ∉ (build columns).remainingDisagreements) ∨
        ((¬ ∃ i, (build columns).UniqueTo i r) ∧ r ∈ (build columns).sharedFailures ∧
          r ∉ (build columns).remainingDisagreements) ∨
        ((¬ ∃ i, (build columns).UniqueTo i r) ∧ r ∉ (build columns).sharedFailures ∧
          r ∈ (build columns).remainingDisagreements)) ∧
    (∀ i j, (build columns).UniqueTo i r → (build columns).UniqueTo j r → i = j) ∧
    (∀ i, (build columns).UniqueTo i r → r ∈ (build columns).disagreements) ∧
    (r ∈ (build columns).sharedFailures → r ∉ (build columns).disagreements) ∧
    ((∃ i, (build columns).UniqueTo i r) ∨ r ∈ (build columns).sharedFailures →
      ∃ i ∈ compared columns, r.outcomeAt i = .fail) := by
  have hunique : ∀ i, (build columns).UniqueTo i r ↔ FailsAlone columns r.key i := fun i =>
    mem_uniqueFailures_iff.trans (and_iff_right hr)
  have hshared : r ∈ (build columns).sharedFailures ↔ FailedByAll columns r.key :=
    mem_sharedFailures_iff.trans (and_iff_right hr)
  have hdiff : r ∈ (build columns).disagreements ↔ Differs columns r.key := by
    rw [Matrix.disagreements, List.mem_filter, and_iff_right hr, differs_iff hr]
  simp only [mem_remaining_iff, hunique, hshared, hdiff, outcomeAt_of_mem_rows hr]
  refine ⟨?_, fun i j => FailsAlone.eq, fun i => FailsAlone.differs,
    FailedByAll.not_differs, ?_⟩
  · rintro ⟨i, hi, hfail⟩
    by_cases halone : ∃ i, FailsAlone columns r.key i
    · obtain ⟨j, hj⟩ := halone
      have hnot : ¬ FailedByAll columns r.key := fun h => h.not_differs hj.differs
      exact Or.inl ⟨⟨j, hj, fun k hk => hk.eq hj⟩, hnot, fun h => h.2.1 ⟨j, hj⟩⟩
    · by_cases hall : FailedByAll columns r.key
      · exact Or.inr (Or.inl ⟨halone, hall, fun h => h.2.2 hall⟩)
      · exact Or.inr (Or.inr ⟨halone, hall, differs_of_fail hi hfail htwo hall, halone, hall⟩)
  · rintro (⟨i, hi⟩ | hall)
    · exact ⟨i, hi.1, hi.2.2.1⟩
    · obtain ⟨i, hi⟩ := List.exists_mem_of_length_pos (Nat.lt_of_lt_of_le Nat.zero_lt_two htwo)
      exact ⟨i, hi, hall.2 i hi⟩

/-- A column in which one check failed, and one in which it passed. -/
def oneFails : List Column :=
  [{ results := [{ name := "smoke: idn".toList, outcome := .fail }] },
    { results := [{ name := "smoke: idn".toList, outcome := .pass }] }]

/-- The row of that check is listed under the first column, and nowhere else. -/
theorem failure_in_one_section_oneFails : 2 ≤ (compared oneFails).length ∧
    ∃ r ∈ (build oneFails).rows, (build oneFails).UniqueTo 0 r ∧
      r ∉ (build oneFails).sharedFailures ∧ r ∉ (build oneFails).remainingDisagreements := by
  have htwo : 2 ≤ (compared oneFails).length := by decide
  have hrow : ∃ r ∈ (build oneFails).rows, ∃ p ∈ (build oneFails).uniqueFailuresByColumn,
      p.1 = 0 ∧ r ∈ p.2 := by decide
  obtain ⟨r, hr, ⟨i, rows⟩, hmem, rfl, hin⟩ := hrow
  have hunique : ∃ i, (build oneFails).UniqueTo i r := ⟨_, rows, hmem, hin⟩
  obtain ⟨hone, -, -, -, hfails⟩ := failure_in_one_section htwo r hr
  refine ⟨htwo, r, hr, ⟨rows, hmem, hin⟩, ?_⟩
  rcases hone (hfails (.inl hunique)) with ⟨-, hnone⟩ | ⟨hnot, -⟩ | ⟨hnot, -⟩
  · exact hnone
  · exact absurd hunique hnot
  · exact absurd hunique hnot

end

end TestGear.Aggregate
