import TestGear.Aggregate

/-!
# TestGear.Aggregate.Counts

Rows take a key the first time it occurs, cells keep the last result a column
has for it, and the counts at the head of the page count every result.  The
three agree just when no column has a key twice (`lossless_iff`): of two
results with one key the earlier one is counted and is in no cell.
-/

namespace TestGear.Aggregate

/-- The results that stand in column `i` of the rows. -/
def Matrix.shown (m : Matrix) (i : Nat) : List Result := m.rows.filterMap fun r => (r.cells[i]?).join

/-- A matrix loses and invents no result. -/
structure Lossless (columns : List Column) : Prop where
  distinct : ((build columns).rows.map Row.key).Nodup
  inOrder : (build columns).rows.map Row.key = (keys columns).eraseDups
  represented : ∀ (i : Nat) (c : Column), columns[i]? = some c → ∀ result ∈ c.results,
    ∃ r ∈ (build columns).rows, r.key = result.keyOf ∧ r.cells[i]? = some (some result)
  counted : ∀ i < columns.length, ∀ o, ((build columns).rows.countP fun r =>
    ((r.cells[i]?).join.map Result.outcome) = some o) = (build columns).counts i o
  visible : ∀ (i : Nat) (c : Column), columns[i]? = some c → ∀ result ∈ c.results,
    result.outcome = .fail → ∃ r ∈ (build columns).rows, r.key = result.keyOf ∧ r.outcomeAt i = .fail

section

variable {columns : List Column}

theorem Column.keyOf_of_lookup {c : Column} {key : Text} {result : Result}
    (h : c.lookup.get? key = some result) : result.keyOf = key ∧ result ∈ c.results := by
  obtain ⟨r, hr, heq⟩ := List.mem_map.mp (Dict.mem_of_get?_ofList h)
  cases heq
  exact ⟨rfl, hr⟩

theorem cell_of_mem_rows {r : Row} (h : r ∈ (build columns).rows) {i : Nat} {c : Column}
    (hc : columns[i]? = some c) : (r.cells[i]?).join = c.lookup.get? r.key := by
  rw [cells_of_mem_rows h, List.getElem?_map, hc]
  rfl

theorem mem_shown_iff {i : Nat} {c : Column} (hc : columns[i]? = some c) {result : Result} :
    result ∈ (build columns).shown i ↔ c.lookup.get? result.keyOf = some result := by
  simp only [Matrix.shown, List.mem_filterMap]
  constructor
  · rintro ⟨r, hr, hcell⟩
    rw [cell_of_mem_rows hr hc] at hcell
    rwa [(Column.keyOf_of_lookup hcell).1]
  · intro hget
    have hin := (Column.keyOf_of_lookup hget).2
    obtain ⟨r, hr, hkey⟩ := mem_keys_build.mpr
      (mem_keys_iff.mpr ⟨c, List.mem_of_getElem? hc, result, hin, rfl⟩)
    refine ⟨r, hr, ?_⟩
    rw [cell_of_mem_rows hr hc, hkey, hget]

/-- No key is shown twice in a column. -/
theorem nodup_keys_shown {i : Nat} {c : Column} (hc : columns[i]? = some c) :
    (((build columns).shown i).map Result.keyOf).Nodup := by
  have hkeys : ((build columns).shown i).map Result.keyOf =
      ((build columns).rows.filter fun r => ((r.cells[i]?).join).isSome).map Row.key := by
    rw [Matrix.shown]
    have hcell : ∀ r ∈ (build columns).rows, ∀ result, (r.cells[i]?).join = some result →
        result.keyOf = r.key := fun r hr result hget =>
      (Column.keyOf_of_lookup (cell_of_mem_rows hr hc ▸ hget)).1
    generalize (build columns).rows = rows at hcell
    induction rows with
    | nil => rfl
    | cons r rs ih =>
        have ih := ih fun s hs => hcell s (List.mem_cons_of_mem r hs)
        cases hr : (r.cells[i]?).join with
        | none => simp [hr, ih]
        | some result =>
            simp [hr, ih, hcell r List.mem_cons_self result hr]
  rw [hkeys]
  exact (List.filter_sublist.map Row.key).nodup (nodup_key_build columns)

theorem countP_cells (rows : List Row) (i : Nat) (o : Outcome) :
    (rows.countP fun r => ((r.cells[i]?).join.map Result.outcome) = some o) =
      ((rows.filterMap fun r => (r.cells[i]?).join).map Result.outcome).count o := by
  induction rows with
  | nil => rfl
  | cons r rs ih =>
      rw [List.countP_cons, ih, List.filterMap_cons]
      cases (r.cells[i]?).join with
      | none => simp
      | some result => simp [List.count_cons]

/-- Without repeated keys a column shows the results it has. -/
theorem shown_perm {i : Nat} {c : Column} (hc : columns[i]? = some c)
    (hnodup : (c.results.map Result.keyOf).Nodup) : ((build columns).shown i).Perm c.results := by
  rw [List.perm_ext_iff_of_nodup (nodup_keys_shown hc).of_map hnodup.of_map]
  intro result
  rw [mem_shown_iff hc]
  refine ⟨fun h => (Column.keyOf_of_lookup h).2, fun h => ?_⟩
  refine (Dict.get?_ofList_of_nodup ?_).mpr (List.mem_map_of_mem (f := fun r => (r.keyOf, r)) h)
  rwa [List.map_map]

/-- Counts that agree leave no room for a key that is there twice. -/
theorem nodup_of_counted {i : Nat} {c : Column} (hc : columns[i]? = some c)
    (h : ∀ o, (((build columns).shown i).map Result.outcome).count o =
      (c.results.map Result.outcome).count o) : (c.results.map Result.keyOf).Nodup := by
  have hlength : ((build columns).shown i).length = c.results.length := by
    have hperm := (List.perm_iff_count.mpr h).length_eq
    rwa [List.length_map, List.length_map] at hperm
  have hsub : ((build columns).shown i).map Result.keyOf ⊆ c.results.map Result.keyOf :=
    List.map_subset _ fun result hr => (Column.keyOf_of_lookup ((mem_shown_iff hc).mp hr)).2
  have hperm := ((nodup_keys_shown hc).subperm hsub).perm_of_length_le (by simp [hlength])
  exact hperm.nodup_iff.mp (nodup_keys_shown hc)

/-- **Nothing is lost** exactly if no column has a key twice. -/
theorem lossless_iff (columns : List Column) :
    Lossless columns ↔ ∀ c ∈ columns, (c.results.map Result.keyOf).Nodup := by
  constructor
  · intro h c hc
    obtain ⟨i, hi⟩ := List.mem_iff_getElem?.mp hc
    refine nodup_of_counted hi fun o => ?_
    have hcount := h.counted i (List.getElem?_eq_some_iff.mp hi).1 o
    rwa [countP_cells, Matrix.counts, show (build columns).columns[i]? = some c from hi] at hcount
  · intro h
    have hrep : ∀ (i : Nat) (c : Column), columns[i]? = some c → ∀ result ∈ c.results,
        ∃ r ∈ (build columns).rows, r.key = result.keyOf ∧ r.cells[i]? = some (some result) := by
      intro i c hc result hr
      have hshown := (shown_perm hc (h c (List.mem_of_getElem? hc))).mem_iff.mpr hr
      obtain ⟨r, hrow, hcell⟩ := List.mem_filterMap.mp hshown
      have hget := cell_of_mem_rows hrow hc ▸ hcell
      exact ⟨r, hrow, (Column.keyOf_of_lookup hget).1.symm, Option.join_eq_some_iff.mp hcell⟩
    refine ⟨nodup_key_build columns, map_key_build columns, hrep, fun i hi o => ?_,
      fun i c hc result hr hfail => ?_⟩
    · have hc := List.getElem?_eq_getElem hi
      rw [countP_cells, Matrix.counts, show (build columns).columns[i]? = _ from hc]
      exact ((shown_perm hc (h _ (List.getElem_mem hi))).map Result.outcome).count_eq o
    · obtain ⟨r, hrow, hkey, hcell⟩ := hrep i c hc result hr
      refine ⟨r, hrow, hkey, ?_⟩
      simp [Row.outcomeAt, Row.outcomes, hcell, hfail]

/-- What a check that is made in a loop leaves when two rounds fail. -/
def failedTwice : Column where
  results := [{ name := "terminate: viTerminate reports VI_SUCCESS".toList, outcome := .fail },
    { name := "terminate: viTerminate reports VI_SUCCESS".toList, outcome := .fail }]

theorem not_lossless_failedTwice : ¬ Lossless [failedTwice] := by
  intro h
  have hcount := h.counted 0 (by decide) .fail
  exact absurd hcount (by decide)

end

end TestGear.Aggregate
