import TestGear.Aggregate

/-!
# TestGear.Aggregate.Rearrange

Moving columns about, and putting columns that did not run between them.

A `Move` follows every column to its new place and says that what else stands
there is not compared.  Rows do change (a dead column may have keys of its
own), but no comparison does: `verdicts_of_move`.
-/

namespace TestGear.Aggregate

/-- `columns'` has the columns of `columns` where `place` says, and at every
other place a column whose status is not `ok`. -/
structure Move (columns columns' : List Column) where
  place : Nat → Nat
  injective : ∀ i < columns.length, ∀ j < columns.length, place i = place j → i = j
  kept : ∀ i < columns.length, columns'[place i]? = columns[i]?
  dead : ∀ j c, columns'[j]? = some c → (∀ i < columns.length, place i ≠ j) → c.status ≠ .ok

namespace Move

/-- Dead columns put in somewhere. -/
def insert (pre dead post : List Column) (h : ∀ c ∈ dead, c.status ≠ .ok) :
    Move (pre ++ post) (pre ++ dead ++ post) where
  place i := if i < pre.length then i else i + dead.length
  injective i _ j _ hij := by split at hij <;> split at hij <;> omega
  kept i _ := by
    split
    · next hi => grind
    · next hi => grind
  dead j c hc hnot := by
    have hj : j < pre.length + (dead.length + post.length) := by
      simpa using (List.getElem?_eq_some_iff.mp hc).1
    by_cases hpre : j < pre.length
    · exact absurd (if_pos hpre) (hnot j (by simp; omega))
    · by_cases hdead : j < pre.length + dead.length
      · rw [List.getElem?_append_left (by simpa using hdead),
          List.getElem?_append_right (Nat.le_of_not_lt hpre)] at hc
        exact h c (List.mem_of_getElem? hc)
      · have hback := hnot (j - dead.length) (by simp; omega)
        rw [if_neg (by omega)] at hback
        omega

/-- Columns put in another order. -/
def permute (columns : List Column) (σ : Equiv.Perm (Fin columns.length)) :
    Move columns (List.ofFn fun j => columns.get (σ.symm j)) where
  place i := if h : i < columns.length then σ ⟨i, h⟩ else i
  injective i hi j hj hij := by
    rw [dif_pos hi, dif_pos hj] at hij
    exact congrArg Fin.val (σ.injective (Fin.ext hij))
  kept i hi := by
    rw [dif_pos hi, List.getElem?_ofFn, dif_pos (σ ⟨i, hi⟩).isLt, Fin.eta, Equiv.symm_apply_apply]
    simp
  dead j c hc hnot := by
    have hj : j < columns.length := by simpa using (List.getElem?_eq_some_iff.mp hc).1
    have hback := hnot (σ.symm ⟨j, hj⟩) (σ.symm ⟨j, hj⟩).isLt
    simp at hback

variable {columns columns' : List Column} (m : Move columns columns')

theorem lt_of_mem_compared {i : Nat} (h : i ∈ compared columns) : i < columns.length := by
  obtain ⟨c, hc, -⟩ := mem_compared_iff.mp h
  exact (List.getElem?_eq_some_iff.mp hc).1

include m

theorem place_mem_compared {i : Nat} (h : i < columns.length) :
    m.place i ∈ compared columns' ↔ i ∈ compared columns := by
  rw [mem_compared_iff, mem_compared_iff, m.kept i h]

/-- Whatever is compared afterwards was compared before. -/
theorem exists_place {j : Nat} (h : j ∈ compared columns') :
    ∃ i ∈ compared columns, m.place i = j := by
  obtain ⟨c, hc, hok⟩ := mem_compared_iff.mp h
  have hplace : ∃ i < columns.length, m.place i = j := by
    by_contra hnot
    exact m.dead j c hc (fun i hi hij => hnot ⟨i, hi, hij⟩) hok
  obtain ⟨i, hi, rfl⟩ := hplace
  exact ⟨i, (m.place_mem_compared hi).mp h, rfl⟩

theorem outcomeIn_place {i : Nat} (h : i < columns.length) (key : Text) :
    outcomeIn columns' key (m.place i) = outcomeIn columns key i := by
  rw [outcomeIn, outcomeIn, m.kept i h]

theorem forall_compared {P : Nat → Prop} :
    (∀ j ∈ compared columns', P j) ↔ ∀ i ∈ compared columns, P (m.place i) := by
  constructor
  · intro h i hi
    exact h (m.place i) ((m.place_mem_compared (lt_of_mem_compared hi)).mpr hi)
  · intro h j hj
    obtain ⟨i, hi, rfl⟩ := m.exists_place hj
    exact h i hi

theorem exists_compared {P : Nat → Prop} :
    (∃ j ∈ compared columns', P j) ↔ ∃ i ∈ compared columns, P (m.place i) := by
  have h := not_congr (m.forall_compared (P := fun j => ¬ P j))
  push Not at h
  exact h

theorem length_compared : (compared columns').length = (compared columns).length := by
  have hnodup : ((compared columns).map m.place).Nodup :=
    (nodup_compared columns).map_on fun i hi j hj hij =>
      m.injective i (lt_of_mem_compared hi) j (lt_of_mem_compared hj) hij
  have hperm : ((compared columns).map m.place).Perm (compared columns') := by
    rw [List.perm_ext_iff_of_nodup hnodup (nodup_compared columns')]
    intro j
    rw [List.mem_map]
    constructor
    · rintro ⟨i, hi, rfl⟩
      exact (m.place_mem_compared (lt_of_mem_compared hi)).mpr hi
    · exact m.exists_place
  rw [← hperm.length_eq, List.length_map]

end Move

/-! ## Verdicts -/

section

variable {columns columns' : List Column}

/-- A list of the rows that meet a condition names the keys that meet it, if
only keys of results do. -/
theorem mem_keys_of_rows_iff (P : List Column → Text → Prop) {rows : List Row}
    (hrows : ∀ r, r ∈ rows ↔ r ∈ (build columns).rows ∧ P columns r.key)
    (hkeys : ∀ key, P columns key → key ∈ keys columns) (key : Text) :
    key ∈ rows.map Row.key ↔ P columns key := by
  rw [List.mem_map]
  constructor
  · rintro ⟨r, hr, rfl⟩
    exact ((hrows r).mp hr).2
  · intro hP
    obtain ⟨r, hr, rfl⟩ := mem_keys_build.mpr (hkeys key hP)
    exact ⟨r, (hrows r).mpr ⟨hr, hP⟩, rfl⟩

theorem mem_keys_disagreements_iff (key : Text) :
    key ∈ (build columns).disagreements.map Row.key ↔ Differs columns key := by
  refine mem_keys_of_rows_iff Differs (fun r => ?_) (fun key => ?_) key
  · rw [Matrix.disagreements, List.mem_filter]
    exact and_congr_right differs_iff
  · rintro ⟨i, -, j, -, hne⟩
    -- two cells that differ are not both empty
    by_cases hi : outcomeIn columns key i = .missing
    · exact mem_keys_of_outcomeIn_ne (i := j) (hi ▸ hne.symm)
    · exact mem_keys_of_outcomeIn_ne hi

theorem mem_keys_allSkipped_iff (key : Text) :
    key ∈ (build columns).allSkipped.map Row.key ↔ SkippedByAll columns key := by
  refine mem_keys_of_rows_iff SkippedByAll (fun r => ?_) (fun key => ?_) key
  · rw [Matrix.allSkipped, List.mem_filter]
    exact and_congr_right allSkipped_iff
  · rintro ⟨⟨i, hi⟩, hskip⟩
    exact mem_keys_of_outcomeIn_ne (i := i) (by simp [hskip i hi, Outcome.missing])

theorem mem_keys_sharedFailures_iff (key : Text) :
    key ∈ (build columns).sharedFailures.map Row.key ↔ FailedByAll columns key := by
  refine mem_keys_of_rows_iff FailedByAll (fun r => mem_sharedFailures_iff)
    (fun key => ?_) key
  rintro ⟨htwo, hfail⟩
  obtain ⟨i, hi⟩ := List.exists_mem_of_length_pos (Nat.lt_of_lt_of_le Nat.zero_lt_two htwo)
  exact mem_keys_of_outcomeIn_ne (i := i) (by simp [hfail i hi, Outcome.missing])

theorem mem_keys_uniqueFailures_iff (i : Nat) (key : Text) :
    (∃ rows, (i, rows) ∈ (build columns).uniqueFailuresByColumn ∧ key ∈ rows.map Row.key) ↔
      FailsAlone columns key i := by
  constructor
  · rintro ⟨rows, hmem, hkey⟩
    obtain ⟨r, hr, rfl⟩ := List.mem_map.mp hkey
    exact (mem_uniqueFailures_iff.mp ⟨rows, hmem, hr⟩).2
  · intro hal
    have hkey : key ∈ keys columns :=
      mem_keys_of_outcomeIn_ne (i := i) (by simp [hal.2.2.1, Outcome.missing])
    obtain ⟨r, hr, rfl⟩ := mem_keys_build.mpr hkey
    obtain ⟨rows, hmem, hin⟩ := mem_uniqueFailures_iff.mpr ⟨hr, hal⟩
    exact ⟨rows, hmem, List.mem_map_of_mem hin⟩

theorem Move.failsAlone_place (m : Move columns columns') {i : Nat} (hi : i < columns.length)
    (key : Text) : FailsAlone columns' key (m.place i) ↔ FailsAlone columns key i := by
  have hne : ∀ j ∈ compared columns, m.place j ≠ m.place i ↔ j ≠ i := fun j hj =>
    not_congr ⟨m.injective j (lt_of_mem_compared hj) i hi, congrArg m.place⟩
  rw [FailsAlone, FailsAlone, m.place_mem_compared hi, m.exists_compared, m.forall_compared,
    m.outcomeIn_place hi]
  refine and_congr_right fun _ => and_congr ?_ (and_congr_right fun _ => ?_)
  · exact exists_congr fun j => and_congr_right fun hj => hne j hj
  · refine forall₂_congr fun j hj => ?_
    rw [hne j hj, m.outcomeIn_place (lt_of_mem_compared hj)]

/-- **Dead and moved columns**: columns that did not run, wherever they are
put, and another order of the columns change no verdict. -/
theorem verdicts_of_move (m : Move columns columns') (key : Text) :
    (key ∈ (build columns').disagreements.map Row.key ↔
      key ∈ (build columns).disagreements.map Row.key) ∧
    (key ∈ (build columns').sharedFailures.map Row.key ↔
      key ∈ (build columns).sharedFailures.map Row.key) ∧
    (key ∈ (build columns').allSkipped.map Row.key ↔
      key ∈ (build columns).allSkipped.map Row.key) ∧
    ∀ i ∈ compared columns,
      ((∃ rows, (m.place i, rows) ∈ (build columns').uniqueFailuresByColumn ∧
          key ∈ rows.map Row.key) ↔
        ∃ rows, (i, rows) ∈ (build columns).uniqueFailuresByColumn ∧ key ∈ rows.map Row.key) := by
  have hout : ∀ i ∈ compared columns,
      outcomeIn columns' key (m.place i) = outcomeIn columns key i := fun i hi =>
    m.outcomeIn_place (Move.lt_of_mem_compared hi) key
  refine ⟨?_, ?_, ?_, fun i hi => ?_⟩
  · rw [mem_keys_disagreements_iff, mem_keys_disagreements_iff, Differs, Differs, m.exists_compared]
    refine exists_congr fun i => and_congr_right fun hi => ?_
    rw [m.exists_compared, hout i hi]
    exact exists_congr fun j => and_congr_right fun hj => by rw [hout j hj]
  · rw [mem_keys_sharedFailures_iff, mem_keys_sharedFailures_iff, FailedByAll, FailedByAll,
      m.length_compared, m.forall_compared]
    exact and_congr_right fun _ => forall₂_congr fun i hi => by rw [hout i hi]
  · rw [mem_keys_allSkipped_iff, mem_keys_allSkipped_iff, SkippedByAll, SkippedByAll,
      m.forall_compared]
    refine and_congr ?_ (forall₂_congr fun i hi => by rw [hout i hi])
    have hsome := m.exists_compared (P := fun _ => True)
    simpa using hsome
  · rw [mem_keys_uniqueFailures_iff, mem_keys_uniqueFailures_iff,
      m.failsAlone_place (Move.lt_of_mem_compared hi)]

end

end TestGear.Aggregate
