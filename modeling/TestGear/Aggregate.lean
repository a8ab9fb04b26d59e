import TestGear.Dict
import TestGear.Text

/-!
# TestGear.Aggregate

`aggregate.py`: folding script reports into columns and lining columns up into
a matrix.  A report is JSON, and what a file holds stands here for the file.

Rows are joined on a result's key.  A row is there just when some column has
a result under its key (`mem_keys_build`), and what it says of a column is what
that column's dictionary says (`outcomeAt_of_mem_rows`); the lists a matrix is
read by are then conditions on a key (`differs_iff`, `allSkipped_iff`,
`mem_uniqueFailures_iff`, `mem_sharedFailures_iff`).
-/

namespace TestGear.Aggregate

/-! ## Reports and columns -/

/-- What a check came to.  The harness writes three words, but a report is
text and any other word may stand there. -/
inductive Outcome where
  | pass
  | fail
  | skip
  | other (word : Text)
deriving DecidableEq, Repr

/-- What a table shows where a column has no answer. -/
def Outcome.missing : Outcome := .other "-".toList

/-- What became of a column. -/
inductive Status where
  | ok
  | unavailable
  | errored
  | notRun
  | other (word : Text)
deriving DecidableEq, Repr

/-- `in STATUSES`. -/
def Status.known : Status → Bool
  | .other _ => false
  | _ => true

structure Result where
  name : Text
  /-- Results of before there were keys have none. -/
  key : Option Text := none
  outcome : Outcome
  /-- The clause the check rests on, empty if it has none. -/
  rule : Text := []
  /-- Where the check is written, as `checks/03_srq.py:57`. -/
  source : Text := []
deriving DecidableEq, Repr

/-- `r.get("key", r["name"])`. -/
def Result.keyOf (r : Result) : Text := r.key.getD r.name

/-- What one run of a script wrote. -/
structure Report where
  script : Option Text := none
  elapsed : Option ℚ := none
  context : Dict Text Text := ∅
  results : List Result := []
  notes : List Text := []
deriving DecidableEq

structure Column where
  label : Option Text := none
  /-- The status that stands in the column, if one does. -/
  declared : Option Status := none
  results : List Result := []
  notes : List Text := []
  context : Dict Text Text := ∅
  /-- Seconds, by script. -/
  elapsed : Dict Text ℚ := ∅
  reason : Text := []
  /-- The scripts that are said to be missing from the column. -/
  errors : List Text := []
  backend : Text := []
  osLabel : Text := []
  id : Text := []
  vendorVersion : Text := []
deriving DecidableEq

/-- A result as it stands in a merged column: under its script. -/
def Result.underScript (script : Text) (r : Result) : Result :=
  { r with
    name := script ++ ": ".toList ++ r.name
    key := some (script ++ ": ".toList ++ r.keyOf) }

/-- One turn of the loop of `merge`. -/
def Column.add (merged : Column) (rep : Report) : Column :=
  let script := rep.script.getD "?".toList
  { merged with
    elapsed := rep.elapsed.elim merged.elapsed (merged.elapsed.set script)
    context := if merged.context.items.isEmpty then rep.context else merged.context
    results := merged.results ++ rep.results.map (Result.underScript script)
    notes := merged.notes ++ rep.notes }

/-- Fold several script reports into one column. -/
def merge (reports : List Report) (label : Text) : Column :=
  reports.foldl Column.add { label := some label }

namespace Column

/-- A column's status, `ok` by default for one that carries results. -/
def status (c : Column) : Status :=
  match c.declared with
  | some s => if s.known then s else if c.results.isEmpty then .notRun else .ok
  | none => if c.results.isEmpty then .notRun else .ok

/-- The results by key; of several with one key the last is kept. -/
def lookup (c : Column) : Dict Text Result := .ofList (c.results.map fun r => (r.keyOf, r))

/-- What a table shows for a key. -/
def outcomeAt (c : Column) (key : Text) : Outcome :=
  ((c.lookup.get? key).map Result.outcome).getD .missing

end Column

/-- A field of a merged column, report by report. -/
theorem field_merge {β : Type} (f : Column → β) (g : β → Report → β)
    (h : ∀ c rep, f (c.add rep) = g (f c) rep) (reports : List Report) (label : Text) :
    f (merge reports label) = reports.foldl g (f { label := some label }) :=
  (List.foldl_hom f fun c rep => (h c rep).symm).symm

theorem results_merge (reports : List Report) (label : Text) :
    (merge reports label).results =
      reports.flatMap fun rep => rep.results.map (Result.underScript (rep.script.getD "?".toList)) := by
  rw [field_merge Column.results (fun rs rep =>
      rs ++ rep.results.map (Result.underScript (rep.script.getD "?".toList))) fun _ _ => rfl,
    List.foldl_append_eq_append, List.nil_append, List.flatMap_def]

/-! ## The matrix -/

/-- `partition`: what stands before and behind the first `sep`. -/
def partition (sep : Text) : Text → Text × Text
  | [] => ([], [])
  | c :: cs =>
      if sep.isPrefixOf (c :: cs) then ([], (c :: cs).drop sep.length)
      else ((c :: (partition sep cs).1), (partition sep cs).2)

/-- One check, across every column. -/
structure Row where
  key : Text
  name : Text
  rule : Text
  script : Text
  /-- The result of each column, or none where it has no answer. -/
  cells : List (Option Result)
  /-- Which columns are compared. -/
  compared : List Nat
  source : Text := []
deriving DecidableEq

namespace Row

def outcomes (r : Row) : List Outcome :=
  r.cells.map fun c => (c.map Result.outcome).getD .missing

/-- `self.outcomes[i]`; the indices asked for are those of columns. -/
def outcomeAt (r : Row) (i : Nat) : Outcome := r.outcomes.getD i .missing

def comparedOutcomes (r : Row) : List Outcome := r.compared.map r.outcomeAt

/-- Whether the implementations disagree about this check. -/
def differs (r : Row) : Bool := 1 < r.comparedOutcomes.toFinset.card

def allSkipped (r : Row) : Bool := !r.compared.isEmpty && r.comparedOutcomes.toFinset = {.skip}

end Row

/-- The columns whose outcomes are compared. -/
def compared (columns : List Column) : List Nat :=
  (columns.zipIdx.filter (·.1.status = .ok)).map Prod.snd

structure Matrix where
  columns : List Column
  rows : List Row
deriving DecidableEq

namespace Matrix

def compared (m : Matrix) : List Nat := Aggregate.compared m.columns

def disagreements (m : Matrix) : List Row := m.rows.filter Row.differs

def allSkipped (m : Matrix) : List Row := m.rows.filter Row.allSkipped

/-- Per column, the rows only that column fails. -/
def uniqueFailuresByColumn (m : Matrix) : List (Nat × List Row) :=
  m.compared.filterMap fun i =>
    let others := m.compared.filter (· ≠ i)
    let rows := m.rows.filter fun r =>
      r.outcomeAt i = .fail && others.all fun j => r.outcomeAt j = .pass
    if others.isEmpty || rows.isEmpty then none else some (i, rows)

/-- Rows every compared column fails. -/
def sharedFailures (m : Matrix) : List Row :=
  if m.compared.length < 2 then []
  else m.rows.filter fun r => m.compared.all fun i => r.outcomeAt i = .fail

/-- How often each outcome stands in a column's results. -/
def counts (m : Matrix) (index : Nat) (o : Outcome) : Nat :=
  (m.columns[index]?).elim 0 fun c => (c.results.map Result.outcome).count o

/-- The keys `render_markdown` has shown under some column. -/
def uniqueKeys (m : Matrix) : List Text :=
  m.uniqueFailuresByColumn.flatMap fun p => p.2.map Row.key

/-- What `render_markdown` lists under "Where the implementations disagree". -/
def remainingDisagreements (m : Matrix) : List Row :=
  m.disagreements.filter fun r => r.key ∉ m.uniqueKeys && r ∉ m.sharedFailures

end Matrix

/-- The row of a result that is the first with its key. -/
def row (columns : List Column) (result : Result) : Row :=
  let key := result.keyOf
  let cells := columns.map (·.lookup.get? key)
  let parts := partition ": ".toList result.name
  { key
    name := result.name
    rule := (cells.findSome? fun c => (c.map Result.rule).filter (· ≠ [])).getD []
    script := if parts.2.isEmpty then [] else parts.1
    source := (cells.findSome? fun c => (c.map Result.source).filter (· ≠ [])).getD []
    cells
    compared := compared columns }

/-- Line columns up into rows, in the order the checks were written. -/
def build (columns : List Column) : Matrix where
  columns
  rows := (firstsBy Result.keyOf [] (columns.flatMap Column.results)).map (row columns)

/-! ## What a row says -/

/-- The keys of the results, column by column. -/
def keys (columns : List Column) : List Text := (columns.flatMap Column.results).map Result.keyOf

/-- What column `i` says under a key. -/
def outcomeIn (columns : List Column) (key : Text) (i : Nat) : Outcome :=
  (columns[i]?).elim .missing (·.outcomeAt key)

section

variable {columns : List Column}

theorem mem_keys_iff {key : Text} :
    key ∈ keys columns ↔ ∃ c ∈ columns, ∃ r ∈ c.results, r.keyOf = key := by
  simp only [keys, List.mem_map, List.mem_flatMap]
  exact ⟨fun ⟨r, ⟨c, hc, hr⟩, hk⟩ => ⟨c, hc, r, hr, hk⟩, fun ⟨c, hc, r, hr, hk⟩ => ⟨r, ⟨c, hc, hr⟩, hk⟩⟩

theorem Column.mem_keys_lookup {c : Column} {key : Text} :
    key ∈ c.lookup.keys ↔ ∃ r ∈ c.results, r.keyOf = key := by
  rw [Column.lookup, Dict.mem_keys_ofList, List.map_map]
  exact List.mem_map

/-- A column that shows something has a result for it. -/
theorem Column.exists_of_outcomeAt_ne {c : Column} {key : Text} (h : c.outcomeAt key ≠ .missing) :
    ∃ r ∈ c.results, r.keyOf = key := by
  rw [← Column.mem_keys_lookup, ← not_not (a := key ∈ _), ← Dict.get?_eq_none_iff]
  intro hnone
  simp [Column.outcomeAt, hnone] at h

theorem mem_keys_of_outcomeIn_ne {key : Text} {i : Nat} (h : outcomeIn columns key i ≠ .missing) :
    key ∈ keys columns := by
  cases hc : columns[i]? with
  | none => simp [outcomeIn, hc] at h
  | some c =>
      rw [outcomeIn, hc] at h
      exact mem_keys_iff.mpr ⟨c, List.mem_of_getElem? hc, Column.exists_of_outcomeAt_ne h⟩

theorem mem_compared_iff {i : Nat} :
    i ∈ compared columns ↔ ∃ c, columns[i]? = some c ∧ c.status = .ok := by
  simp [compared, List.mem_zipIdx_iff_getElem?]

theorem nodup_compared (columns : List Column) : (compared columns).Nodup := by
  have hsub : (compared columns).Sublist (columns.zipIdx.map Prod.snd) :=
    List.filter_sublist.map Prod.snd
  rw [List.zipIdx_map_snd] at hsub
  exact hsub.nodup (List.nodup_range' ..)

/-- **The order of the rows** is that in which their keys first occur. -/
theorem map_key_build (columns : List Column) :
    (build columns).rows.map Row.key = (keys columns).eraseDups := by
  rw [build, List.map_map]
  exact (map_firstsBy Result.keyOf [] _).trans (by simp [keys])

theorem nodup_key_build (columns : List Column) : ((build columns).rows.map Row.key).Nodup := by
  rw [build, List.map_map]
  exact nodup_keys_firstsBy Result.keyOf [] _

theorem mem_keys_build {key : Text} :
    (∃ r ∈ (build columns).rows, r.key = key) ↔ key ∈ keys columns := by
  rw [← List.mem_map, map_key_build, List.mem_eraseDups]

/-- Rows with one key are one row. -/
theorem eq_of_key_eq {r s : Row} (hr : r ∈ (build columns).rows) (hs : s ∈ (build columns).rows)
    (h : r.key = s.key) : r = s := List.inj_on_of_nodup_map (nodup_key_build columns) hr hs h

theorem compared_of_mem_rows {r : Row} (h : r ∈ (build columns).rows) :
    r.compared = compared columns := by
  obtain ⟨result, -, rfl⟩ := List.mem_map.mp h
  rfl

theorem cells_of_mem_rows {r : Row} (h : r ∈ (build columns).rows) :
    r.cells = columns.map (·.lookup.get? r.key) := by
  obtain ⟨result, -, rfl⟩ := List.mem_map.mp h
  rfl

/-- **What a row says** of a column is what the column's dictionary says. -/
theorem outcomeAt_of_mem_rows {r : Row} (h : r ∈ (build columns).rows) (i : Nat) :
    r.outcomeAt i = outcomeIn columns r.key i := by
  rw [Row.outcomeAt, Row.outcomes, cells_of_mem_rows h, outcomeIn, List.map_map,
    List.getD_eq_getElem?_getD, List.getElem?_map]
  cases columns[i]? <;> rfl

/-! ## What a matrix lists -/

/-- Two compared columns say different things of the check with this key. -/
def Differs (columns : List Column) (key : Text) : Prop :=
  ∃ i ∈ compared columns, ∃ j ∈ compared columns,
    outcomeIn columns key i ≠ outcomeIn columns key j

/-- Every compared column skipped it, and there is one. -/
def SkippedByAll (columns : List Column) (key : Text) : Prop :=
  (∃ i, i ∈ compared columns) ∧ ∀ i ∈ compared columns, outcomeIn columns key i = .skip

/-- Every compared column fails it, and there are two. -/
def FailedByAll (columns : List Column) (key : Text) : Prop :=
  2 ≤ (compared columns).length ∧ ∀ i ∈ compared columns, outcomeIn columns key i = .fail

/-- `i` is alone in failing it. -/
def FailsAlone (columns : List Column) (key : Text) (i : Nat) : Prop :=
  i ∈ compared columns ∧ (∃ j ∈ compared columns, j ≠ i) ∧ outcomeIn columns key i = .fail ∧
    ∀ j ∈ compared columns, j ≠ i → outcomeIn columns key j = .pass

theorem differs_iff {r : Row} (h : r ∈ (build columns).rows) :
    r.differs = true ↔ Differs columns r.key := by
  simp [Differs, Row.differs, Row.comparedOutcomes, compared_of_mem_rows h, outcomeAt_of_mem_rows h,
    Finset.one_lt_card]

theorem allSkipped_iff {r : Row} (h : r ∈ (build columns).rows) :
    r.allSkipped = true ↔ SkippedByAll columns r.key := by
  simp only [Row.allSkipped, Row.comparedOutcomes, compared_of_mem_rows h, Bool.and_eq_true,
    decide_eq_true_iff, Bool.not_eq_true', List.isEmpty_eq_false_iff_exists_mem]
  refine and_congr_right fun ⟨i, hi⟩ => ?_
  have hsome : ((compared columns).map r.outcomeAt).toFinset.Nonempty :=
    ⟨r.outcomeAt i, List.mem_toFinset.mpr (List.mem_map_of_mem hi)⟩
  rw [Finset.eq_singleton_iff_nonempty_unique_mem]
  simp [hsome, outcomeAt_of_mem_rows h]

theorem mem_uniqueFailures_iff {r : Row} {i : Nat} :
    (∃ rows, (i, rows) ∈ (build columns).uniqueFailuresByColumn ∧ r ∈ rows) ↔
      r ∈ (build columns).rows ∧ FailsAlone columns r.key i := by
  have hothers : ((compared columns).filter (· ≠ i)).isEmpty = false ↔
      ∃ j ∈ compared columns, j ≠ i := by
    simp
  constructor
  · rintro ⟨rows, hmem, hr⟩
    obtain ⟨j, hj, hsome⟩ := List.mem_filterMap.mp hmem
    change j ∈ compared columns at hj
    simp only [Matrix.compared, Option.ite_none_left_eq_some, Bool.or_eq_true, not_or,
      Bool.not_eq_true, Option.some.injEq, Prod.mk.injEq] at hsome
    obtain ⟨⟨hne, -⟩, rfl, rfl⟩ := hsome
    rw [List.mem_filter, Bool.and_eq_true, decide_eq_true_iff, List.all_eq_true] at hr
    obtain ⟨hmem, hfail, hpass⟩ := hr
    refine ⟨hmem, hj, hothers.mp hne, outcomeAt_of_mem_rows hmem j ▸ hfail, fun k hk hkj => ?_⟩
    have hp := hpass k (List.mem_filter.mpr ⟨hk, decide_eq_true hkj⟩)
    exact outcomeAt_of_mem_rows hmem k ▸ of_decide_eq_true hp
  · rintro ⟨hmem, hi, hne, hfail, hpass⟩
    have hr : r ∈ (build columns).rows.filter fun r => decide (r.outcomeAt i = .fail) &&
        ((compared columns).filter (· ≠ i)).all fun j => decide (r.outcomeAt j = .pass) := by
      simp only [List.mem_filter, outcomeAt_of_mem_rows hmem, hfail, hmem, List.all_eq_true,
        decide_true, Bool.true_and, true_and, decide_eq_true_iff]
      exact fun j hj => hpass j hj.1 hj.2
    refine ⟨_, List.mem_filterMap.mpr ⟨i, hi, ?_⟩, hr⟩
    have hrows := List.isEmpty_eq_false_iff_exists_mem.mpr ⟨r, hr⟩
    refine if_neg ?_
    show ¬ (((compared columns).filter (· ≠ i)).isEmpty || _) = true
    rw [hothers.mpr hne, Bool.false_or, Bool.not_eq_true]
    exact hrows

theorem mem_sharedFailures_iff {r : Row} :
    r ∈ (build columns).sharedFailures ↔
      r ∈ (build columns).rows ∧ FailedByAll columns r.key := by
  rw [Matrix.sharedFailures]
  show r ∈ (if (compared columns).length < 2 then [] else _) ↔ _
  split
  · next h => simp [FailedByAll, Nat.not_le.mpr h]
  · next h =>
      rw [List.mem_filter]
      refine and_congr_right fun hr => ?_
      simp [FailedByAll, Matrix.compared, build, outcomeAt_of_mem_rows hr, Nat.le_of_not_lt h]

end

end TestGear.Aggregate
