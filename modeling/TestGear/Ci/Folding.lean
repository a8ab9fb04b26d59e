import TestGear.Ci.Columns

/-!
# TestGear.Ci.Folding

The two routes from script reports to a column: `aggregate.merge` folds them
in one pass, and `normalise_reports.load_column` merges each alone and puts
the columns together.  The second keeps the results and notes of all, but the
context and the times of the first report only.

* `foldsAlike_iff` — the routes agree exactly if the later reports have no
  context and no time to add;
* `not_foldsAlike_timedScripts` — two scripts that were timed.
-/

namespace TestGear.Ci

open Aggregate

/-! ## What is folded -/

/-- The script a report is filed under. -/
def scriptOf (rep : Report) : Text := rep.script.getD "?".toList

/-- The times of the reports that have one, by script. -/
def times (reports : List Report) : List (Text × ℚ) :=
  reports.filterMap fun rep => rep.elapsed.map (scriptOf rep, ·)

theorem times_cons (rep : Report) (reps : List Report) :
    times (rep :: reps) = times [rep] ++ times reps := by
  rw [times, times, times, ← List.filterMap_append]
  rfl

/-- **Times**: of several reports of one script the last counts. -/
theorem elapsed_merge (reports : List Report) (label : Text) :
    (merge reports label).elapsed = .ofList (times reports) := by
  rw [Dict.ofList, Dict.update, times, List.foldl_filterMap]
  refine field_merge Column.elapsed _ (fun c rep => ?_) reports label
  cases h : rep.elapsed <;> simp [Column.add, h, scriptOf]

/-- **The context** is the first that is not empty. -/
theorem context_merge (reports : List Report) (label : Text) :
    (merge reports label).context.items =
      ((reports.find? fun rep => !rep.context.items.isEmpty).map (·.context.items)).getD [] := by
  have hfold (c : Column) : (reports.foldl Column.add c).context.items =
      if c.context.items.isEmpty then
        ((reports.find? fun rep => !rep.context.items.isEmpty).map (·.context.items)).getD []
      else c.context.items := by
    induction reports generalizing c with
    | nil => simp
    | cons rep reps ih =>
        rw [List.foldl_cons, ih, List.find?_cons]
        by_cases hc : c.context.items = []
        · cases hr : rep.context.items <;> simp [Column.add, hc, hr]
        · simp [Column.add, hc]
  exact hfold { label := some label }

theorem notes_merge (reports : List Report) (label : Text) :
    (merge reports label).notes = reports.flatMap Report.notes := by
  rw [field_merge Column.notes (fun ns rep => ns ++ rep.notes) fun _ _ => rfl,
    List.foldl_append_eq_append, List.nil_append, List.flatMap_def]

theorem label_merge (reports : List Report) (label : Text) :
    (merge reports label).label = some label := by
  rw [field_merge Column.label (fun l _ => l) fun _ _ => rfl, List.foldl_fixed]

/-- A column put together from reports that were merged one by one. -/
theorem loadColumn_scripts (rep : Report) (reps : List Report) (label : Text) :
    loadColumn ((rep :: reps).map .script) label =
      some { merge [rep] label with
        results := (merge (rep :: reps) label).results
        notes := (merge (rep :: reps) label).notes } := by
  have hcolumns : ((rep :: reps).map ReportFile.script).flatMap (·.columns label) =
      (rep :: reps).map fun r => merge [r] label := by
    rw [List.flatMap_map, List.map_eq_flatMap]
    rfl
  have hresults : ((rep :: reps).map fun r => merge [r] label).flatMap Column.results =
      (merge (rep :: reps) label).results := by
    simp only [List.flatMap_map, results_merge, List.flatMap_singleton]
  have hnotes : ((rep :: reps).map fun r => merge [r] label).flatMap Column.notes =
      (merge (rep :: reps) label).notes := by
    simp only [List.flatMap_map, notes_merge, List.flatMap_singleton]
  rw [loadColumn, hcolumns, ← hresults, ← hnotes]
  cases reps with
  | nil => simp
  | cons rep' reps => rfl

/-! ## The two routes -/

/-- Two columns with the same results, notes, context and times; a dictionary
is what is found in it. -/
structure Alike (c d : Column) : Prop where
  label : c.label = d.label
  results : c.results = d.results
  notes : c.notes = d.notes
  context : ∀ key, c.context.get? key = d.context.get? key
  elapsed : ∀ script, c.elapsed.get? script = d.elapsed.get? script

/-- The file by file route gives the column the one pass does. -/
def FoldsAlike (reports : List Report) (label : Text) : Prop :=
  ∃ column, loadColumn (reports.map .script) label = some column ∧
    Alike column (merge reports label)

/-- A dictionary is empty if nothing is found in it. -/
theorem items_eq_nil_iff {κ ν : Type*} [DecidableEq κ] {d : Dict κ ν} :
    d.items = [] ↔ ∀ k, d.get? k = none := by
  simp only [Dict.get?_eq_none_iff, Dict.keys]
  constructor
  · intro h k
    simp [h]
  · intro h
    exact List.map_eq_nil_iff.mp (List.eq_nil_iff_forall_not_mem.mpr h)

/-- The first report's context is the column's, unless it is empty and a later
one is not. -/
theorem context_alike_iff (rep : Report) (reps : List Report) (label : Text) :
    (∀ key, (merge [rep] label).context.get? key =
        (merge (rep :: reps) label).context.get? key) ↔
      rep.context.items ≠ [] ∨ ∀ r ∈ reps, r.context.items = [] := by
  have halone : (merge [rep] label).context.items = rep.context.items := by
    rw [context_merge]
    cases h : rep.context.items <;> simp [h]
  by_cases h : rep.context.items = []
  · have hnone : ∀ key, (merge [rep] label).context.get? key = none :=
      items_eq_nil_iff.mp (halone.trans h)
    have hitems : (merge (rep :: reps) label).context.items = [] ↔
        ∀ r ∈ reps, r.context.items = [] := by
      rw [context_merge, List.find?_cons_of_neg (by simp [h])]
      cases hfind : reps.find? fun r => !r.context.items.isEmpty with
      | none => simpa using hfind
      | some r =>
          have hr : r.context.items ≠ [] := by simpa using List.find?_some hfind
          exact iff_of_false hr fun hempty => hr (hempty r (List.mem_of_find?_eq_some hfind))
    simp only [hnone, eq_comm (a := none), ← items_eq_nil_iff, hitems, h, ne_eq,
      not_true_eq_false, false_or]
  · have hsame : (merge (rep :: reps) label).context.items = (merge [rep] label).context.items := by
      rw [context_merge, halone, List.find?_cons_of_pos (by simpa using h)]
      rfl
    refine iff_of_true (fun key => ?_) (Or.inl h)
    rw [Dict.get?, Dict.get?, hsame]

/-- What a comprehension says is one pair at most, which the last of the list
is then. -/
theorem get?_ofList_forall_iff {κ ν : Type*} [DecidableEq κ] {ts : List (κ × ν)} {k : κ} {e : Option ν} :
    (∀ j v, (Dict.ofList ts).get? j = some v → j = k ∧ e = some v) ↔
      (∀ t ∈ ts, t.1 = k) ∧ ∀ t ∈ ts.getLast?, e = some t.2 := by
  have hlast (pre : List (κ × ν)) (t : κ × ν) :
      (Dict.ofList (pre ++ [t])).get? t.1 = some t.2 := by
    rw [Dict.get?_ofList, List.reverse_append, List.reverse_singleton, List.singleton_append,
      Dict.lookup_cons_eq_if, if_pos rfl]
  constructor
  · intro h
    refine ⟨fun t ht => ?_, fun t ht => ?_⟩
    · obtain ⟨v, hv⟩ := Dict.mem_keys_iff.mp (Dict.mem_keys_ofList.mpr (List.mem_map_of_mem ht))
      exact (h t.1 v hv).1
    · obtain ⟨pre, rfl⟩ := List.getLast?_eq_some_iff.mp ht
      exact (h t.1 t.2 (hlast pre t)).2
  · intro ⟨hkeys, htime⟩ j v hget
    have hj : j = k := hkeys _ (Dict.mem_of_get?_ofList hget)
    cases ts using List.reverseRecOn with
    | nil => simp [Dict.ofList, Dict.update] at hget
    | append_singleton pre t =>
        have hk : j = t.1 := hj.trans (hkeys t (by simp)).symm
        have ht : e = some t.2 := htime t (by simp)
        rw [hk, hlast] at hget
        exact ⟨hj, ht.trans hget⟩

/-- The later times are all of the first report's script, and the last of them
is the time it has itself. -/
theorem elapsed_alike_iff (rep : Report) (reps : List Report) (label : Text) :
    (∀ script, (merge [rep] label).elapsed.get? script =
        (merge (rep :: reps) label).elapsed.get? script) ↔
      (∀ t ∈ times reps, t.1 = scriptOf rep) ∧
        ∀ t ∈ (times reps).getLast?, rep.elapsed = some t.2 := by
  have halone (script : Text) (seconds : ℚ) :
      (merge [rep] label).elapsed.get? script = some seconds ↔
        script = scriptOf rep ∧ rep.elapsed = some seconds := by
    rw [elapsed_merge, Dict.get?_ofList, times]
    cases h : rep.elapsed <;> simp [h, Dict.lookup_cons_eq_if]
  have hall (script : Text) : (merge (rep :: reps) label).elapsed.get? script =
      ((Dict.ofList (times reps)).get? script).or ((merge [rep] label).elapsed.get? script) := by
    rw [elapsed_merge, elapsed_merge, times_cons rep reps, Dict.get?_ofList, Dict.get?_ofList,
      Dict.get?_ofList, List.reverse_append, List.lookup_append]
  rw [← get?_ofList_forall_iff]
  simp only [hall, ← halone]
  constructor
  · intro h script seconds hget
    rw [h script, hget, Option.some_or]
  · intro h script
    cases hget : (Dict.ofList (times reps)).get? script with
    | none => rfl
    | some seconds => rw [h script seconds hget, Option.some_or]

/-- **The routes agree** exactly if the later reports add nothing the first
report's column lacks: no context where it has none, and no time but its own. -/
theorem foldsAlike_iff (rep : Report) (reps : List Report) (label : Text) :
    FoldsAlike (rep :: reps) label ↔
      (rep.context.items ≠ [] ∨ ∀ r ∈ reps, r.context.items = []) ∧
        (∀ t ∈ times reps, t.1 = scriptOf rep) ∧
        ∀ t ∈ (times reps).getLast?, rep.elapsed = some t.2 := by
  rw [← context_alike_iff rep reps label, ← elapsed_alike_iff rep reps label]
  simp only [FoldsAlike, loadColumn_scripts, Option.some.injEq, exists_eq_left']
  constructor
  · intro h
    exact ⟨h.context, h.elapsed⟩
  · rintro ⟨hcontext, helapsed⟩
    exact ⟨by rw [label_merge, label_merge], rfl, rfl, hcontext, helapsed⟩

/-- Two scripts of a leg, each with its wall clock. -/
def timedScripts : List Report :=
  [{ script := some "01_smoke.py".toList, elapsed := some 2 },
    { script := some "02_io.py".toList, elapsed := some 3 }]

/-- Of two scripts that were timed the second one's time is dropped. -/
theorem not_foldsAlike_timedScripts : ¬ FoldsAlike timedScripts "pyvisa".toList := by
  rintro ⟨column, hload, halike⟩
  have htime := halike.elapsed "02_io.py".toList
  have hcolumn := (loadColumn_scripts _ _ _).symm.trans hload
  rw [← Option.some.inj hcolumn, elapsed_merge, elapsed_merge] at htime
  exact absurd htime (by decide +kernel)

end TestGear.Ci
