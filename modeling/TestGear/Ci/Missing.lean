import TestGear.Ci.Index
import TestGear.Ci.Verdict

/-!
# TestGear.Ci.Missing

A script that leaves no report is missing from its column.  The column says so
only for the scripts that `classify` calls crashed, those whose last exit code
is 2 or 5; a script that timed out, was killed or left with another code and
no report goes missing without a word (`namesMissing_iff`).
-/

namespace TestGear.Ci

open Aggregate

/-- None of the runs of this script left a report. -/
def Silent (runs : List ScriptRun) (script : Text) : Prop :=
  ∀ s ∈ runs, s.script = script → s.report = none

/-- The column is published as `ok`, and its errors name every script that
contributed no report to it. -/
def NamesMissing (plan : List Leg) (src : Downloads) (t : Transport) (leg : Leg)
    (runs : List ScriptRun) : Prop :=
  (∃ e ∈ indexOf plan src t, e.id = leg.id ∧ e.status = some .ok) ∧
    ∃ column, (leg.entry.file, column) ∈ written plan src t ∧ column.status = .ok ∧
      ∀ s ∈ runs, Silent runs s.script → whereOf s.script t.name ∈ column.errors

/-! ## The name of a crash -/

theorem transportOf_exitFile (t : Transport) : transportOf t.exitFile = t.name := by
  cases t <;> decide

/-- The end of a name is the transport's. -/
theorem take_reverse_whereOf (s : Text) (t : Transport) :
    (whereOf s t.name).reverse.take 2 = (t.name ++ "]".toList).reverse.take 2 := by
  rw [whereOf, List.append_assoc, List.reverse_append]
  cases t <;> rfl

/-- A name tells its script and its transport. -/
theorem whereOf_inj {s s' : Text} {t t' : Transport} (h : whereOf s t.name = whereOf s' t'.name) :
    s = s' ∧ t = t' := by
  have hlast : (whereOf s t.name).reverse.take 2 = (whereOf s' t'.name).reverse.take 2 := by rw [h]
  rw [take_reverse_whereOf, take_reverse_whereOf] at hlast
  cases t <;> cases t'
  · exact ⟨List.append_cancel_right (List.append_cancel_right (List.append_cancel_right h)), rfl⟩
  · exact absurd hlast (by decide)
  · exact absurd hlast (by decide)
  · exact ⟨List.append_cancel_right (List.append_cancel_right (List.append_cancel_right h)), rfl⟩

theorem infix_whereOf (script : Text) (t : Transport) : t.name <:+: whereOf script t.name :=
  ⟨script ++ " [".toList, "]".toList, rfl⟩

section

variable {r : LegRun} {t : Transport} {label : Text} {runs : List ScriptRun}

theorem label_of_lastExit {l script : Text} {rc : Option Int}
    (h : lastExit [⟨label, runs⟩] l script = some rc) : l = label := by
  rw [lastExit, List.lookup_eq_some_iff] at h
  obtain ⟨pre, post, hsplit, -⟩ := h
  have hmem : ((l, script), rc) ∈ exits [⟨label, runs⟩] := by
    rw [← List.mem_reverse, hsplit]
    simp
  simp only [exits, List.flatMap_singleton, List.mem_map, Prod.mk.injEq] at hmem
  obtain ⟨s, -, ⟨rfl, -⟩, -⟩ := hmem
  rfl

theorem compare_of_report (hsome : ∃ s ∈ runs, s.report ≠ none) :
    compare [⟨label, runs⟩] = some ([merge (runs.filterMap ScriptRun.report) label],
      exitCodesOf [⟨label, runs⟩]) := by
  have hne : (BackendRun.reports ⟨label, runs⟩).isEmpty = false := by
    obtain ⟨s, hs, hrep⟩ := hsome
    obtain ⟨rep, hrep⟩ := Option.ne_none_iff_exists'.mp hrep
    exact List.isEmpty_eq_false_iff_exists_mem.mpr ⟨rep, List.mem_filterMap.mpr ⟨s, hs, hrep⟩⟩
  have hcolumns : mergedColumns [⟨label, runs⟩] = [merge (runs.filterMap ScriptRun.report) label] := by
    rw [mergedColumns, List.filterMap_cons_some (by rw [hne]; rfl)]
    rfl
  rw [compare, hcolumns]
  rfl

/-- With one backend a crash is named just when the last run of the script left
with one of the codes for it. -/
theorem mem_crashed_iff (hone : r.runs t = [⟨label, runs⟩]) (hsome : ∃ s ∈ runs, s.report ≠ none)
    (script : Text) :
    whereOf script t.name ∈
        (crashed (r.output.exitCodes.sortBy (· ≤ ·))).map ScriptError.script ↔
      ∃ rc, lastExit (r.runs t) label script = some rc ∧ ourBug rc = true := by
  have hcmp := @compare_of_report label runs hsome
  have hnamed : ∀ rc, (whereOf script t.name, rc) ∈
      namedExits (r.output.exitCodes.sortBy (· ≤ ·)) ↔
        lastExit (r.runs t) label script = some rc := by
    intro rc
    simp only [mem_namedExits, Dict.get?_sortBy, get?_exitCodes_output]
    constructor
    · rintro ⟨-, codes, l, s, ⟨t', rfl, hcodes⟩, hcode, hwhere⟩
      rw [transportOf_exitFile] at hwhere
      obtain ⟨rfl, rfl⟩ := whereOf_inj hwhere
      rw [hone, hcmp, Option.map_some, Option.some.injEq] at hcodes
      rw [← hcodes, codeOf_exitCodesOf] at hcode
      obtain rfl := label_of_lastExit hcode
      rw [hone, hcode]
    · intro hlast
      refine ⟨t.exitFile, exitCodesOf (r.runs t), label, script, ⟨t, rfl, ?_⟩, ?_, ?_⟩
      · rw [hone, hcmp, Option.map_some]
      · rw [codeOf_exitCodesOf, hlast]
      · rw [transportOf_exitFile]
  rw [mem_crashed]
  constructor
  · rintro ⟨rc, hget, hbug⟩
    exact ⟨rc, (hnamed rc).mp (Dict.mem_of_get?_ofList hget), hbug⟩
  · rintro ⟨rc, hlast, hbug⟩
    have hkey := Dict.mem_keys_ofList.mpr (List.mem_map_of_mem (f := Prod.fst) ((hnamed rc).mpr hlast))
    obtain ⟨rc', hget⟩ := Dict.mem_keys_iff.mp hkey
    -- all the entries with this name have the code of the last run
    have heq := (hnamed rc').mp (Dict.mem_of_get?_ofList hget)
    rw [hlast, Option.some.injEq] at heq
    exact ⟨rc', hget, heq ▸ hbug⟩

theorem errors_merge (reports : List Report) (label : Text) : (merge reports label).errors = [] := by
  rw [field_merge Column.errors (fun es _ => es) fun _ _ => rfl, List.foldl_fixed]

/-- A leg with a report for this transport publishes the merged column, with
the crashes that bear the transport's name as its errors. -/
theorem publish_of_report {src : Downloads} (hroot : legRoot src r.leg.id = some r.artifact)
    (hone : r.runs t = [⟨label, runs⟩]) (hsome : ∃ s ∈ runs, s.report ≠ none) :
    ∃ column, (publish src t r.leg).2 = some column ∧ column.status = .ok ∧
      ∀ script, whereOf script t.name ∈ column.errors ↔ whereOf script t.name ∈
        (crashed (r.output.exitCodes.sortBy (· ≤ ·))).map ScriptError.script := by
  obtain ⟨m, hm, hcodes, herrors, hstatus⟩ := manifest_artifact r
  have hfile : r.output.reports.get? t.reportFile =
      some (.merged [merge (runs.filterMap ScriptRun.report) label]) := by
    rw [get?_reports_output, hone, compare_of_report hsome, Option.map_some]
  have hok : m.status = some .ok := by
    have hkey : t.reportFile ∈ r.output.columnFiles :=
      List.mem_mergeSort.mpr (Dict.mem_keys_iff.mpr ⟨_, hfile⟩)
    rw [hstatus, if_neg (by simpa using List.ne_nil_of_mem hkey)]
  have hreports : legReports r.artifact t =
      [.merged [merge (runs.filterMap ScriptRun.report) label]] := by
    have hfile' : r.artifact.reports.get? t.reportFile = _ := hfile
    rw [legReports, hfile']
  have hcolumn : columnFor r.artifact t r.leg.entry.label =
      loadColumn [.merged [merge (runs.filterMap ScriptRun.report) label]] r.leg.entry.label := by
    rw [columnFor, hm, Option.bind_some, hok, Option.getD_some, if_pos rfl, hreports]
  obtain ⟨hno, -⟩ | ⟨root, column, hroot', hcol, hpub⟩ := publish_cases src t r.leg
  · have hnone := hno _ hroot
    rw [hcolumn] at hnone
    cases hnone
  · rw [hroot, Option.some.injEq] at hroot'
    subst hroot'
    rw [hcolumn] at hcol
    have hempty : column.errors = [] := by
      rw [← Option.some.inj hcol]
      exact errors_merge _ label
    refine ⟨_, congrArg Prod.snd hpub, rfl, fun script => ?_⟩
    have hcrashed : ∀ named, t.name <:+: named →
        (named ∈ crashedOn t m ↔ named ∈ (crashed m.exitCodes).map ScriptError.script) := by
      intro named hinfix
      rw [crashedOn, List.mem_filter, herrors, decide_eq_true hinfix, and_iff_left rfl]
    rw [← hcodes, ← hcrashed _ (infix_whereOf script t)]
    show _ ∈ (if (r.artifact.manifest.elim [] (crashedOn t)).isEmpty then column.errors
      else r.artifact.manifest.elim [] (crashedOn t)) ↔ _
    rw [hm, Option.elim_some, hempty]
    split
    · next hnil => rw [List.isEmpty_iff.mp hnil]
    · exact Iff.rfl

/-- **Missing scripts**: for a leg with one backend and a report, the published
column names every script that contributed nothing exactly if the last run of
each of them exited with 2 or 5. -/
theorem namesMissing_iff {plan : List Leg} (hdistinct : (plan.map Leg.id).Nodup)
    (hleg : r.leg ∈ plan) {src : Downloads} (hroot : legRoot src r.leg.id = some r.artifact)
    (hone : r.runs t = [⟨label, runs⟩]) (hsome : ∃ s ∈ runs, s.report ≠ none) :
    NamesMissing plan src t r.leg runs ↔ ∀ s ∈ runs, Silent runs s.script →
      ∃ rc, lastExit (r.runs t) label s.script = some rc ∧ ourBug rc = true := by
  obtain ⟨column, hpub, hok, herrors⟩ := publish_of_report hroot hone hsome
  have hnames : ∀ script, whereOf script t.name ∈ column.errors ↔
      ∃ rc, lastExit (r.runs t) label script = some rc ∧ ourBug rc = true := fun script =>
    (herrors script).trans (mem_crashed_iff hone hsome script)
  constructor
  · rintro ⟨-, published, hwritten, -, hall⟩ s hs hsilent
    rw [mem_written_iff hdistinct hleg, hpub, Option.some.injEq] at hwritten
    exact (hnames s.script).mp (hwritten ▸ hall s hs hsilent)
  · intro hall
    refine ⟨⟨_, List.mem_map_of_mem hleg, (publish_id src t r.leg).1,
      (status_publish_iff src t r.leg).mpr ⟨column, hpub⟩⟩, column,
      (mem_written_iff hdistinct hleg).mpr hpub, hok, fun s hs hsilent => ?_⟩
    exact (hnames s.script).mpr (hall s hs hsilent)

end

/-- Two scripts of a leg: one that reports, and one that leaves no report. -/
def twoScripts (exit : Option Int) : List ScriptRun :=
  [⟨"01_smoke.py".toList, some { script := some "smoke (vxi11)".toList }, some 0⟩,
    ⟨"02_io.py".toList, none, exit⟩]

def twoScriptLeg (exit : Option Int) : LegRun where
  leg := { id := "linux-py".toList, backend := "py".toList }
  runs := fun _ => [⟨"PyVISA-py".toList, twoScripts exit⟩]

theorem exists_report_twoScripts (exit : Option Int) : ∃ s ∈ twoScripts exit, s.report ≠ none :=
  ⟨_, List.mem_cons_self, Option.some_ne_none _⟩

theorem root_twoScriptLeg (exit : Option Int) :
    legRoot (nestedOne (twoScriptLeg exit)) (twoScriptLeg exit).leg.id =
      some (twoScriptLeg exit).artifact :=
  delivered_nestedOne (twoScriptLeg exit) _ List.mem_cons_self

theorem nodup_twoScriptLeg (exit : Option Int) : ([(twoScriptLeg exit).leg].map Leg.id).Nodup :=
  List.nodup_singleton _

theorem namesMissing_crashed : NamesMissing [(twoScriptLeg (some 2)).leg]
    (nestedOne (twoScriptLeg (some 2))) .vxi11 (twoScriptLeg (some 2)).leg (twoScripts (some 2)) := by
  refine (namesMissing_iff (nodup_twoScriptLeg _) List.mem_cons_self (root_twoScriptLeg _) rfl
    (exists_report_twoScripts _)).mpr fun s hs hsilent => ?_
  simp only [twoScripts, List.mem_cons, List.not_mem_nil, or_false] at hs
  obtain rfl | rfl := hs
  · exact absurd (hsilent _ List.mem_cons_self rfl) (Option.some_ne_none _)
  · exact ⟨some 2, rfl, rfl⟩

/-- A script that times out is missing from the column and not named in it. -/
theorem not_namesMissing_timedOut : ¬ NamesMissing [(twoScriptLeg none).leg]
    (nestedOne (twoScriptLeg none)) .vxi11 (twoScriptLeg none).leg (twoScripts none) := by
  rintro ⟨-, column, hwritten, -, hall⟩
  obtain ⟨published, hpub, -, herrors⟩ := publish_of_report (t := .vxi11) (root_twoScriptLeg none) rfl
    (exists_report_twoScripts none)
  rw [mem_written_iff (nodup_twoScriptLeg none) List.mem_cons_self, hpub, Option.some.injEq] at hwritten
  have hsilent : Silent (twoScripts none) "02_io.py".toList := by
    intro s hs hname
    simp only [twoScripts, List.mem_cons, List.not_mem_nil, or_false] at hs
    obtain rfl | rfl := hs
    · exact absurd hname (by decide)
    · rfl
  have hnamed := hall _ (List.mem_cons_of_mem _ List.mem_cons_self) hsilent
  rw [← hwritten, herrors, mem_crashed_iff rfl (exists_report_twoScripts none)] at hnamed
  obtain ⟨rc, hlast, hbug⟩ := hnamed
  have hrc : lastExit ((twoScriptLeg none).runs .vxi11) "PyVISA-py".toList "02_io.py".toList =
      some none := rfl
  rw [hrc, Option.some.injEq] at hlast
  rw [← hlast] at hbug
  cases hbug

end TestGear.Ci
