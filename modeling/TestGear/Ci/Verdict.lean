import TestGear.Ci.Columns

/-!
# TestGear.Ci.Verdict

`ci_status.py`: whether the suite itself is broken, from the exit codes that
came through the legs, the artifacts and the index.

A crash is a script that exits with 2 or 5.  What turns the run red is a crash
that is still in some leg's exit codes (`code_eq_one_iff`): codes are written
only for a transport on which some script left a report, and a later run of
the same script under the same label overwrites an earlier one.  So a run is
judged right just when it has no crash or one that can be seen (`judged_iff`).
-/

namespace TestGear.Ci

open Aggregate

/-! ## `ci_status.py` -/

/-- The exit codes of an entry under its leg, script and transport. -/
def Entry.exits (e : Entry) : List ((Text × Text) × Option Int) :=
  (namedExits e.exitCodes).map fun p => ((e.id, p.1), p.2)

structure Verdict where
  /-- By leg and script. -/
  crashes : Dict (Text × Text) (Option Int)
  lost : Dict (Text × Text) (Option Int)
  /-- The legs whose own setup failed. -/
  errored : List Text
  flakyLegs : List Text
  code : Nat
deriving DecidableEq

/-- The entries of the indexes that are there. -/
def indexEntries (dirs : List (Dict Text OutFile)) : List Entry :=
  dirs.flatMap fun dir => match dir.get? indexFile with
    | some (.index entries) => entries
    | _ => []

/-- `ci_status.main` over the directories of the transports. -/
def ciStatus (dirs : List (Dict Text OutFile)) : Verdict :=
  let entries := indexEntries dirs
  let exits := entries.flatMap Entry.exits
  let crashes := Dict.ofList (exits.filter (ourBug ·.2))
  let errored := (entries.filter (·.status = some .errored)).map Entry.id
  { crashes
    lost := .ofList (exits.filter (lostTarget ·.2))
    errored
    flakyLegs := ((entries.filter Entry.flaky).map Entry.id).eraseDups
    code := if crashes.items.isEmpty && errored.isEmpty then 0 else 1 }

/-- The aggregation: both transports are normalised, then judged. -/
def aggregation (plan : List Leg) (src : Downloads) (dst : Transport → Dict Text OutFile) :
    Option Verdict := do
  let hislip ← normalise plan src .hislip (dst .hislip)
  let vxi11 ← normalise plan src .vxi11 (dst .vxi11)
  return ciStatus [hislip, vxi11]

/-! ## What can be seen of a crash -/

/-- Some script exited with 2 or 5. -/
def Crashed (legs : List LegRun) : Prop :=
  ∃ r ∈ legs, ∃ t, ∃ b ∈ r.runs t, ∃ s ∈ b.runs, ourBug s.exit = true

/-- Over some transport a script left a report, and there the last run of some
script under some label exited with 2 or 5. -/
def CrashSeen (legs : List LegRun) : Prop :=
  ∃ r ∈ legs, ∃ t, (∃ b ∈ r.runs t, ∃ s ∈ b.runs, s.report ≠ none) ∧
    ∃ label script rc, lastExit (r.runs t) label script = some rc ∧ ourBug rc = true

/-- A crash turns the run red, and nothing else does unless a leg says that its
setup failed. -/
def Judged (legs : List LegRun) (code : Nat) : Prop :=
  (Crashed legs → code = 1) ∧
    (¬ Crashed legs → (∀ r ∈ legs, ∀ m, r.artifact.manifest = some m → m.status ≠ some .errored) →
      code = 0)

/-- Every leg's directory arrived as it was uploaded. -/
def Delivered (src : Downloads) (legs : List LegRun) : Prop :=
  ∀ r ∈ legs, legRoot src r.leg.id = some r.artifact

theorem crashed_of_crashSeen {legs : List LegRun} (h : CrashSeen legs) : Crashed legs := by
  obtain ⟨r, hr, t, -, label, script, rc, hlast, hbug⟩ := h
  have hmem : ((label, script), rc) ∈ exits (r.runs t) := by
    rw [lastExit, List.lookup_eq_some_iff] at hlast
    obtain ⟨pre, post, hsplit, -⟩ := hlast
    rw [← List.mem_reverse, hsplit]
    simp
  simp only [exits, List.mem_flatMap, List.mem_map, Prod.mk.injEq] at hmem
  obtain ⟨b, hb, s, hs, -, rfl⟩ := hmem
  exact ⟨r, hr, t, b, hb, s, hs, hbug⟩

/-- What the manifest of a leg says. -/
theorem manifest_artifact (r : LegRun) : ∃ m, r.artifact.manifest = some m ∧
    m.exitCodes = r.output.exitCodes.sortBy (· ≤ ·) ∧
    m.errors = crashed m.exitCodes ∧
    m.status = some (if r.output.columnFiles.isEmpty then .notRun else .ok) := by
  refine ⟨_, rfl, rfl, ?_, ?_⟩
  · simp only [classify]
    split <;> rfl
  · simp only [classify, LegArgs.inferred, Option.getD_none]
    split <;> rfl

/-- A crash among the exit codes of a leg's entry is one that its transport
wrote down. -/
theorem exists_crash_iff (r : LegRun) {e : Entry}
    (he : ∀ file, e.exitCodes.get? file = r.output.exitCodes.get? file) :
    (∃ p ∈ e.exits, ourBug p.2 = true) ↔
      ∃ t, (∃ b ∈ r.runs t, ∃ s ∈ b.runs, s.report ≠ none) ∧
        ∃ label script rc, lastExit (r.runs t) label script = some rc ∧ ourBug rc = true := by
  have hexits : (∃ p ∈ e.exits, ourBug p.2 = true) ↔
      ∃ named rc, (named, rc) ∈ namedExits e.exitCodes ∧ ourBug rc = true := by
    simp [Entry.exits]
  have hwritten : ∀ t, (∃ codes, (compare (r.runs t)).map Prod.snd = some codes) ↔
      ∃ b ∈ r.runs t, ∃ s ∈ b.runs, s.report ≠ none := by
    intro t
    have hnone := not_congr (@compare_eq_none_iff (r.runs t))
    push Not at hnone
    rw [← hnone]
    cases compare (r.runs t) <;> simp
  have hcodes : ∀ t codes, (compare (r.runs t)).map Prod.snd = some codes →
      codes = exitCodesOf (r.runs t) := by
    intro t codes h
    unfold compare at h
    split at h
    · cases h
    · exact (Option.some.inj h).symm
  rw [hexits]
  simp only [mem_namedExits, he, get?_exitCodes_output]
  constructor
  · rintro ⟨-, rc, ⟨-, codes, label, script, ⟨t, -, hcmp⟩, hcode, -⟩, hbug⟩
    rw [hcodes t codes hcmp, codeOf_exitCodesOf] at hcode
    exact ⟨t, (hwritten t).mp ⟨codes, hcmp⟩, label, script, rc, hcode, hbug⟩
  · rintro ⟨t, hreport, label, script, rc, hlast, hbug⟩
    obtain ⟨codes, hcmp⟩ := (hwritten t).mpr hreport
    refine ⟨_, rc, ⟨t.exitFile, codes, label, script, ⟨t, rfl, hcmp⟩, ?_, rfl⟩, hbug⟩
    rw [hcodes t codes hcmp, codeOf_exitCodesOf, hlast]

/-! ## The verdict -/

theorem indexEntries_normalise {plan : List Leg} {src : Downloads} {t : Transport}
    {dir out : Dict Text OutFile} (h : normalise plan src t dir = some out)
    (dirs : List (Dict Text OutFile)) :
    indexEntries (out :: dirs) = indexOf plan src t ++ indexEntries dirs := by
  unfold normalise at h
  split at h
  · cases h
  · rw [← Option.some.inj h]
    simp [indexEntries, Dict.get?_set]

theorem code_ciStatus (dirs : List (Dict Text OutFile)) : (ciStatus dirs).code = 1 ↔
    (∃ e ∈ indexEntries dirs, ∃ p ∈ e.exits, ourBug p.2 = true) ∨
      ∃ e ∈ indexEntries dirs, e.status = some .errored := by
  have hcrashes : (ciStatus dirs).crashes.items.isEmpty = false ↔
      ∃ e ∈ indexEntries dirs, ∃ p ∈ e.exits, ourBug p.2 = true := by
    have hkeys : (ciStatus dirs).crashes.items.isEmpty = false ↔
        ∃ k, k ∈ (ciStatus dirs).crashes.keys := by
      simp only [List.isEmpty_eq_false_iff_exists_mem, Dict.keys, List.mem_map]
      constructor
      · rintro ⟨p, hp⟩
        exact ⟨p.1, p, hp, rfl⟩
      · rintro ⟨-, p, hp, -⟩
        exact ⟨p, hp⟩
    rw [hkeys]
    simp only [ciStatus, Dict.mem_keys_ofList, List.mem_map, List.mem_filter, List.mem_flatMap]
    constructor
    · rintro ⟨-, p, ⟨⟨e, he, hp⟩, hbug⟩, -⟩
      exact ⟨e, he, p, hp, hbug⟩
    · rintro ⟨e, he, p, hp, hbug⟩
      exact ⟨p.1, p, ⟨⟨e, he, hp⟩, hbug⟩, rfl⟩
  have herrored : (ciStatus dirs).errored.isEmpty = false ↔
      ∃ e ∈ indexEntries dirs, e.status = some .errored := by
    simp [ciStatus]
  rw [← hcrashes, ← herrored]
  show (if (ciStatus dirs).crashes.items.isEmpty && (ciStatus dirs).errored.isEmpty then 0 else 1)
    = 1 ↔ _
  cases (ciStatus dirs).crashes.items.isEmpty <;> cases (ciStatus dirs).errored.isEmpty <;> simp

theorem code_ciStatus_eq_zero (dirs : List (Dict Text OutFile)) :
    (ciStatus dirs).code = 0 ↔ (ciStatus dirs).code ≠ 1 := by
  show (if _ then 0 else 1) = 0 ↔ (if _ then 0 else 1) ≠ 1
  split <;> simp

/-- The two indexes have an entry for every leg and transport. -/
theorem mem_indexEntries_iff {legs : List LegRun} {src : Downloads}
    {dir dir' hislip vxi11 : Dict Text OutFile}
    (hh : normalise (legs.map LegRun.leg) src .hislip dir = some hislip)
    (hv : normalise (legs.map LegRun.leg) src .vxi11 dir' = some vxi11) (e : Entry) :
    e ∈ indexEntries [hislip, vxi11] ↔ ∃ r ∈ legs, ∃ t, (publish src t r.leg).1 = e := by
  rw [indexEntries_normalise hh, indexEntries_normalise hv]
  simp only [indexOf, List.map_map, List.mem_append, List.mem_map, Function.comp, indexEntries,
    List.flatMap_nil, List.not_mem_nil, or_false]
  constructor
  · rintro (⟨r, hr, rfl⟩ | ⟨r, hr, rfl⟩)
    · exact ⟨r, hr, .hislip, rfl⟩
    · exact ⟨r, hr, .vxi11, rfl⟩
  · rintro ⟨r, hr, t, rfl⟩
    cases t
    · exact Or.inl ⟨r, hr, rfl⟩
    · exact Or.inr ⟨r, hr, rfl⟩

section

variable {legs : List LegRun} {src : Downloads} {r : LegRun}

/-- A leg says of itself that it is ok or was not run. -/
theorem publish_not_errored (hdel : Delivered src legs) (hr : r ∈ legs) (t : Transport) :
    (publish src t r.leg).1.status ≠ some .errored := by
  intro hstatus
  obtain ⟨m, hm, -, -, hs⟩ := manifest_artifact r
  have hsaid := publish_errored (hdel r hr) hm hstatus
  rw [hs] at hsaid
  split at hsaid <;> cases hsaid

/-- The exit codes of a leg reach both indexes. -/
theorem get?_exitCodes_publish (hdel : Delivered src legs) (hr : r ∈ legs) (t : Transport)
    (file : Text) :
    (publish src t r.leg).1.exitCodes.get? file = r.output.exitCodes.get? file := by
  obtain ⟨m, hm, hcodes, -⟩ := manifest_artifact r
  rw [publish_exitCodes (hdel r hr) hm, hcodes, Dict.get?_sortBy]

end

/-- **The verdict** is red exactly if a crash can be seen. -/
theorem code_eq_one_iff {legs : List LegRun} (hsome : legs ≠ []) {src : Downloads}
    (hdel : Delivered src legs) (dst : Transport → Dict Text OutFile) :
    ∃ v, aggregation (legs.map LegRun.leg) src dst = some v ∧ (v.code = 1 ↔ CrashSeen legs) ∧
      (v.code = 0 ↔ ¬ CrashSeen legs) := by
  have hout : ∀ t, ∃ out, normalise (legs.map LegRun.leg) src t (dst t) = some out := by
    intro t
    unfold normalise
    rw [if_neg (by simpa using hsome)]
    exact ⟨_, rfl⟩
  obtain ⟨hislip, hh⟩ := hout .hislip
  obtain ⟨vxi11, hv⟩ := hout .vxi11
  have hentries := mem_indexEntries_iff hh hv
  have herrored : ¬ ∃ e ∈ indexEntries [hislip, vxi11], e.status = some .errored := by
    rintro ⟨e, he, hstatus⟩
    obtain ⟨r, hr, t, rfl⟩ := (hentries e).mp he
    exact publish_not_errored hdel hr t hstatus
  have hone : (ciStatus [hislip, vxi11]).code = 1 ↔ CrashSeen legs := by
    rw [code_ciStatus, or_iff_left herrored]
    constructor
    · rintro ⟨e, he, hcrash⟩
      obtain ⟨r, hr, t, rfl⟩ := (hentries e).mp he
      exact ⟨r, hr, (exists_crash_iff r (get?_exitCodes_publish hdel hr t)).mp hcrash⟩
    · rintro ⟨r, hr, hseen⟩
      exact ⟨_, (hentries _).mpr ⟨r, hr, .hislip, rfl⟩,
        (exists_crash_iff r (get?_exitCodes_publish hdel hr .hislip)).mpr hseen⟩
  refine ⟨ciStatus [hislip, vxi11], ?_, hone, ?_⟩
  · simp [aggregation, hh, hv]
  · rw [code_ciStatus_eq_zero, ne_eq, hone]

/-- **Crashes and the verdict**: a run is judged right exactly if no script
crashed, or a crash can be seen. -/
theorem judged_iff {legs : List LegRun} (hsome : legs ≠ []) {src : Downloads}
    (hdel : Delivered src legs) (dst : Transport → Dict Text OutFile) :
    ∃ v, aggregation (legs.map LegRun.leg) src dst = some v ∧
      (Judged legs v.code ↔ ¬ Crashed legs ∨ CrashSeen legs) := by
  obtain ⟨v, hv, hone, hzero⟩ := code_eq_one_iff hsome hdel dst
  refine ⟨v, hv, ?_⟩
  constructor
  · intro hjudged
    by_cases hcrash : Crashed legs
    · exact Or.inr (hone.mp (hjudged.1 hcrash))
    · exact Or.inl hcrash
  · intro h
    refine ⟨fun hcrash => hone.mpr (h.resolve_left (not_not.mpr hcrash)), fun hnot _ => ?_⟩
    exact hzero.mpr fun hseen => hnot (crashed_of_crashSeen hseen)

/-- A leg on which one script ran over each transport and left with `exit`. -/
def oneScript (report : Option Report) (exit : Option Int) : LegRun where
  leg := { id := "linux-py".toList, backend := "py".toList }
  runs := fun _ => [⟨"PyVISA-py".toList, [⟨"01_smoke.py".toList, report, exit⟩]⟩]

/-- The artifact in the directory that is named for the leg. -/
def nestedOne (r : LegRun) : Downloads where
  nested := .ofList [(r.leg.id, r.artifact)]

theorem delivered_nestedOne (r : LegRun) : Delivered (nestedOne r) [r] := by
  intro s hs
  rw [List.mem_singleton.mp hs]
  simp [legRoot, nestedOne, Dict.get?_ofList]

/-- The only script crashes behind its report: the run turns red. -/
theorem judged_oneScript : Crashed [oneScript (some {}) (some 2)] ∧
    Delivered (nestedOne (oneScript (some {}) (some 2))) [oneScript (some {}) (some 2)] ∧
    ∃ v, aggregation [(oneScript (some {}) (some 2)).leg] (nestedOne (oneScript (some {}) (some 2)))
      (fun _ => ∅) = some v ∧ v.code = 1 := by
  have hseen : CrashSeen [oneScript (some {}) (some 2)] :=
    ⟨_, List.mem_cons_self, .vxi11, ⟨_, List.mem_cons_self, _, List.mem_cons_self, Option.some_ne_none _⟩,
      "PyVISA-py".toList, "01_smoke.py".toList, some 2, rfl, rfl⟩
  obtain ⟨v, hv, hjudged⟩ :=
    judged_iff (List.cons_ne_nil _ []) (delivered_nestedOne (oneScript (some {}) (some 2))) fun _ => ∅
  have hcrash := crashed_of_crashSeen hseen
  exact ⟨hcrash, delivered_nestedOne _, v, hv, (hjudged.mpr (.inr hseen)).1 hcrash⟩

/-- The only script crashes before it can write a report: nothing is left of
its exit code. -/
theorem not_judged_oneScript : ∃ v, aggregation [(oneScript none (some 2)).leg]
    (nestedOne (oneScript none (some 2))) (fun _ => ∅) = some v ∧
      ¬ Judged [oneScript none (some 2)] v.code := by
  obtain ⟨v, hv, hone, -⟩ := code_eq_one_iff (List.cons_ne_nil (oneScript none (some 2)) [])
    (delivered_nestedOne _) fun _ => ∅
  refine ⟨v, hv, fun hjudged => ?_⟩
  have hcrash : Crashed [oneScript none (some 2)] :=
    ⟨_, List.mem_cons_self, .vxi11, _, List.mem_cons_self, _, List.mem_cons_self, rfl⟩
  obtain ⟨r, hr, t, ⟨b, hb, s, hs, hreport⟩, -⟩ := hone.mp (hjudged.1 hcrash)
  rw [List.mem_singleton.mp hr] at hb
  rw [List.mem_singleton.mp hb] at hs
  rw [List.mem_singleton.mp hs] at hreport
  exact hreport rfl

end TestGear.Ci
