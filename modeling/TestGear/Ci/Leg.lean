import TestGear.Aggregate

/-!
# TestGear.Ci.Leg

One leg of a run: `compare.py` over each transport, which leaves a file of
merged columns and a file of exit codes, and `leg_status.py`, which writes what
the leg did into its manifest.  A file stands here for the JSON it holds.

`compare` keeps, per label and script, the exit code of the last run
(`codeOf_exitCodesOf`), and writes nothing if no script left a report
(`compare_eq_none_iff`).  `classify` names the scripts whose code is one of
the suite's own bugs (`mem_crashed`), and `get?_exitCodes_output` says what is
left of a leg's exit codes.
-/

namespace TestGear.Ci

open Aggregate

/-- The transports a leg runs over, `PROTOCOLS`. -/
inductive Transport where
  | hislip
  | vxi11
deriving DecidableEq, Repr

def Transport.name : Transport → Text
  | .hislip => "hislip".toList
  | .vxi11 => "vxi11".toList

def protocols : List Transport := [.hislip, .vxi11]

/-- One leg of the plan. -/
structure Leg where
  id : Text
  backend : Text
  label : Option Text := none
  osLabel : Text := []
  order : Int := 0
deriving DecidableEq

/-- By column label and script: the code the script exited with, none if it
timed out. -/
abbrev ExitCodes := Dict Text (Dict Text (Option Int))

/-! ## `compare.py` -/

/-- What `run_one` returns for a script. -/
structure ScriptRun where
  script : Text
  report : Option Report
  exit : Option Int
deriving DecidableEq

/-- One column of the comparison. -/
structure BackendRun where
  label : Text
  runs : List ScriptRun
deriving DecidableEq

/-- `exit_codes.setdefault(label, {})[script.name] = rc`. -/
def record (codes : ExitCodes) (label script : Text) (rc : Option Int) : ExitCodes :=
  codes.set label (((codes.get? label).getD ∅).set script rc)

def exitCodesOf (backends : List BackendRun) : ExitCodes :=
  backends.foldl (fun codes b =>
    b.runs.foldl (fun codes r => record codes b.label r.script r.exit) codes) ∅

def BackendRun.reports (b : BackendRun) : List Report := b.runs.filterMap ScriptRun.report

def mergedColumns (backends : List BackendRun) : List Column :=
  backends.filterMap fun b => if b.reports.isEmpty then none else some (merge b.reports b.label)

/-- `compare.main`: the merged columns and the exit codes it writes.  With
nothing to compare, or no report at all, it returns before it writes. -/
def compare (backends : List BackendRun) : Option (List Column × ExitCodes) :=
  if (mergedColumns backends).isEmpty then none
  else some (mergedColumns backends, exitCodesOf backends)

theorem compare_eq_none_iff {backends : List BackendRun} :
    compare backends = none ↔ ∀ b ∈ backends, ∀ r ∈ b.runs, r.report = none := by
  simp only [compare, ite_eq_left_iff, reduceCtorEq, imp_false, not_not, List.isEmpty_iff,
    mergedColumns, List.filterMap_eq_nil_iff, BackendRun.reports]

/-! ## The last exit code -/

def codeOf (codes : ExitCodes) (label script : Text) : Option (Option Int) :=
  (codes.get? label).bind (·.get? script)

/-- The exits of a comparison in the order they came. -/
def exits (backends : List BackendRun) : List ((Text × Text) × Option Int) :=
  backends.flatMap fun b => b.runs.map fun r => ((b.label, r.script), r.exit)

/-- The code of the last run of a script under a label. -/
def lastExit (backends : List BackendRun) (label script : Text) : Option (Option Int) :=
  (exits backends).reverse.lookup (label, script)

theorem codeOf_record (codes : ExitCodes) (label script l s : Text) (rc : Option Int) :
    codeOf (record codes label script rc) l s =
      if (l, s) = (label, script) then some rc else codeOf codes l s := by
  rw [codeOf, record, Dict.get?_set]
  by_cases hl : l = label
  · subst hl
    rw [if_pos rfl, Option.bind_some, Dict.get?_set, codeOf]
    by_cases hs : s = script
    · simp [hs]
    · cases hc : codes.get? l <;> simp [hs]
  · simp [hl, codeOf]

theorem exitCodesOf_eq_foldl (backends : List BackendRun) :
    exitCodesOf backends =
      (exits backends).foldl (fun codes p => record codes p.1.1 p.1.2 p.2) ∅ := by
  rw [exitCodesOf, exits, List.foldl_flatMap]
  congr 1
  funext codes b
  rw [List.foldl_map]

/-- **Exit codes**: of several runs of a script under one label the last counts. -/
theorem codeOf_exitCodesOf (backends : List BackendRun) (label script : Text) :
    codeOf (exitCodesOf backends) label script = lastExit backends label script := by
  rw [exitCodesOf_eq_foldl, lastExit]
  induction exits backends using List.reverseRecOn with
  | nil => rfl
  | append_singleton ps p ih =>
      rw [List.foldl_append, List.foldl_cons, List.foldl_nil, codeOf_record, ih,
        List.reverse_append, List.reverse_singleton, List.singleton_append,
        Dict.lookup_cons_eq_if]

/-! ## The artifact -/

/-- A report file: what `compare.py` merged, or what one script wrote. -/
inductive ReportFile where
  | merged (columns : List Column)
  | script (report : Report)
deriving DecidableEq

structure ScriptError where
  script : Text
  exit : Option Int
deriving DecidableEq, Repr

/-- `leg.json`.  Its status is one of those the program accepts. -/
structure Manifest where
  id : Text
  status : Option Status := none
  known : ∀ s, status = some s → s.known = true
  reason : Text := []
  flaky : Bool := false
  errors : List ScriptError := []
  exitCodes : Dict Text ExitCodes := ∅
  vendorVersion : Text := []
  host : Text := []

/-- The directory a leg uploads, its files by name. -/
structure Artifact where
  manifest : Option Manifest := none
  /-- The files `column_files` finds. -/
  reports : Dict Text ReportFile := ∅
  /-- The files `*.rc.json`. -/
  exitCodes : Dict Text ExitCodes := ∅

/-- File names in the order `sorted` gives. -/
def Artifact.columnFiles (root : Artifact) : List Text := root.reports.keys.mergeSort (· ≤ ·)

def Transport.reportFile (t : Transport) : Text := t.name ++ ".json".toList

def Transport.exitFile (t : Transport) : Text := t.name ++ ".rc.json".toList

/-- One transport of a leg: what `compare.py` writes next to what is there. -/
def Artifact.compared (root : Artifact) (t : Transport) (backends : List BackendRun) : Artifact :=
  match compare backends with
  | none => root
  | some (columns, codes) =>
      { root with
        reports := root.reports.set t.reportFile (.merged columns)
        exitCodes := root.exitCodes.set t.exitFile codes }

/-! ## `leg_status.py` -/

/-- `OUR_BUG`: 2 is an unexpected exception, 5 is the suite calling VISA wrongly. -/
def ourBug (rc : Option Int) : Bool := rc = some 2 || rc = some 5

/-- `LOST_TARGET`. -/
def lostTarget (rc : Option Int) : Bool := rc = some 3

/-- `replace(sub, "")`; `skip` characters of an occurrence are still to pass. -/
def removeAll (sub : Text) (skip : Nat) : Text → Text
  | [] => []
  | c :: cs =>
      if 0 < skip then removeAll sub (skip - 1) cs
      else if sub.isPrefixOf (c :: cs) then removeAll sub (sub.length - 1) cs
      else c :: removeAll sub 0 cs

/-- The transport that is in a file's name. -/
def transportOf (filename : Text) : Text := removeAll ".rc.json".toList 0 filename

/-- How a crash is named. -/
def whereOf (script transport : Text) : Text := script ++ " [".toList ++ transport ++ "]".toList

/-- The exit codes of a leg, each under its script and transport. -/
def namedExits (exitCodes : Dict Text ExitCodes) : List (Text × Option Int) :=
  exitCodes.items.flatMap fun file => file.2.values.flatMap fun perColumn =>
    perColumn.items.map fun p => (whereOf p.1 (transportOf file.1), p.2)

/-- Of several labels with one script the last counts. -/
def flatten (exitCodes : Dict Text ExitCodes) : Dict Text (Option Int) := .ofList (namedExits exitCodes)

def crashed (exitCodes : Dict Text ExitCodes) : List ScriptError :=
  (((flatten exitCodes).sortBy (· ≤ ·)).items.filter (ourBug ·.2)).map fun p => ⟨p.1, p.2⟩

structure Classified where
  status : Status
  reason : Text
  flaky : Bool
  errors : List ScriptError
deriving DecidableEq

/-- Whether a leg produced columns at all, and apart from that which scripts
crashed. -/
def classify (reports : List Text) (exitCodes : Dict Text ExitCodes) : Classified :=
  let errors := crashed exitCodes
  let flaky := (flatten exitCodes).values.any lostTarget
  if reports.isEmpty then ⟨.notRun, "the leg produced no report".toList, flaky, errors⟩
  else
    let named := ", ".toList.intercalate (errors.map ScriptError.script)
    let reason := if errors.isEmpty then [] else
      natText errors.length ++ " script(s) crashed and are missing from this column: ".toList ++
        named ++ ". That is this suite's bug, not a finding about the backend.".toList
    ⟨.ok, reason, flaky, errors⟩

theorem known_classify (reports : List Text) (exitCodes : Dict Text ExitCodes) :
    (classify reports exitCodes).status.known = true := by
  unfold classify
  split <;> rfl

/-- `--status`, `--reason`, `--vendor-version` and where the leg ran. -/
structure LegArgs where
  status : Option Status := none
  known : ∀ s, status = some s → s.known = true
  reason : Text := []
  vendorVersion : Text := []
  host : Text := []

/-- A leg with no status of its own to report. -/
def LegArgs.inferred (vendorVersion host : Text) : LegArgs where
  status := none
  known := fun _ h => nomatch h
  vendorVersion
  host

theorem known_orElse {a : Option Status} (ha : ∀ s, a = some s → s.known = true) {b : Status}
    (hb : b.known = true) : ∀ s, some (a.getD b) = some s → s.known = true := by
  cases a with
  | none => exact fun s h => Option.some.inj h ▸ hb
  | some t => exact fun s h => Option.some.inj h ▸ ha t rfl

/-- `leg_status.main`: the directory with its manifest. -/
def legStatus (id : Text) (args : LegArgs) (root : Artifact) : Artifact :=
  let exitCodes := root.exitCodes.sortBy (· ≤ ·)
  let c := classify root.columnFiles exitCodes
  { root with
    manifest := some
      { id
        status := some (args.status.getD c.status)
        known := known_orElse args.known (known_classify _ _)
        reason := if args.reason.isEmpty then c.reason else args.reason
        flaky := c.flaky
        errors := c.errors
        exitCodes
        vendorVersion := args.vendorVersion
        host := args.host } }

/-! ## What a leg leaves -/

theorem mem_namedExits {exitCodes : Dict Text ExitCodes} {named : Text} {rc : Option Int} :
    (named, rc) ∈ namedExits exitCodes ↔ ∃ file codes label script,
      exitCodes.get? file = some codes ∧ codeOf codes label script = some rc ∧
        whereOf script (transportOf file) = named := by
  simp only [namedExits, List.mem_flatMap, List.mem_map, Dict.mem_values_iff, Prod.exists,
    ← Dict.get?_eq_some_iff, codeOf, Option.bind_eq_some_iff, Prod.mk.injEq]
  constructor
  · rintro ⟨file, codes, hfile, perColumn, ⟨label, hlabel⟩, script, code, hscript, rfl, rfl⟩
    exact ⟨file, codes, label, script, hfile, ⟨perColumn, hlabel, hscript⟩, rfl⟩
  · rintro ⟨file, codes, label, script, hfile, ⟨perColumn, hlabel, hscript⟩, rfl⟩
    exact ⟨file, codes, hfile, perColumn, ⟨label, hlabel⟩, script, rc, hscript, rfl, rfl⟩

theorem mem_crashed {exitCodes : Dict Text ExitCodes} {named : Text} :
    named ∈ (crashed exitCodes).map ScriptError.script ↔
      ∃ rc, (flatten exitCodes).get? named = some rc ∧ ourBug rc = true := by
  simp only [crashed, List.map_map, List.mem_map, List.mem_filter, Dict.mem_items_sortBy,
    Prod.exists, ← Dict.get?_eq_some_iff, Function.comp]
  constructor
  · rintro ⟨name, rc, ⟨hget, hbug⟩, rfl⟩
    exact ⟨rc, hget, hbug⟩
  · rintro ⟨rc, hget, hbug⟩
    exact ⟨named, rc, ⟨hget, hbug⟩, rfl⟩

/-- A leg and what its scripts came to over each transport. -/
structure LegRun where
  leg : Leg
  vendorVersion : Text := []
  host : Text := []
  runs : Transport → List BackendRun

/-- What `compare.py` leaves over both transports. -/
def LegRun.output (r : LegRun) : Artifact :=
  protocols.foldl (fun root t => root.compared t (r.runs t)) {}

/-- What the leg uploads. -/
def LegRun.artifact (r : LegRun) : Artifact :=
  legStatus r.leg.id (.inferred r.vendorVersion r.host) r.output

theorem get?_exitCodes_compared (root : Artifact) (t : Transport) (backends : List BackendRun)
    (file : Text) : (root.compared t backends).exitCodes.get? file =
      if file = t.exitFile then ((compare backends).map Prod.snd).or (root.exitCodes.get? file)
      else root.exitCodes.get? file := by
  unfold Artifact.compared
  cases compare backends with
  | none => simp
  | some written => simp [Dict.get?_set]

theorem get?_reports_compared (root : Artifact) (t : Transport) (backends : List BackendRun)
    (file : Text) : (root.compared t backends).reports.get? file =
      if file = t.reportFile then
        ((compare backends).map fun w => ReportFile.merged w.1).or (root.reports.get? file)
      else root.reports.get? file := by
  unfold Artifact.compared
  cases compare backends with
  | none => simp
  | some written => simp [Dict.get?_set]

theorem exitFile_ne : Transport.hislip.exitFile ≠ Transport.vxi11.exitFile := by decide

theorem reportFile_ne : Transport.hislip.reportFile ≠ Transport.vxi11.reportFile := by decide

/-- The exit codes of a leg are those of the transports that left a report. -/
theorem get?_exitCodes_output (r : LegRun) {file : Text} {codes : ExitCodes} :
    r.output.exitCodes.get? file = some codes ↔
      ∃ t, file = Transport.exitFile t ∧ (compare (r.runs t)).map Prod.snd = some codes := by
  have hne := exitFile_ne
  simp only [LegRun.output, protocols, List.foldl_cons, List.foldl_nil, get?_exitCodes_compared,
    Dict.get?_empty, Option.or_none]
  constructor
  · intro h
    split at h
    · next hfile =>
        rw [if_neg (hfile ▸ hne.symm), Option.or_none] at h
        exact ⟨.vxi11, hfile, h⟩
    · split at h
      · next hfile => exact ⟨.hislip, hfile, h⟩
      · cases h
  · rintro ⟨t, rfl, h⟩
    cases t with
    | hislip => rw [if_neg hne, if_pos rfl, h]
    | vxi11 => rw [if_pos rfl, if_neg hne.symm, h, Option.some_or]

theorem get?_reports_output (r : LegRun) (t : Transport) :
    r.output.reports.get? t.reportFile = (compare (r.runs t)).map fun w => .merged w.1 := by
  have hne := reportFile_ne
  simp only [LegRun.output, protocols, List.foldl_cons, List.foldl_nil, get?_reports_compared,
    Dict.get?_empty, Option.or_none]
  cases t with
  | hislip => rw [if_neg hne, if_pos rfl]
  | vxi11 => rw [if_pos rfl, if_neg hne.symm, Option.or_none]

end TestGear.Ci
