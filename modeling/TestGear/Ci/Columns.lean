import TestGear.Ci.Leg

/-!
# TestGear.Ci.Columns

`normalise_reports.py` folds the artifacts that were downloaded into one
directory of columns per transport, with an index built from the plan, and
`artifact_matrix.load` reads such a directory back.

A column holds the results of all the report files it was folded from
(`results_loadColumn`); `publish_cases` says everything the loop over the plan
can do with a leg.
-/

namespace TestGear.Ci

open Aggregate

/-! ## What was downloaded -/

/-- The artifacts in their directories `reports-<id>`, or one of them straight
in the root. -/
structure Downloads where
  nested : Dict Text Artifact := ∅
  flat : Artifact := {}

/-- Where one leg's artifact landed, if it arrived. -/
def legRoot (src : Downloads) (legId : Text) : Option Artifact :=
  match src.nested.get? legId with
  | some root => some root
  | none => if src.flat.manifest.map Manifest.id = some legId then some src.flat else none

/-- `suite.SCRIPTS`, by name. -/
def suiteScripts : List Text :=
  ["01_smoke.py".toList, "02_io.py".toList, "03_srq.py".toList, "04_concurrency.py".toList,
    "05_lock.py".toList, "06_terminate.py".toList, "07_clear.py".toList,
    "09_remote_local.py".toList, "10_lock_semantics.py".toList, "12_session_lifecycle.py".toList,
    "13_events.py".toList, "15_required_attributes.py".toList, "16_operations.py".toList,
    "17_resource_names.py".toList, "conformance.py".toList, "08_soak.py".toList,
    "vxi11_conformance.py".toList, "14_vxi11_flags.py".toList, "11_hislip_messages.py".toList,
    "18_hislip_modes.py".toList]

def suiteOrder : Dict Text Nat := .ofList (suiteScripts.zipIdx.map fun p => (p.1.rdrop 3, p.2))

/-- `p.stem` of a file `<stem>.json`. -/
def stem (filename : Text) : Text := filename.rdrop 5

/-- Where a file `<script>-<protocol>.json` stands in the suite. -/
def suiteRank (t : Transport) (filename : Text) : Nat :=
  (suiteOrder.get? ((stem filename).rdrop (t.name.length + 1))).getD 999

/-- The report files of one transport, those of single scripts in the order of
the suite. -/
def legReports (root : Artifact) (t : Transport) : List ReportFile :=
  match root.reports.get? t.reportFile with
  | some file => [file]
  | none =>
      let found := root.columnFiles.filter fun name => ("-".toList ++ t.name).isSuffixOf (stem name)
      (found.mergeSort fun a b => suiteRank t a ≤ suiteRank t b).filterMap root.reports.get?

/-- The columns of one file. -/
def ReportFile.columns (label : Text) : ReportFile → List Column
  | .merged columns => columns.map fun c => { c with label := some (c.label.getD label) }
  | .script report => [merge [report] label]

/-- One column from whatever shape a leg wrote. -/
def loadColumn (files : List ReportFile) (label : Text) : Option Column :=
  match files.flatMap (·.columns label) with
  | [] => none
  | [column] => some column
  | column :: columns =>
      some { column with
        results := (column :: columns).flatMap Column.results
        notes := (column :: columns).flatMap Column.notes }

/-! ## The index -/

/-- What the index says of one leg. -/
structure Entry where
  id : Text
  backend : Text
  label : Text := []
  osLabel : Text := []
  order : Int := 0
  file : Text
  status : Option Status := none
  reason : Text := []
  vendorVersion : Text := []
  flaky : Bool := false
  exitCodes : Dict Text ExitCodes := ∅
  host : Text := []
  errors : List ScriptError := []
deriving DecidableEq

/-- What the plan says of a leg. -/
def Leg.entry (leg : Leg) : Entry where
  id := leg.id
  backend := leg.backend
  label := leg.label.getD leg.id
  osLabel := leg.osLabel
  order := leg.order
  file := leg.id ++ ".json".toList

/-- What is carried through from the manifest. -/
def Entry.carrying (entry : Entry) (m : Manifest) : Entry :=
  { entry with
    vendorVersion := m.vendorVersion, flaky := m.flaky, exitCodes := m.exitCodes
    host := m.host, errors := m.errors }

/-- The crashed scripts that belong to a transport, by the name they go under. -/
def crashedOn (t : Transport) (m : Manifest) : List Text :=
  (m.errors.map ScriptError.script).filter fun script => t.name <:+: script

def missingReason (crashed : List Text) : Text :=
  natText crashed.length ++ " script(s) crashed and are missing from this column: ".toList ++
    ", ".toList.intercalate crashed

/-- The column that a leg may publish. -/
def columnFor (root : Artifact) (t : Transport) (label : Text) : Option Column :=
  if (root.manifest.bind Manifest.status).getD .ok = .ok then loadColumn (legReports root t) label
  else none

/-- A column as it is written, and what the index says of it. -/
def finish (entry : Entry) (crashed : List Text) (column : Column) : Entry × Column :=
  let reason := if crashed.isEmpty then entry.reason else missingReason crashed
  ({ entry with status := some .ok, reason },
    { column with
      declared := some .ok
      errors := if crashed.isEmpty then column.errors else crashed
      reason := if crashed.isEmpty then column.reason else missingReason crashed
      backend := entry.backend
      osLabel := entry.osLabel
      id := entry.id
      vendorVersion := if entry.vendorVersion.isEmpty then column.vendorVersion
        else entry.vendorVersion })

/-- One turn of the loop over the plan: the entry of a leg, and the column that
is written for it if there is one. -/
def publish (src : Downloads) (t : Transport) (leg : Leg) : Entry × Option Column :=
  match legRoot src leg.id with
  | none =>
      ({ leg.entry with status := some .notRun, reason := "the job produced no artifact".toList },
        none)
  | some root =>
      let entry := root.manifest.elim leg.entry leg.entry.carrying
      match columnFor root t entry.label with
      | none =>
          let status := (root.manifest.bind Manifest.status).getD .notRun
          let said := (root.manifest.map Manifest.reason).getD []
          -- it said it was fine and then produced nothing for this transport
          ({ entry with
              status := some (if status = .ok then .notRun else status)
              reason := if said.isEmpty then
                "no ".toList ++ t.name ++ " report in the artifact".toList else said },
            none)
      | some column =>
          let done := finish entry (root.manifest.elim [] (crashedOn t)) column
          (done.1, some done.2)

/-- A file of the directory that is written. -/
inductive OutFile where
  | column (c : Column)
  | index (entries : List Entry)
deriving DecidableEq

def indexFile : Text := "index.json".toList

/-- The index of one transport: an entry for every leg of the plan. -/
def indexOf (plan : List Leg) (src : Downloads) (t : Transport) : List Entry :=
  plan.map fun leg => (publish src t leg).1

/-- The column files of one transport, as they are written. -/
def written (plan : List Leg) (src : Downloads) (t : Transport) : List (Text × Column) :=
  plan.filterMap fun leg =>
    (publish src t leg).2.map fun column => ((publish src t leg).1.file, column)

/-- `normalise_reports.main` for one transport, into a directory in which files
of an earlier run may lie.  A plan without legs is refused. -/
def normalise (plan : List Leg) (src : Downloads) (t : Transport) (dir : Dict Text OutFile) :
    Option (Dict Text OutFile) :=
  if plan.isEmpty then none
  else
    some ((dir.update ((written plan src t).map fun p => (p.1, .column p.2))).set indexFile
      (.index (indexOf plan src t)))

/-! ## Reading a directory back -/

/-- `backends.BACKENDS`: the names of the implementations. -/
def backendNames : List (Text × Text) :=
  [("py".toList, "PyVISA-py".toList), ("ni".toList, "NI-VISA".toList),
    ("rs".toList, "R&S VISA".toList), ("keysight".toList, "Keysight IO Libraries".toList),
    ("tek".toList, "TekVISA".toList), ("sim".toList, "PyVISA-sim".toList)]

def Entry.defaultLabel (e : Entry) : Text := (backendNames.lookup e.backend).getD e.id

/-- Text that is there, else other text: `a or b`. -/
def orElse (a b : Text) : Text := if a.isEmpty then b else a

/-- The column of one entry. -/
def columnOf (root : Dict Text OutFile) (e : Entry) : Column :=
  let column : Column := match root.get? e.file with
    | some (.column c) => c
    | some (.index _) => {}
    | none => { declared := some .notRun
                reason := orElse e.reason ("no report at ".toList ++ e.file) }
  { column with
    label := some (orElse e.label (orElse (column.label.getD []) e.defaultLabel))
    backend := e.backend
    id := orElse e.id column.id
    osLabel := orElse e.osLabel column.osLabel
    vendorVersion := orElse e.vendorVersion column.vendorVersion
    declared := match e.status with
      | some s => if s = .other [] then column.declared else some s
      | none => column.declared
    reason := orElse e.reason column.reason }

/-- `aggregate.column_files` of the directory. -/
def isColumnFile (filename : Text) : Bool :=
  ".json".toList.isSuffixOf filename &&
    !([indexFile, "leg.json".toList, "plan.json".toList].contains filename) &&
    !".rc.json".toList.isSuffixOf filename

/-- The entries of a directory that was made by hand: what is there, in the
order of the table of backends. -/
def fallback (root : Dict Text OutFile) : List Entry :=
  let rank (filename : Text) : Nat := (backendNames.map Prod.fst).idxOf (stem filename)
  ((root.keys.filter isColumnFile).mergeSort fun a b =>
      rank a < rank b || rank a = rank b && stem a ≤ stem b).map fun filename =>
    { id := stem filename, backend := stem filename, file := filename }

/-- The entries of a directory; what is no index but goes by its name makes the
reader fail. -/
def planned (root : Dict Text OutFile) : Option (List Entry) :=
  match root.get? indexFile with
  | some (.index entries) => some entries
  | some (.column _) => none
  | none => some (fallback root)

/-- `artifact_matrix.load`: a column for every entry, by the label a reader
sees.  `lower` is the language's own. -/
def load (lower : Text → Text) (root : Dict Text OutFile) : Option (List Column) :=
  let labelOf (e : Entry) := lower (orElse e.label e.defaultLabel)
  (planned root).map fun entries =>
    (entries.mergeSort fun a b => labelOf a ≤ labelOf b).map (columnOf root)

/-! ## What a column holds -/

/-- A report file that has a column in it. -/
def ReportFile.HoldsColumn : ReportFile → Prop
  | .merged columns => columns ≠ []
  | .script _ => True

/-- A report file that has a result in it. -/
def ReportFile.HoldsResult : ReportFile → Prop
  | .merged columns => ∃ c ∈ columns, c.results ≠ []
  | .script report => report.results ≠ []

theorem ReportFile.columns_ne_nil_iff {f : ReportFile} (label : Text) :
    f.columns label ≠ [] ↔ f.HoldsColumn := by
  cases f <;> simp [ReportFile.columns, ReportFile.HoldsColumn]

theorem ReportFile.exists_result_iff {f : ReportFile} (label : Text) :
    (∃ c ∈ f.columns label, c.results ≠ []) ↔ f.HoldsResult := by
  cases f with
  | merged columns => simp [ReportFile.columns, ReportFile.HoldsResult]
  | script report =>
      simp [ReportFile.columns, ReportFile.HoldsResult, results_merge]

theorem loadColumn_eq_none_iff {files : List ReportFile} {label : Text} :
    loadColumn files label = none ↔ ∀ f ∈ files, ¬ f.HoldsColumn := by
  have hnil : loadColumn files label = none ↔ files.flatMap (·.columns label) = [] := by
    unfold loadColumn
    split <;> simp_all
  rw [hnil, List.flatMap_eq_nil_iff]
  exact forall₂_congr fun f _ => not_iff_not.mp (by
    rw [not_not, ← ReportFile.columns_ne_nil_iff label])

/-- **What a column holds**: the results of all the files it comes from. -/
theorem results_loadColumn {files : List ReportFile} {label : Text} {column : Column}
    (h : loadColumn files label = some column) :
    column.results = (files.flatMap (·.columns label)).flatMap Column.results := by
  unfold loadColumn at h
  split at h
  · cases h
  · next heq => rw [heq, ← Option.some.inj h, List.flatMap_singleton]
  · next heq => rw [heq, ← Option.some.inj h]

theorem results_loadColumn_ne_nil_iff {files : List ReportFile} {label : Text} {column : Column}
    (h : loadColumn files label = some column) :
    column.results ≠ [] ↔ ∃ f ∈ files, f.HoldsResult := by
  rw [results_loadColumn h]
  simp only [ne_eq, List.flatMap_eq_nil_iff, List.mem_flatMap, not_forall, forall_exists_index,
    and_imp]
  constructor
  · rintro ⟨c, f, hf, hc, hne⟩
    exact ⟨f, hf, (ReportFile.exists_result_iff label).mp ⟨c, hc, hne⟩⟩
  · rintro ⟨f, hf, hres⟩
    obtain ⟨c, hc, hne⟩ := (ReportFile.exists_result_iff label).mpr hres
    exact ⟨c, f, hf, hc, hne⟩

/-! ## What the loop over the plan does -/

/-- The entry of a leg whose artifact arrived, before its status is known. -/
def Leg.arrived (leg : Leg) (root : Artifact) : Entry :=
  root.manifest.elim leg.entry leg.entry.carrying

theorem Leg.arrived_eq (leg : Leg) (root : Artifact) :
    (leg.arrived root).id = leg.id ∧ (leg.arrived root).label = leg.entry.label ∧
      (leg.arrived root).file = leg.entry.file := by
  unfold Leg.arrived
  cases root.manifest <;> exact ⟨rfl, rfl, rfl⟩

/-- **Publishing a leg**: either there is no column, and the entry says so with
one of the known statuses, or the leg's column is written and the entry is `ok`. -/
theorem publish_cases (src : Downloads) (t : Transport) (leg : Leg) :
    ((∀ root, legRoot src leg.id = some root → columnFor root t leg.entry.label = none) ∧
      (publish src t leg).2 = none ∧
      ∃ s, (publish src t leg).1.status = some s ∧ s.known = true ∧ s ≠ .ok) ∨
    ∃ root column, legRoot src leg.id = some root ∧
      columnFor root t leg.entry.label = some column ∧
      publish src t leg = Prod.map id some
        (finish (leg.arrived root) (root.manifest.elim [] (crashedOn t)) column) := by
  cases hroot : legRoot src leg.id with
  | none =>
      left
      refine ⟨fun _ h => (nomatch h), ?_⟩
      simp only [publish, hroot, Option.some.injEq, exists_eq_left', true_and]
      exact ⟨rfl, Status.noConfusion⟩
  | some root =>
      have hlabel := (leg.arrived_eq root).2.1
      unfold Leg.arrived at hlabel
      cases hcol : columnFor root t leg.entry.label with
      | none =>
          left
          refine ⟨fun r h => Option.some.inj h ▸ hcol, ?_⟩
          simp only [publish, hroot, hlabel, hcol, Option.some.injEq, exists_eq_left', true_and]
          cases hs : root.manifest.bind Manifest.status with
          | none => exact ⟨rfl, Status.noConfusion⟩
          | some s =>
              obtain ⟨m, -, hm⟩ := Option.bind_eq_some_iff.mp hs
              rw [Option.getD_some]
              split
              · exact ⟨rfl, Status.noConfusion⟩
              · next hne => exact ⟨m.known s hm, hne⟩
      | some column =>
          right
          refine ⟨root, column, rfl, hcol, ?_⟩
          simp only [publish, hroot, hlabel, hcol]
          rfl

theorem publish_id (src : Downloads) (t : Transport) (leg : Leg) :
    (publish src t leg).1.id = leg.id ∧ (publish src t leg).1.file = leg.entry.file := by
  unfold publish
  split
  · exact ⟨rfl, rfl⟩
  · next root _ =>
      have h := leg.arrived_eq root
      unfold Leg.arrived at h
      simp only
      split <;> exact ⟨h.1, h.2.2⟩

/-- What a leg's manifest says of its exit codes reaches the index, whether or
not there is a column. -/
theorem publish_exitCodes {src : Downloads} {leg : Leg} {root : Artifact} {m : Manifest}
    (hroot : legRoot src leg.id = some root) (hm : root.manifest = some m) (t : Transport) :
    (publish src t leg).1.exitCodes = m.exitCodes := by
  simp only [publish, hroot, hm, Option.elim_some]
  split <;> rfl

/-- A leg is called `errored` only if its manifest says so. -/
theorem publish_errored {src : Downloads} {leg : Leg} {root : Artifact} {m : Manifest}
    (hroot : legRoot src leg.id = some root) (hm : root.manifest = some m) {t : Transport}
    (h : (publish src t leg).1.status = some .errored) : m.status = some .errored := by
  simp only [publish, hroot, hm, Option.elim_some, Option.bind_some] at h
  split at h
  · cases hs : m.status with
    | none => simp [hs] at h
    | some s =>
        simp only [hs, Option.getD_some, Option.some.injEq] at h
        split at h
        · cases h
        · rw [h]
  · cases h

theorem columnFor_eq_some_iff {root : Artifact} {t : Transport} {label : Text} {column : Column} :
    columnFor root t label = some column ↔
      (root.manifest.bind Manifest.status).getD .ok = .ok ∧
        loadColumn (legReports root t) label = some column := by
  unfold columnFor
  split
  · next h => simp [h]
  · next h => simp [h]

end TestGear.Ci
