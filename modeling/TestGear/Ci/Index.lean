import TestGear.Ci.Columns

/-!
# TestGear.Ci.Index

The directory that is published has an entry for every leg of the plan, an
entry is `ok` just when a column was written for it, and reading the directory
back gives a column for every entry.  What may go wrong is that a column is
`ok` and empty: a leg may report without a single result, and the column of a
leg that is called `index` is overwritten by the index (`indexComplete_iff`).
-/

namespace TestGear.Ci

open Aggregate

/-- The published index is complete and no empty column is compared. -/
structure IndexComplete (lower : Text → Text) (plan : List Leg) (src : Downloads) (t : Transport)
    (out : Dict Text OutFile) : Prop where
  /-- One entry per planned leg, in plan order. -/
  entries : ∃ es, out.get? indexFile = some (.index es) ∧ es.map Entry.id = plan.map Leg.id
  /-- An entry is `ok` just when a column file was written for it in this run. -/
  ok_iff : ∀ es, out.get? indexFile = some (.index es) → ∀ e ∈ es,
    (e.status = some .ok ↔ ∃ column, (e.file, column) ∈ written plan src t)
  /-- One column per entry is read back. -/
  loaded : ∀ es, out.get? indexFile = some (.index es) →
    ∃ es' : List Entry, es'.Perm es ∧ load lower out = some (es'.map (columnOf out))
  /-- What is compared has something to compare. -/
  nonempty : ∀ columns, load lower out = some columns →
    ∀ c ∈ columns, c.status = .ok → c.results ≠ []

/-- A leg that reports for this transport reports a result, and its column
keeps its file: the artifact arrived and its manifest does not say that the
leg did not run, so if there is a column in its report files then there is a
result in them. -/
def Leg.Reports (leg : Leg) (src : Downloads) (t : Transport) : Prop :=
  ∀ root, legRoot src leg.id = some root → (root.manifest.bind Manifest.status).getD .ok = .ok →
    (∃ f ∈ legReports root t, f.HoldsColumn) →
      (∃ f ∈ legReports root t, f.HoldsResult) ∧ leg.id ≠ "index".toList

section

variable {plan : List Leg} {src : Downloads} {t : Transport} {dir out : Dict Text OutFile}

theorem get?_normalise (h : normalise plan src t dir = some out) (file : Text) :
    out.get? file = if file = indexFile then some (.index (indexOf plan src t)) else
      (((written plan src t).map fun p => (p.1, OutFile.column p.2)).reverse.lookup file).or
        (dir.get? file) := by
  unfold normalise at h
  split at h
  · cases h
  · rw [← Option.some.inj h, Dict.get?_set, Dict.get?_update]

theorem entry_file_injective {a b : Leg} (h : a.entry.file = b.entry.file) : a.id = b.id :=
  List.append_cancel_right h

theorem map_file_written :
    ((written plan src t).map Prod.fst).Sublist (plan.map fun leg => leg.entry.file) := by
  rw [written, List.map_filterMap]
  induction plan with
  | nil => simp
  | cons leg plan ih =>
      rw [List.filterMap_cons, List.map_cons]
      cases hc : (publish src t leg).2 with
      | none => exact ih.cons _
      | some c =>
          simp only [Option.map_some, (publish_id src t leg).2]
          exact ih.cons_cons _

theorem mem_written_iff (hdistinct : (plan.map Leg.id).Nodup) {leg : Leg} (hleg : leg ∈ plan)
    {column : Column} :
    (leg.entry.file, column) ∈ written plan src t ↔ (publish src t leg).2 = some column := by
  simp only [written, List.mem_filterMap, Option.map_eq_some_iff, Prod.mk.injEq]
  constructor
  · rintro ⟨other, hother, c, hc, hfile, rfl⟩
    rw [(publish_id src t other).2] at hfile
    have hid := entry_file_injective hfile
    rwa [List.inj_on_of_nodup_map hdistinct hother hleg hid] at hc
  · intro hc
    exact ⟨leg, hleg, column, hc, (publish_id src t leg).2, rfl⟩

theorem nodup_written (hdistinct : (plan.map Leg.id).Nodup) :
    ((written plan src t).map Prod.fst).Nodup := by
  refine map_file_written.nodup ?_
  have hfiles : (plan.map fun leg => leg.entry.file) =
      (plan.map Leg.id).map (· ++ ".json".toList) := by
    rw [List.map_map]
    rfl
  rw [hfiles]
  exact hdistinct.map fun _ _ => List.append_cancel_right

/-- A column that was written is there to be read, unless the index took its
place. -/
theorem get?_of_publish (h : normalise plan src t dir = some out)
    (hdistinct : (plan.map Leg.id).Nodup) {leg : Leg} (hleg : leg ∈ plan) {column : Column}
    (hcolumn : (publish src t leg).2 = some column) :
    out.get? leg.entry.file = if leg.id = "index".toList then some (.index (indexOf plan src t))
      else some (.column column) := by
  have hname : leg.entry.file = indexFile ↔ leg.id = "index".toList :=
    ⟨fun hf => List.append_cancel_right (hf : leg.id ++ ".json".toList = "index".toList ++ _),
      fun hi => by rw [Leg.entry, hi]; rfl⟩
  have hkeys : (((written plan src t).map fun p => (p.1, OutFile.column p.2)).map Prod.fst).Nodup := by
    rw [List.map_map]
    exact nodup_written hdistinct
  have hmem : (leg.entry.file, OutFile.column column) ∈
      (written plan src t).map fun p => (p.1, OutFile.column p.2) :=
    List.mem_map_of_mem (f := fun p : Text × Column => (p.1, OutFile.column p.2))
      ((mem_written_iff hdistinct hleg).mpr hcolumn)
  have hfound := (Dict.get?_ofList_of_nodup hkeys).mpr hmem
  rw [Dict.get?_ofList] at hfound
  rw [get?_normalise h]
  by_cases hi : leg.id = "index".toList
  · rw [if_pos (hname.mpr hi), if_pos hi]
  · rw [if_neg (hi ∘ hname.mp), if_neg hi]
    rw [hfound, Option.some_or]

theorem get?_index (h : normalise plan src t dir = some out) :
    out.get? indexFile = some (.index (indexOf plan src t)) := by
  rw [get?_normalise h, if_pos rfl]

theorem load_normalise (lower : Text → Text) (h : normalise plan src t dir = some out) :
    ∃ es : List Entry, es.Perm (indexOf plan src t) ∧ load lower out = some (es.map (columnOf out)) := by
  rw [load, planned, get?_index h]
  exact ⟨_, List.mergeSort_perm _ _, rfl⟩

/-- What is read back for an entry has the entry's status. -/
theorem status_columnOf {e : Entry} {s : Status} (hs : e.status = some s) (hknown : s.known = true) :
    (columnOf out e).status = s := by
  have hne : s ≠ .other [] := fun h => by rw [h] at hknown; cases hknown
  have hdeclared : (columnOf out e).declared = some s := by
    simp only [columnOf, hs, if_neg hne]
  rw [Column.status, hdeclared]
  simp only [hknown, if_true]

theorem results_columnOf {e : Entry} : (columnOf out e).results =
    match out.get? e.file with
    | some (.column c) => c.results
    | _ => [] := by
  unfold columnOf
  split <;> simp_all

theorem status_publish_iff (src : Downloads) (t : Transport) (leg : Leg) :
    (publish src t leg).1.status = some .ok ↔ ∃ column, (publish src t leg).2 = some column := by
  obtain ⟨-, hnone, s, hs, -, hne⟩ | ⟨root, column, -, -, hpub⟩ := publish_cases src t leg
  · rw [hnone, hs]
    simp [hne]
  · rw [hpub]
    exact iff_of_true rfl ⟨_, rfl⟩

/-- What is published for a leg has results just when the leg reports some and
is not called `index`. -/
theorem reports_iff (h : normalise plan src t dir = some out)
    (hdistinct : (plan.map Leg.id).Nodup) {leg : Leg} (hleg : leg ∈ plan) :
    leg.Reports src t ↔ ((columnOf out (publish src t leg).1).status = .ok →
      (columnOf out (publish src t leg).1).results ≠ []) := by
  obtain ⟨hno, -, s, hs, hknown, hne⟩ | ⟨root, column, hroot, hcol, hpub⟩ := publish_cases src t leg
  · -- nothing is published, and nothing is there to be
    refine iff_of_true (fun root hroot hok hholds => ?_) fun hstatus => ?_
    · have hnone := hno root hroot
      rw [columnFor, if_pos hok, loadColumn_eq_none_iff] at hnone
      obtain ⟨f, hf, hhold⟩ := hholds
      exact absurd hhold (hnone f hf)
    · rw [status_columnOf hs hknown] at hstatus
      exact absurd hstatus hne
  · have hstatus : (columnOf out (publish src t leg).1).status = .ok :=
      status_columnOf ((status_publish_iff src t leg).mpr ⟨_, congrArg Prod.snd hpub⟩) rfl
    have hfile := get?_of_publish h hdistinct hleg (congrArg Prod.snd hpub)
    rw [results_columnOf, (publish_id src t leg).2, hfile]
    obtain ⟨hok, hload⟩ := columnFor_eq_some_iff.mp hcol
    have hholds : ∃ f ∈ legReports root t, f.HoldsColumn := by
      by_contra hnot
      push Not at hnot
      rw [loadColumn_eq_none_iff.mpr hnot] at hload
      cases hload
    simp only [hstatus, forall_const]
    have hresults := results_loadColumn_ne_nil_iff hload
    constructor
    · intro hrep
      obtain ⟨hres, hid⟩ := hrep root hroot hok hholds
      rw [if_neg hid]
      exact hresults.mpr hres
    · intro hne root' hroot' _ _
      rw [hroot, Option.some.injEq] at hroot'
      subst hroot'
      by_cases hid : leg.id = "index".toList
      · rw [if_pos hid] at hne
        exact absurd rfl hne
      · rw [if_neg hid] at hne
        exact ⟨hresults.mp hne, hid⟩

/-- What is compared has something to compare, just when every leg reports. -/
theorem loaded_nonempty_iff (lower : Text → Text) (hdistinct : (plan.map Leg.id).Nodup)
    (h : normalise plan src t dir = some out) :
    (∀ columns, load lower out = some columns → ∀ c ∈ columns, c.status = .ok → c.results ≠ []) ↔
      ∀ leg ∈ plan, leg.Reports src t := by
  obtain ⟨es, hperm, hload⟩ := load_normalise lower h
  have hmem : ∀ c, c ∈ es.map (columnOf out) ↔
      ∃ leg ∈ plan, columnOf out (publish src t leg).1 = c := by
    intro c
    rw [List.mem_map]
    simp only [hperm.mem_iff, indexOf, List.mem_map, exists_exists_and_eq_and]
  rw [hload]
  simp only [Option.some.injEq, forall_eq', hmem, forall_exists_index, and_imp,
    forall_apply_eq_imp_iff₂]
  exact forall₂_congr fun leg hleg => (reports_iff h hdistinct hleg).symm

/-- **The published index**: for a plan with distinct ids it is complete and
compares no empty column exactly if every leg that reports reports a result,
and none is called `index`. -/
theorem indexComplete_iff (lower : Text → Text) (hdistinct : (plan.map Leg.id).Nodup)
    (h : normalise plan src t dir = some out) :
    IndexComplete lower plan src t out ↔ ∀ leg ∈ plan, leg.Reports src t := by
  have hnonempty := loaded_nonempty_iff lower hdistinct h
  constructor
  · intro hcomplete
    exact hnonempty.mp hcomplete.nonempty
  · intro hreports
    have hindex : ∀ es, out.get? indexFile = some (.index es) → es = indexOf plan src t := by
      intro es hes
      rw [get?_index h] at hes
      cases hes
      rfl
    refine ⟨⟨_, get?_index h, ?_⟩, fun es hes e he => ?_, fun es hes => ?_, hnonempty.mpr hreports⟩
    · rw [indexOf, List.map_map]
      exact List.map_congr_left fun leg _ => (publish_id src t leg).1
    · rw [hindex es hes] at he
      obtain ⟨leg, hleg, rfl⟩ := List.mem_map.mp he
      rw [status_publish_iff, (publish_id src t leg).2]
      exact exists_congr fun column => (mem_written_iff hdistinct hleg).symm
    · rw [hindex es hes]
      exact load_normalise lower h

end

/-- A plan of one leg. -/
def onePlan : List Leg := [{ id := "linux-py".toList, backend := "py".toList }]

theorem known_of_ok (s : Status) (h : some Status.ok = some s) : s.known = true :=
  Option.some.inj h ▸ rfl

/-- The artifact of a leg that ran over VXI-11 and says that it is fine. -/
def oneArtifact (results : List Result) : Artifact where
  manifest := some { id := "linux-py".toList, status := some .ok, known := known_of_ok }
  reports := .ofList [("vxi11.json".toList,
    .merged [{ label := some "PyVISA-py".toList, results }])]

def oneDownload (results : List Result) : Downloads where
  nested := .ofList [("linux-py".toList, oneArtifact results)]

/-- A plan of two legs. -/
def twoPlan : List Leg := onePlan ++ [{ id := "linux-ni".toList, backend := "ni".toList }]

/-- Both of them report a pass. -/
def twoDownload : Downloads :=
  let artifact := oneArtifact [{ name := "smoke: idn".toList, outcome := .pass }]
  { nested := .ofList [("linux-py".toList, artifact), ("linux-ni".toList, artifact)] }

theorem indexComplete_onePass :
    ∃ out, normalise twoPlan twoDownload .vxi11 ∅ = some out ∧
      IndexComplete id twoPlan twoDownload .vxi11 out := by
  have hdistinct : (twoPlan.map Leg.id).Nodup := by decide
  refine ⟨_, rfl, (indexComplete_iff id hdistinct rfl).mpr fun leg hleg root hroot _ _ => ?_⟩
  have hroots : ∀ leg ∈ twoPlan, leg.id ≠ "index".toList ∧ legRoot twoDownload leg.id =
      some (oneArtifact [{ name := "smoke: idn".toList, outcome := .pass }]) := by
    intro leg hleg
    rcases List.mem_cons.mp hleg with rfl | hleg
    · exact ⟨by decide, rfl⟩
    · rw [List.mem_singleton.mp hleg]
      exact ⟨by decide, rfl⟩
  obtain ⟨hname, hartifact⟩ := hroots leg hleg
  rw [hartifact] at hroot
  cases hroot
  exact ⟨⟨_, List.mem_singleton.mpr rfl, _, List.mem_cons_self, List.cons_ne_nil _ _⟩, hname⟩

/-- Every script wrote its report on the way out, before any check had run. -/
theorem not_indexComplete_noResult :
    ∃ out, normalise onePlan (oneDownload []) .vxi11 ∅ = some out ∧
      ¬ IndexComplete id onePlan (oneDownload []) .vxi11 out := by
  have hdistinct : (onePlan.map Leg.id).Nodup := by decide
  refine ⟨_, rfl, fun hcomplete => ?_⟩
  have hreports := (loaded_nonempty_iff id hdistinct rfl).mp hcomplete.nonempty
  obtain ⟨⟨f, hf, hresult⟩, -⟩ := hreports _ List.mem_cons_self (oneArtifact []) rfl rfl
    ⟨.merged [{ label := some "PyVISA-py".toList, results := [] }], List.mem_singleton.mpr rfl,
      List.cons_ne_nil _ _⟩
  rw [List.mem_singleton.mp hf] at hresult
  obtain ⟨c, hc, hne⟩ := hresult
  rw [List.mem_singleton.mp hc] at hne
  exact hne rfl

end TestGear.Ci
