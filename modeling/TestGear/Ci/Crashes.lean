import TestGear.Ci.Verdict

/-!
# TestGear.Ci.Crashes

Which scripts crashed, as `leg_status.py` and `ci_status.py` see it in one map
of exit codes.  `ci_status` tests every code it walks past
(`mem_crashes_ciStatus`); `leg_status` flattens the map to one code for each
script and transport and tests that.  With several columns in a leg the last one
to record a script decides, so the two agree just when it never hides what an
earlier one recorded (`namesAlike_iff`).
-/

namespace TestGear.Ci

/-- Some column recorded a code like this for the script and transport. -/
def Recorded (exitCodes : Dict Text ExitCodes) (p : Option Int → Bool) (named : Text) : Prop :=
  ∃ rc, (named, rc) ∈ namedExits exitCodes ∧ p rc = true

/-- The code of the last column that recorded the script and transport. -/
def lastRecorded (exitCodes : Dict Text ExitCodes) (named : Text) : Option (Option Int) :=
  (namedExits exitCodes).reverse.lookup named

/-- These directories have the leg, with these exit codes. -/
structure IndexedAs (dirs : List (Dict Text OutFile)) (leg : Text) (exitCodes : Dict Text ExitCodes) :
    Prop where
  listed : ∃ e ∈ indexEntries dirs, e.id = leg
  codes : ∀ e ∈ indexEntries dirs, e.id = leg → e.exitCodes = exitCodes

/-- The two tools name the same crashes, those that some column recorded, and a
leg is flaky if some column recorded a lost target. -/
structure NamesAlike (reports : List Text) (exitCodes : Dict Text ExitCodes)
    (dirs : List (Dict Text OutFile)) (leg : Text) : Prop where
  same : ∀ named, named ∈ (classify reports exitCodes).errors.map ScriptError.script ↔
    (leg, named) ∈ (ciStatus dirs).crashes.keys
  crashes : ∀ named, (leg, named) ∈ (ciStatus dirs).crashes.keys ↔
    Recorded exitCodes ourBug named
  flaky : (classify reports exitCodes).flaky = true ↔ ∃ named, Recorded exitCodes lostTarget named

/-- What an earlier column recorded is not hidden by the last one. -/
structure NothingHidden (exitCodes : Dict Text ExitCodes) : Prop where
  crash : ∀ named, Recorded exitCodes ourBug named →
    ∃ rc, lastRecorded exitCodes named = some rc ∧ ourBug rc = true
  lost : (∃ named, Recorded exitCodes lostTarget named) →
    ∃ named rc, lastRecorded exitCodes named = some rc ∧ lostTarget rc = true

/-! ## `leg_status.py` -/

theorem get?_flatten (exitCodes : Dict Text ExitCodes) (named : Text) :
    (flatten exitCodes).get? named = lastRecorded exitCodes named := Dict.get?_ofList _ _

theorem recorded_of_last {exitCodes : Dict Text ExitCodes} {p : Option Int → Bool} {named : Text}
    {rc : Option Int} (h : lastRecorded exitCodes named = some rc) (hp : p rc = true) :
    Recorded exitCodes p named :=
  ⟨rc, Dict.mem_of_get?_ofList ((get?_flatten exitCodes named).trans h), hp⟩

theorem mem_errors_classify (reports : List Text) (exitCodes : Dict Text ExitCodes) (named : Text) :
    named ∈ (classify reports exitCodes).errors.map ScriptError.script ↔
      ∃ rc, lastRecorded exitCodes named = some rc ∧ ourBug rc = true := by
  have herrors : (classify reports exitCodes).errors = crashed exitCodes := by
    unfold classify
    split <;> rfl
  rw [herrors, mem_crashed, get?_flatten]

theorem flaky_classify (reports : List Text) (exitCodes : Dict Text ExitCodes) :
    (classify reports exitCodes).flaky = true ↔
      ∃ named rc, lastRecorded exitCodes named = some rc ∧ lostTarget rc = true := by
  have hflaky : (classify reports exitCodes).flaky =
      (flatten exitCodes).values.any lostTarget := by
    unfold classify
    split <;> rfl
  rw [hflaky, List.any_eq_true]
  simp only [Dict.mem_values_iff, get?_flatten]
  constructor
  · rintro ⟨rc, ⟨named, hlast⟩, hlost⟩
    exact ⟨named, rc, hlast, hlost⟩
  · rintro ⟨named, rc, hlast, hlost⟩
    exact ⟨rc, ⟨named, hlast⟩, hlost⟩

/-! ## `ci_status.py` -/

/-- The crashes of a leg are those that some column recorded. -/
theorem mem_crashes_ciStatus {dirs : List (Dict Text OutFile)} {leg : Text}
    {exitCodes : Dict Text ExitCodes} (h : IndexedAs dirs leg exitCodes) (named : Text) :
    (leg, named) ∈ (ciStatus dirs).crashes.keys ↔ Recorded exitCodes ourBug named := by
  have hkeys : (leg, named) ∈ (ciStatus dirs).crashes.keys ↔
      ∃ p ∈ (indexEntries dirs).flatMap Entry.exits, ourBug p.2 = true ∧ p.1 = (leg, named) := by
    simp only [ciStatus, Dict.mem_keys_ofList, List.mem_map, List.mem_filter, and_assoc]
  rw [hkeys]
  constructor
  · rintro ⟨p, hp, hbug, hname⟩
    obtain ⟨e, he, hexit⟩ := List.mem_flatMap.mp hp
    obtain ⟨⟨n, rc⟩, hrecorded, rfl⟩ := List.mem_map.mp hexit
    obtain ⟨hid, rfl⟩ := Prod.mk.inj hname
    rw [h.codes e he hid] at hrecorded
    exact ⟨rc, hrecorded, hbug⟩
  · rintro ⟨rc, hrecorded, hbug⟩
    obtain ⟨e, he, hid⟩ := h.listed
    rw [← h.codes e he hid] at hrecorded
    refine ⟨((e.id, named), rc), List.mem_flatMap.mpr ⟨e, he, ?_⟩, hbug, by rw [hid]⟩
    exact List.mem_map.mpr ⟨(named, rc), hrecorded, rfl⟩

/-- **The same crashes**: the tools agree on a map of exit codes just when no
column hides what an earlier one recorded. -/
theorem namesAlike_iff {dirs : List (Dict Text OutFile)} {leg : Text}
    {exitCodes : Dict Text ExitCodes} (h : IndexedAs dirs leg exitCodes) (reports : List Text) :
    NamesAlike reports exitCodes dirs leg ↔ NothingHidden exitCodes := by
  constructor
  · intro hnames
    refine ⟨fun named hrecorded => ?_, fun hlost => ?_⟩
    · rw [← mem_errors_classify reports, hnames.same, hnames.crashes]
      exact hrecorded
    · rw [← flaky_classify reports, hnames.flaky]
      exact hlost
  · intro hhidden
    refine ⟨fun named => ?_, mem_crashes_ciStatus h, ?_⟩
    · rw [mem_errors_classify, mem_crashes_ciStatus h]
      constructor
      · rintro ⟨rc, hlast, hbug⟩
        exact recorded_of_last hlast hbug
      · exact hhidden.crash named
    · rw [flaky_classify]
      constructor
      · rintro ⟨named, rc, hlast, hlost⟩
        exact ⟨named, recorded_of_last hlast hlost⟩
      · exact hhidden.lost

/-- One script over one transport, with the codes two columns recorded for it. -/
def twoColumns (first second : Option Int) : Dict Text ExitCodes :=
  .ofList [(Transport.vxi11.exitFile,
    .ofList [("NI".toList, .ofList [("01_smoke.py".toList, first)]),
      ("PyVISA-py".toList, .ofList [("01_smoke.py".toList, second)])])]

/-- An index that has them. -/
def twoColumnIndex (first second : Option Int) : Dict Text OutFile :=
  .ofList [(indexFile, .index
    [{ id := "linux".toList, backend := "both".toList, file := "linux.json".toList,
       exitCodes := twoColumns first second }])]

theorem indexedAs_twoColumns (first second : Option Int) :
    IndexedAs [twoColumnIndex first second] "linux".toList (twoColumns first second) := by
  have hentries : indexEntries [twoColumnIndex first second] =
      [{ id := "linux".toList, backend := "both".toList, file := "linux.json".toList,
         exitCodes := twoColumns first second }] := rfl
  refine ⟨?_, ?_⟩
  · rw [hentries]
    exact ⟨_, List.mem_singleton_self _, rfl⟩
  · rw [hentries]
    intro e he _
    rw [List.mem_singleton.mp he]

/-- A crash in the last column is hidden by nothing. -/
theorem namesAlike_twoColumns :
    NamesAlike [] (twoColumns (some 0) (some 2)) [twoColumnIndex (some 0) (some 2)]
      "linux".toList := by
  have hnamed : namedExits (twoColumns (some 0) (some 2)) =
      [("01_smoke.py [vxi11]".toList, some 0), ("01_smoke.py [vxi11]".toList, some 2)] := by
    decide +kernel
  refine (namesAlike_iff (indexedAs_twoColumns _ _) []).mpr ⟨?_, ?_⟩
  · rintro named ⟨rc, hmem, hbug⟩
    rw [hnamed] at hmem
    have hname : named = "01_smoke.py [vxi11]".toList := by
      simp only [List.mem_cons, Prod.mk.injEq, List.not_mem_nil, or_false] at hmem
      exact hmem.elim And.left And.left
    subst hname
    exact ⟨some 2, by decide +kernel, rfl⟩
  · rintro ⟨named, rc, hmem, hlost⟩
    rw [hnamed] at hmem
    simp only [List.mem_cons, Prod.mk.injEq, List.not_mem_nil, or_false] at hmem
    obtain ⟨-, rfl⟩ | ⟨-, rfl⟩ := hmem <;> cases hlost

/-- A crash in the first column, and a second that ran: one tool names it and the
other does not. -/
theorem firstColumn_hidden :
    ¬ NamesAlike [] (twoColumns (some 2) (some 0)) [twoColumnIndex (some 2) (some 0)]
      "linux".toList := by
  intro hnames
  have hlisted : ("linux".toList, "01_smoke.py [vxi11]".toList) ∈
      (ciStatus [twoColumnIndex (some 2) (some 0)]).crashes.keys := by
    decide +kernel
  have hnone : (classify [] (twoColumns (some 2) (some 0))).errors = [] := by decide +kernel
  have hnamed := (hnames.same _).mpr hlisted
  rw [hnone] at hnamed
  exact List.not_mem_nil hnamed

end TestGear.Ci
