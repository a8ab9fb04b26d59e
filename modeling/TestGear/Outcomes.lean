import TestGear.Aggregate

/-!
# TestGear.Outcomes

`outcomes.py`: two runs of the suite, each stripped to what every check came
to, and what changed between them.

The five lists of a `Diff` are five comprehensions over the keys.  A key stands
in them once if the runs differ about it and not at all if they do not
(`count_listed`), and with the runs exchanged they are the same lists under
their other names (`diff_swap`).

* `diff_accounts` — both, and what `compare` counts.
-/

namespace TestGear.Outcomes

open Aggregate

/-- Check key to outcome. -/
abbrev Checks := Dict Text Outcome

/-- Label to outcomes. -/
abbrev Run := Dict Text Checks

def word : Outcome → Text
  | .pass => "PASS".toList
  | .fail => "FAIL".toList
  | .skip => "SKIP".toList
  | .other word => word

/-! ## Loading a run -/

/-- Check key to outcome, joined on the same key the matrix joins on. -/
def outcomes (column : Column) : Checks :=
  .ofList (column.results.map fun r => (r.keyOf, r.outcome))

/-- `aggregate.label`. -/
def labelOf (column : Column) : Text :=
  match column.label with
  | some (c :: cs) => c :: cs
  | _ => (column.context.get? "backend".toList).getD "?".toList

/-- One turn of the loop of `load_run`.  A column that did not run is present
and empty. -/
def addColumn (run : Run) (column : Column) : Run :=
  let checks := (run.get? (labelOf column)).getD ∅
  run.set (labelOf column)
    (if column.status = .ok then checks.update (outcomes column).items else checks)

/-- Label to outcomes, across every column. -/
def loadRun (columns : List Column) : Run := columns.foldl addColumn ∅

/-! ## Comparing two runs -/

def regressions : List (Outcome × Outcome) := [(.pass, .fail), (.pass, .skip)]

/-- What changed under one label. -/
structure Diff where
  regressed : List (Text × Outcome × Outcome)
  fixed : List Text
  other : List (Text × Outcome × Outcome)
  appeared : List Text
  vanished : List Text
deriving DecidableEq

/-- `(k, a[k], b[k]) for k in sorted(a) if k in b and p(a[k], b[k])`. -/
def inBoth (a b : Checks) (p : Outcome → Outcome → Bool) : List (Text × Outcome × Outcome) :=
  a.sortedKeys.filterMap fun k =>
    match a.get? k, b.get? k with
    | some x, some y => if p x y then some (k, x, y) else none
    | _, _ => none

/-- `a` is what stood before, `b` what stands now. -/
def diff (a b : Checks) : Diff where
  regressed := inBoth a b fun x y => (x, y) ∈ regressions
  fixed := (inBoth a b fun x y => x ≠ .pass && y = .pass).map Prod.fst
  other := inBoth a b fun x y => x ≠ y && (x, y) ∉ regressions && y ≠ .pass
  appeared := b.sortedKeys.filter fun k => !a.keys.contains k
  vanished := a.sortedKeys.filter fun k => !b.keys.contains k

def Diff.count (d : Diff) : Nat :=
  d.regressed.length + d.fixed.length + d.other.length + d.appeared.length + d.vanished.length

/-- The rows of one title, if there are any. -/
def titled (title : Text) (rows : List Text) : List Text :=
  if rows.isEmpty then []
  else ("-- ".toList ++ title ++ " (".toList ++ natText rows.length ++ ")".toList) :: rows

def moveRow : Text × Outcome × Outcome → Text
  | (k, x, y) => word x ++ " -> ".toList ++ word y ++ "\t".toList ++ k

def outcomeRow (d : Checks) (k : Text) : Text :=
  ((d.get? k).map word).getD [] ++ "\t".toList ++ k

def summary (a b : Checks) : Text :=
  let d := diff a b
  natText d.regressed.length ++ " regressed, ".toList ++ natText d.fixed.length ++
    " fixed, ".toList ++ natText d.other.length ++ " changed otherwise, ".toList ++
    natText d.appeared.length ++ " new, ".toList ++ natText d.vanished.length ++ " gone; ".toList ++
    natText (a.keys.filter b.keys.contains).length ++ " checks in both".toList

/-- What is printed under one label that is in both runs. -/
def labelLines (label : Text) (a b : Checks) : List Text :=
  let d := diff a b
  ["== ".toList ++ label ++ " ==".toList] ++
    titled "regressed".toList (d.regressed.map moveRow) ++
    titled "fixed".toList (d.fixed.map fun k => "PASS\t".toList ++ k) ++
    titled "changed".toList (d.other.map moveRow) ++
    titled "new checks".toList (d.appeared.map (outcomeRow b)) ++
    titled "gone".toList (d.vanished.map (outcomeRow a)) ++ [summary a b, []]

/-- `sorted(set(now) | set(before))`. -/
def labels (now before : Run) : List Text := (now.keys ++ before.keys).dedup.mergeSort (· ≤ ·)

/-- One turn of the loop of `compare`. -/
def compareLabel (now before : Run) (st : List Text × Nat) (label : Text) : List Text × Nat :=
  match before.get? label, now.get? label with
  | none, _ => (st.1 ++ ["== ".toList ++ label ++ ": not in the earlier run ==".toList], st.2)
  | some _, none => (st.1 ++ ["== ".toList ++ label ++ ": not in this run ==".toList], st.2)
  | some a, some b => (st.1 ++ labelLines label a b, st.2 + (diff a b).count)

/-- What changed, line by line, and how much. -/
def compare (now before : Run) : List Text × Nat :=
  (labels now before).foldl (compareLabel now before) ([], 0)

/-! ## One label -/

/-- The lists a key is put in. -/
structure Diff.Sorts (d : Diff) (a b : Checks) : Prop where
  regressed : ∀ k x y, (k, x, y) ∈ d.regressed ↔
    a.get? k = some x ∧ b.get? k = some y ∧ x = .pass ∧ (y = .fail ∨ y = .skip)
  fixed : ∀ k, k ∈ d.fixed ↔ ∃ x, a.get? k = some x ∧ b.get? k = some .pass ∧ x ≠ .pass
  other : ∀ k x y, (k, x, y) ∈ d.other ↔
    a.get? k = some x ∧ b.get? k = some y ∧ x ≠ y ∧ y ≠ .pass ∧ (x, y) ∉ regressions
  appeared : ∀ k, k ∈ d.appeared ↔ a.get? k = none ∧ ∃ y, b.get? k = some y
  vanished : ∀ k, k ∈ d.vanished ↔ b.get? k = none ∧ ∃ x, a.get? k = some x

/-- The rows of the five lists, as they are printed. -/
def rows (a b : Checks) : List Text :=
  let d := diff a b
  d.regressed.map moveRow ++ d.fixed.map (fun k => "PASS\t".toList ++ k) ++ d.other.map moveRow ++
    d.appeared.map (outcomeRow b) ++ d.vanished.map (outcomeRow a)

/-- Every key that stands in one of the five lists, as often as it does. -/
def Diff.listed (d : Diff) : List Text :=
  d.regressed.map Prod.fst ++ d.fixed ++ d.other.map Prod.fst ++ d.appeared ++ d.vanished

section

variable {a b : Checks} {p q : Outcome → Outcome → Bool}

/-- A pair is listed just when both runs have the check, with outcomes that `p`
takes. -/
theorem mem_inBoth {k : Text} {x y : Outcome} :
    (k, x, y) ∈ inBoth a b p ↔ a.get? k = some x ∧ b.get? k = some y ∧ p x y = true := by
  simp only [inBoth, List.mem_filterMap, Dict.mem_sortedKeys, Dict.mem_keys_iff]
  constructor
  · rintro ⟨j, -, hj⟩
    split at hj
    · next hx hy =>
        split at hj
        · next hp =>
            cases hj
            exact ⟨hx, hy, hp⟩
        · cases hj
    · cases hj
  · rintro ⟨hx, hy, hp⟩
    refine ⟨k, ⟨x, hx⟩, ?_⟩
    simp only [hx, hy, hp, if_true]

/-- So it is with the names. -/
theorem mem_map_inBoth {k : Text} :
    k ∈ (inBoth a b p).map Prod.fst ↔
      ∃ x y, a.get? k = some x ∧ b.get? k = some y ∧ p x y = true := by
  simp only [List.mem_map, Prod.exists, mem_inBoth]
  constructor
  · rintro ⟨_, x, y, h, rfl⟩
    exact ⟨x, y, h⟩
  · rintro ⟨x, y, h⟩
    exact ⟨k, x, y, h, rfl⟩

/-- The keys of a comprehension are sorted keys, some left out. -/
theorem map_inBoth_sublist (a b : Checks) (p : Outcome → Outcome → Bool) :
    ((inBoth a b p).map Prod.fst).Sublist a.sortedKeys := by
  rw [inBoth]
  induction a.sortedKeys with
  | nil => exact .slnil
  | cons k ks ih =>
      rw [List.filterMap_cons]
      split
      · exact ih.cons k
      · next e he =>
          have hk : e.1 = k := by
            split at he
            · split at he
              · cases he
                rfl
              · cases he
            · cases he
          rw [List.map_cons, hk]
          exact ih.cons_cons k

/-- A name is listed once or not at all. -/
theorem count_map_inBoth (a b : Checks) (p : Outcome → Outcome → Bool) (k : Text) :
    ((inBoth a b p).map Prod.fst).count k =
      match a.get? k, b.get? k with
      | some x, some y => if p x y then 1 else 0
      | _, _ => 0 := by
  have hnodup := (map_inBoth_sublist a b p).nodup a.nodup_sortedKeys
  have hmem := @mem_map_inBoth a b p k
  rw [hnodup.count]
  cases ha : a.get? k <;> cases hb : b.get? k <;> simp_all

/-- So is a name that only one run has. -/
theorem count_filter_sortedKeys (a b : Checks) (k : Text) :
    (a.sortedKeys.filter fun k => !b.keys.contains k).count k =
      if (a.get? k).isSome && (b.get? k).isNone then 1 else 0 := by
  have hmem : k ∈ a.sortedKeys.filter (fun k => !b.keys.contains k) ↔
      (a.get? k).isSome && (b.get? k).isNone := by
    rw [List.mem_filter, Dict.mem_sortedKeys, List.contains_eq_mem,
      Bool.not_eq_true', decide_eq_false_iff_not, ← Dict.get?_eq_none_iff,
      Dict.mem_keys_iff, ← Option.isSome_iff_exists, ← Option.isNone_iff_eq_none, Bool.and_eq_true]
  rw [(a.nodup_sortedKeys.filter _).count]
  simp only [hmem]

/-- It is listed just when the other run has not got it. -/
theorem mem_filter_sortedKeys {k : Text} : k ∈ a.sortedKeys.filter (fun k => !b.keys.contains k) ↔
    b.get? k = none ∧ ∃ x, a.get? k = some x := by
  rw [List.mem_filter, Dict.mem_sortedKeys, List.contains_eq_mem, Bool.not_eq_true',
    decide_eq_false_iff_not, ← Dict.get?_eq_none_iff, Dict.mem_keys_iff, and_comm]

/-- **Every list** holds what its title says. -/
theorem sorts_diff (a b : Checks) : (diff a b).Sorts a b where
  regressed k x y := by
    simp only [diff, mem_inBoth, regressions, List.mem_cons, List.not_mem_nil, or_false, Prod.mk.injEq,
      decide_eq_true_eq, ← and_or_left]
  fixed k := by
    simp only [diff, mem_map_inBoth, Bool.and_eq_true, decide_eq_true_eq]
    constructor
    · rintro ⟨x, y, hx, hy, hne, rfl⟩
      exact ⟨x, hx, hy, hne⟩
    · rintro ⟨x, hx, hy, hne⟩
      exact ⟨x, _, hx, hy, hne, rfl⟩
  other k x y := by
    simp only [diff, mem_inBoth, Bool.and_eq_true, decide_eq_true_eq, and_assoc]
    exact and_congr_right fun _ => and_congr_right fun _ => and_congr_right fun _ => and_comm
  appeared k := mem_filter_sortedKeys
  vanished k := mem_filter_sortedKeys

/-- An outcome that stays is no regression. -/
theorem not_regression_self (x : Outcome) : (x, x) ∉ regressions := by
  cases x <;> simp [regressions]

/-- **Every key once**: a key the two sides differ about is listed in one place,
and any other nowhere. -/
theorem count_listed (a b : Checks) (k : Text) :
    (diff a b).listed.count k = if a.get? k = b.get? k then 0 else 1 := by
  simp only [Diff.listed, diff, List.count_append, count_map_inBoth, count_filter_sortedKeys]
  cases ha : a.get? k with
  | none => cases hb : b.get? k <;> simp
  | some x =>
      cases hb : b.get? k with
      | none => simp
      | some y =>
          have hself := not_regression_self y
          by_cases hxy : x = y
          · subst hxy
            simp [hself]
          -- fixed is where `y` passes; elsewhere a pair is a regression or it is not
          by_cases hy : y = .pass
          · simp [hy, regressions, hy ▸ hxy]
          · by_cases hr : (x, y) ∈ regressions <;> simp [hy, hr, hxy]

end

/-! ## The runs exchanged -/

/-- One of the words the harness writes. -/
def IsWritten (o : Outcome) : Prop := o = .pass ∨ o = .fail ∨ o = .skip

def Written (d : Checks) : Prop := ∀ k o, d.get? k = some o → IsWritten o

/-- What a diff becomes when the runs are exchanged. -/
structure Diff.Swapped (d e : Diff) : Prop where
  regressed : e.regressed.map Prod.fst = d.fixed
  fixed : e.fixed = d.regressed.map Prod.fst
  other : e.other = d.other.map fun t => (t.1, t.2.2, t.2.1)
  appeared : e.appeared = d.vanished
  vanished : e.vanished = d.appeared

section

variable {a b : Checks} {p q : Outcome → Outcome → Bool}

/-- Only the keys of both sides are looked at. -/
theorem inBoth_eq_filter (a b : Checks) (p : Outcome → Outcome → Bool) :
    inBoth a b p = (a.sortedKeys.filter (· ∈ b.keys)).filterMap fun k =>
      match a.get? k, b.get? k with
      | some x, some y => if p x y then some (k, x, y) else none
      | _, _ => none := by
  rw [List.filterMap_filter, inBoth]
  congr 1
  funext k
  by_cases hk : k ∈ b.keys
  · simp [hk]
  · have hb : b.get? k = none := Dict.get?_eq_none_iff.mpr hk
    simp only [hk, hb, decide_false, Bool.false_eq_true, if_false]
    cases a.get? k <;> rfl

/-- With the runs exchanged, the pairs are. -/
theorem inBoth_swap (a b : Checks) (p : Outcome → Outcome → Bool) :
    inBoth b a p = (inBoth a b fun x y => p y x).map fun t => (t.1, t.2.2, t.2.1) := by
  have hkeys : b.sortedKeys.filter (· ∈ a.keys) = a.sortedKeys.filter (· ∈ b.keys) :=
    Dict.filter_sortedKeys_comm b a (by simp) (by simp)
  rw [inBoth_eq_filter, inBoth_eq_filter, hkeys, List.map_filterMap]
  congr 1
  funext k
  cases a.get? k <;> cases b.get? k <;> try rfl
  next x y => by_cases hp : p y x <;> simp [hp]

/-- Only outcomes that are written can come up. -/
theorem inBoth_congr (ha : Written a) (hb : Written b)
    (h : ∀ x y, IsWritten x → IsWritten y → p x y = q x y) : inBoth a b p = inBoth a b q := by
  rw [inBoth, inBoth]
  congr 1
  funext k
  cases hx : a.get? k with
  | none => rfl
  | some x =>
      cases hy : b.get? k with
      | none => rfl
      | some y => simp only [h x y (ha k x hx) (hb k y hy)]

/-- **Exchanged runs**: what regressed is fixed and what is new is gone. -/
theorem diff_swap (ha : Written a) (hb : Written b) : (diff a b).Swapped (diff b a) where
  regressed := by
    show (inBoth b a _).map Prod.fst = (inBoth a b _).map Prod.fst
    rw [inBoth_swap, List.map_map]
    refine congrArg (List.map Prod.fst) (inBoth_congr ha hb fun x y hx hy => ?_)
    rcases hx with rfl | rfl | rfl <;> rcases hy with rfl | rfl | rfl <;> decide
  fixed := by
    show (inBoth b a _).map Prod.fst = (inBoth a b _).map Prod.fst
    rw [inBoth_swap, List.map_map]
    refine congrArg (List.map Prod.fst) (inBoth_congr ha hb fun x y hx hy => ?_)
    rcases hx with rfl | rfl | rfl <;> rcases hy with rfl | rfl | rfl <;> decide
  other := by
    show inBoth b a _ = (inBoth a b _).map _
    rw [inBoth_swap]
    refine congrArg (List.map _) (inBoth_congr ha hb fun x y hx hy => ?_)
    rcases hx with rfl | rfl | rfl <;> rcases hy with rfl | rfl | rfl <;> decide
  appeared := rfl
  vanished := rfl

end

/-! ## What is counted -/

/-- The keys the two sides differ about. -/
def differing (a b : Checks) : Finset Text :=
  (a.keys.toFinset ∪ b.keys.toFinset).filter fun k => a.get? k ≠ b.get? k

/-- A name is differing just when the runs differ on it. -/
theorem mem_differing {a b : Checks} {k : Text} : k ∈ differing a b ↔ a.get? k ≠ b.get? k := by
  simp only [differing, Finset.mem_filter, Finset.mem_union, List.mem_toFinset, and_iff_right_iff_imp]
  intro hne
  by_contra hnot
  rw [not_or, ← Dict.get?_eq_none_iff, ← Dict.get?_eq_none_iff] at hnot
  exact hne (hnot.1.trans hnot.2.symm)

/-- The lists have as many entries as there are differing names. -/
theorem count_diff (a b : Checks) : (diff a b).count = (differing a b).card := by
  have hlength : (diff a b).count = (diff a b).listed.length := by
    simp only [Diff.count, Diff.listed, List.length_append, List.length_map]
  have hnodup : (diff a b).listed.Nodup := by
    rw [List.nodup_iff_count_le_one]
    intro k
    rw [count_listed]
    split <;> omega
  have hset : (diff a b).listed.toFinset = differing a b := by
    ext k
    rw [List.mem_toFinset, mem_differing, ← List.count_pos_iff, count_listed]
    split <;> simp_all
  rw [hlength, ← List.toFinset_card_of_nodup hnodup, hset]

/-- The count adds up label by label. -/
theorem foldl_compareLabel (now before : Run) (ls : List Text) (st : List Text × Nat) :
    (ls.foldl (compareLabel now before) st).2 = st.2 + (ls.map fun label =>
      match before.get? label, now.get? label with
      | some a, some b => (differing a b).card
      | _, _ => 0).sum := by
  induction ls generalizing st with
  | nil => simp
  | cons l ls ih =>
      rw [List.foldl_cons, ih, List.map_cons, List.sum_cons, ← Nat.add_assoc]
      congr 1
      rw [compareLabel]
      cases before.get? l with
      | none => simp
      | some a =>
          cases now.get? l with
          | none => simp
          | some b => simp [count_diff]

/-- A title takes no row away. -/
theorem sublist_titled (title : Text) (rows : List Text) : rows.Sublist (titled title rows) := by
  rw [titled]
  split
  · next h => rw [List.isEmpty_iff.mp h]
  · exact .cons _ (.refl rows)

/-- The rows are printed, list by list. -/
theorem rows_sublist (label : Text) (a b : Checks) : (rows a b).Sublist (labelLines label a b) := by
  have hlists : (rows a b).Sublist (titled "regressed".toList ((diff a b).regressed.map moveRow) ++
      titled "fixed".toList ((diff a b).fixed.map fun k => "PASS\t".toList ++ k) ++
      titled "changed".toList ((diff a b).other.map moveRow) ++
      titled "new checks".toList ((diff a b).appeared.map (outcomeRow b)) ++
      titled "gone".toList ((diff a b).vanished.map (outcomeRow a))) :=
    ((((sublist_titled _ _).append (sublist_titled _ _)).append (sublist_titled _ _)).append
      (sublist_titled _ _)).append (sublist_titled _ _)
  refine hlists.trans ?_
  simp only [labelLines, List.append_assoc]
  refine .trans ?_ (List.sublist_append_right _ _)
  simp only [← List.append_assoc]
  exact List.sublist_append_left _ _

/-- A label's lines go behind those of the labels before it. -/
theorem lines_compareLabel (now before : Run) (st : List Text × Nat) (label : Text) :
    (compareLabel now before st label).1 = st.1 ++ (compareLabel now before ([], 0) label).1 := by
  rw [compareLabel, compareLabel]
  split <;> simp

/-- So the lines are those of the labels, in order. -/
theorem lines_foldl (now before : Run) (ls : List Text) (st : List Text × Nat) :
    (ls.foldl (compareLabel now before) st).1 =
      st.1 ++ ls.flatMap fun label => (compareLabel now before ([], 0) label).1 := by
  induction ls generalizing st with
  | nil => simp
  | cons l ls ih =>
      rw [List.foldl_cons, ih, lines_compareLabel, List.flatMap_cons, List.append_assoc]

/-- What is printed under a label of both runs. -/
theorem labelLines_infix {now before : Run} {label : Text} {a b : Checks}
    (ha : before.get? label = some a) (hb : now.get? label = some b) :
    labelLines label a b <:+: (compare now before).1 := by
  have hlabel : label ∈ labels now before := by
    have hkey : label ∈ now.keys := Dict.mem_keys_iff.mpr ⟨b, hb⟩
    simp [labels, hkey]
  have hlines : (compareLabel now before ([], 0) label).1 = labelLines label a b := by
    simp only [compareLabel, ha, hb, List.nil_append]
  obtain ⟨front, back, hsplit⟩ := List.append_of_mem hlabel
  rw [compare, lines_foldl, List.nil_append, hsplit, List.flatMap_append, List.flatMap_cons, hlines,
    ← List.append_assoc]
  exact ⟨_, _, rfl⟩

/-- The checks of a run under a label. -/
def checksOf (run : Run) (label : Text) : Checks := (run.get? label).getD ∅

/-- **The count** is the number of checks the runs differ about, over the labels
that are in both. -/
theorem count_compare (now before : Run) :
    (compare now before).2 = ∑ label ∈ now.keys.toFinset ∩ before.keys.toFinset,
      (differing (checksOf before label) (checksOf now label)).card := by
  have hnodup : (labels now before).Nodup :=
    (List.mergeSort_perm _ _).nodup_iff.mpr (List.nodup_dedup _)
  have hsub : now.keys.toFinset ∩ before.keys.toFinset ⊆ (labels now before).toFinset := by
    intro label hlabel
    rw [Finset.mem_inter, List.mem_toFinset] at hlabel
    simp [labels, hlabel.1]
  have hsum := List.sum_toFinset (fun label =>
    match before.get? label, now.get? label with
    | some a, some b => (differing a b).card
    | _, _ => 0) hnodup
  rw [compare, foldl_compareLabel, Nat.zero_add, ← hsum, ← Finset.sum_subset hsub]
  · refine Finset.sum_congr rfl fun label hlabel => ?_
    rw [Finset.mem_inter, List.mem_toFinset, List.mem_toFinset, Dict.mem_keys_iff,
      Dict.mem_keys_iff] at hlabel
    obtain ⟨⟨b, hb⟩, ⟨a, ha⟩⟩ := hlabel
    simp [checksOf, ha, hb]
  · intro label _ hnot
    rw [Finset.mem_inter, List.mem_toFinset, List.mem_toFinset, Dict.mem_keys_iff,
      Dict.mem_keys_iff] at hnot
    cases hb : before.get? label with
    | none => rfl
    | some a =>
        cases hn : now.get? label with
        | none => rfl
        | some b => exact absurd ⟨⟨b, hn⟩, ⟨a, hb⟩⟩ hnot

/-- Every outcome of a run is one the harness writes. -/
def Run.Written (run : Run) : Prop := ∀ label d, run.get? label = some d → Outcomes.Written d

/-- **A diff accounts for every check**: under a label of both runs a check they
differ about is listed in one place and any other nowhere, each list holds what
its title says and is printed row by row, exchanging the runs exchanges the
lists, and `compare` counts what is listed. -/
theorem diff_accounts {now before : Run} (hn : Run.Written now) (hb : Run.Written before) :
    (∀ label a b, before.get? label = some a → now.get? label = some b →
      (∀ k, (diff a b).listed.count k = if a.get? k = b.get? k then 0 else 1) ∧
        (diff a b).Sorts a b ∧
        (rows a b).Sublist (labelLines label a b) ∧ labelLines label a b <:+: (compare now before).1 ∧
        (diff a b).Swapped (diff b a)) ∧
    (compare now before).2 = ∑ label ∈ now.keys.toFinset ∩ before.keys.toFinset,
      (differing (checksOf before label) (checksOf now label)).card := by
  refine ⟨fun label a b ha hb' => ⟨count_listed a b, sorts_diff a b, rows_sublist label a b,
    labelLines_infix ha hb', ?_⟩, count_compare now before⟩
  exact diff_swap (hb label a ha) (hn label b hb')

/-- Written outcomes, updated with written ones. -/
theorem written_update {d : Checks} (h : Written d) {ps : List (Text × Outcome)}
    (hps : ∀ p ∈ ps, IsWritten p.2) : Written (d.update ps) := by
  intro k o ho
  rw [Dict.get?_update, Option.or_eq_some_iff] at ho
  rcases ho with hl | ⟨-, hd⟩
  · obtain ⟨pre, post, hps', -⟩ := List.lookup_eq_some_iff.mp hl
    exact hps (k, o) (List.mem_reverse.mp (by rw [hps']; simp))
  · exact h k o hd

/-- A column of written outcomes leaves a run of them. -/
theorem written_addColumn {run : Run} (h : Run.Written run) {column : Column}
    (hc : ∀ r ∈ column.results, IsWritten r.outcome) : Run.Written (addColumn run column) := by
  have hbefore : Written ((run.get? (labelOf column)).getD ∅) := by
    cases hl : run.get? (labelOf column) with
    | none => exact fun k o ho => by cases ho
    | some d => exact h _ d hl
  intro label d hd
  rw [addColumn, Dict.get?_set] at hd
  split at hd
  · cases hd
    split
    · refine written_update hbefore fun p hp => ?_
      obtain ⟨r, hr, hrp⟩ :=
        List.mem_map.mp (Dict.mem_of_get?_ofList (Dict.get?_eq_some_iff.mpr hp))
      rw [← congrArg Prod.snd hrp]
      exact hc r hr
    · exact hbefore
  · exact h label d hd

/-- A run loaded from columns says what the columns say. -/
theorem written_loadRun {columns : List Column}
    (h : ∀ c ∈ columns, ∀ r ∈ c.results, IsWritten r.outcome) : Run.Written (loadRun columns) := by
  have hfold (run : Run) (hrun : Run.Written run) : Run.Written (columns.foldl addColumn run) := by
    induction columns generalizing run with
    | nil => exact hrun
    | cons c cs ih =>
        exact ih (fun c' hc' => h c' (List.mem_cons_of_mem c hc')) _
          (written_addColumn hrun (h c List.mem_cons_self))
  exact hfold ∅ fun label d hd => by cases hd

/-- A run of three checks. -/
def earlier : Run := loadRun [{ label := some "py".toList, results :=
  [⟨"idn".toList, none, .pass, [], []⟩, ⟨"opc".toList, none, .skip, [], []⟩,
    ⟨"tst".toList, none, .fail, [], []⟩] }]

/-- The same later: one check now fails, one passes, one is gone and one is new. -/
def later : Run := loadRun [{ label := some "py".toList, results :=
  [⟨"idn".toList, none, .fail, [], []⟩, ⟨"opc".toList, none, .pass, [], []⟩,
    ⟨"rst".toList, none, .pass, [], []⟩] }]

theorem diff_accounts_later :
    (∀ label a b, earlier.get? label = some a → later.get? label = some b →
      (∀ k, (diff a b).listed.count k = if a.get? k = b.get? k then 0 else 1) ∧
        (diff a b).Sorts a b ∧
        (rows a b).Sublist (labelLines label a b) ∧ labelLines label a b <:+: (compare later earlier).1 ∧
        (diff a b).Swapped (diff b a)) ∧
    (compare later earlier).2 = ∑ label ∈ later.keys.toFinset ∩ earlier.keys.toFinset,
      (differing (checksOf earlier label) (checksOf later label)).card :=
  diff_accounts (written_loadRun (by simp [IsWritten])) (written_loadRun (by simp [IsWritten]))

end TestGear.Outcomes
