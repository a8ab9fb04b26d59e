import Mathlib

/-!
# TestGear.Dict

Dictionaries as the suite's language has them: they keep the order in which
their keys came, and assigning to a key that is there keeps its place and
loses the value it had.  `firstsBy` is the loop beside it that skips what a
set of keys has seen.

* `get?_ofList` — a comprehension keeps the last value of every key;
* `length_items_ofList_iff` — it keeps all of them just when no key comes twice;
* `map_firstsBy` — the loop keeps the first element of every key;
* `filter_sortedKeys_comm` — the keys two dictionaries share, sorted.

`AList` of the library puts an assigned key in front, which loses the order.
This module names nothing of the suite.
-/

namespace TestGear

/-- A dictionary: no key twice. -/
structure Dict (κ ν : Type*) where
  items : List (κ × ν)
  nodup : (items.map Prod.fst).Nodup

namespace Dict

section

variable {κ ν : Type*} [DecidableEq κ]

instance [DecidableEq ν] : DecidableEq (Dict κ ν) := fun d e =>
  decidable_of_iff (d.items = e.items) (by cases d; cases e; simp)

def assign (k : κ) (v : ν) : List (κ × ν) → List (κ × ν)
  | [] => [(k, v)]
  | p :: ps => if p.1 = k then (k, v) :: ps else p :: assign k v ps

/-- Looking in a list of pairs is looking at the first one first. -/
theorem lookup_cons_eq_if [BEq κ] [LawfulBEq κ] (j : κ) (p : κ × ν) (ps : List (κ × ν)) :
    (p :: ps).lookup j = if j = p.1 then some p.2 else ps.lookup j := by
  obtain ⟨k, v⟩ := p
  rw [List.lookup_cons]
  by_cases h : j = k
  · simp [h]
  · simp [h, beq_false_of_ne h]

/-- An assignment adds its key, and takes none away. -/
theorem mem_keys_assign {k j : κ} {v : ν} {ps : List (κ × ν)} :
    j ∈ (assign k v ps).map Prod.fst ↔ j = k ∨ j ∈ ps.map Prod.fst := by
  induction ps with
  | nil => simp [assign]
  | cons p ps ih =>
      unfold assign
      split
      · next h => simp [h]
      · simp only [List.map_cons, List.mem_cons, ih]
        tauto

/-- It leaves no key twice. -/
theorem nodup_assign {ps : List (κ × ν)} (h : (ps.map Prod.fst).Nodup) (k : κ) (v : ν) :
    ((assign k v ps).map Prod.fst).Nodup := by
  induction ps with
  | nil => simp [assign]
  | cons p ps ih =>
      rw [List.map_cons, List.nodup_cons] at h
      unfold assign
      split
      · next hk => exact List.nodup_cons.mpr ⟨hk ▸ h.1, h.2⟩
      · next hk =>
          rw [List.map_cons, List.nodup_cons, mem_keys_assign]
          exact ⟨fun hmem => hmem.elim hk h.1, ih h.2⟩

/-- An assigned value is found under its key, and only there. -/
theorem lookup_assign (k j : κ) (v : ν) (ps : List (κ × ν)) :
    (assign k v ps).lookup j = if j = k then some v else ps.lookup j := by
  induction ps with
  | nil => rw [assign, lookup_cons_eq_if]
  | cons p ps ih =>
      unfold assign
      split
      · next h =>
          rw [lookup_cons_eq_if, lookup_cons_eq_if, h]
          split <;> rfl
      · next h =>
          rw [lookup_cons_eq_if, lookup_cons_eq_if, ih]
          by_cases hj : j = p.1
          · rw [if_pos hj, if_pos hj, if_neg (hj ▸ h)]
          · rw [if_neg hj, if_neg hj]

/-- Assigning commutes with a map of the values. -/
theorem map_assign {μ : Type*} (f : ν → μ) (k : κ) (v : ν) (ps : List (κ × ν)) :
    (assign k v ps).map (Prod.map id f) = assign k (f v) (ps.map (Prod.map id f)) := by
  induction ps with
  | nil => rfl
  | cons p ps ih =>
      rw [List.map_cons, assign, assign, Prod.map_fst, id_eq]
      by_cases h : p.1 = k
      · rw [if_pos h, if_pos h]
        rfl
      · rw [if_neg h, if_neg h, List.map_cons, ih]

/-- A new key goes to the end. -/
theorem assign_of_notMem {k : κ} (v : ν) {ps : List (κ × ν)} (h : k ∉ ps.map Prod.fst) :
    assign k v ps = ps ++ [(k, v)] := by
  induction ps with
  | nil => rfl
  | cons p ps ih =>
      rw [List.map_cons, List.mem_cons, not_or] at h
      rw [assign, if_neg fun hk => h.1 hk.symm, ih h.2, List.cons_append]

instance : EmptyCollection (Dict κ ν) := ⟨[], List.nodup_nil⟩

/-- `d[k] = v`. -/
def set (d : Dict κ ν) (k : κ) (v : ν) : Dict κ ν := ⟨assign k v d.items, nodup_assign d.nodup k v⟩

/-- `d.get(k)`. -/
def get? (d : Dict κ ν) (k : κ) : Option ν := d.items.lookup k

def keys (d : Dict κ ν) : List κ := d.items.map Prod.fst

def values (d : Dict κ ν) : List ν := d.items.map Prod.snd

/-- `d.update(ps)`: the pairs are assigned in turn. -/
def update (d : Dict κ ν) (ps : List (κ × ν)) : Dict κ ν := ps.foldl (fun d p => d.set p.1 p.2) d

/-- A comprehension. -/
def ofList (ps : List (κ × ν)) : Dict κ ν := update ∅ ps

/-! ## What is found -/

@[simp] theorem get?_empty (k : κ) : (∅ : Dict κ ν).get? k = none := rfl

/-- Setting a key sets that key only. -/
theorem get?_set (d : Dict κ ν) (k j : κ) (v : ν) :
    (d.set k v).get? j = if j = k then some v else d.get? j := lookup_assign k j v d.items

/-- Where there is no key nothing is found. -/
theorem get?_eq_none_iff {d : Dict κ ν} {k : κ} : d.get? k = none ↔ k ∉ d.keys := by
  simp only [get?, keys, List.lookup_eq_none_iff, List.mem_map, not_exists, not_and]
  constructor
  · intro h p hp hk
    simpa [hk] using h p hp
  · intro h p hp
    simpa using fun hk => h p hp hk.symm

/-- A key is there just when something is found under it. -/
theorem mem_keys_iff {d : Dict κ ν} {k : κ} : k ∈ d.keys ↔ ∃ v, d.get? k = some v := by
  rw [← not_iff_not, ← get?_eq_none_iff, Option.eq_none_iff_forall_ne_some, not_exists]

/-- What is found under a key is the item with that key. -/
theorem get?_eq_some_iff {d : Dict κ ν} {k : κ} {v : ν} : d.get? k = some v ↔ (k, v) ∈ d.items := by
  obtain ⟨ps, hnodup⟩ := d
  show ps.lookup k = some v ↔ (k, v) ∈ ps
  induction ps with
  | nil => simp
  | cons p ps ih =>
      rw [List.map_cons, List.nodup_cons] at hnodup
      rw [lookup_cons_eq_if, List.mem_cons]
      by_cases hk : k = p.1
      · -- the key stands at the head, and nowhere behind it
        have hnot : (k, v) ∉ ps := fun hmem => hnodup.1 (hk ▸ List.mem_map_of_mem hmem)
        rw [if_pos hk, Option.some.injEq]
        constructor
        · intro h
          exact Or.inl (Prod.ext hk h.symm)
        · intro h
          exact (congrArg Prod.snd (h.resolve_right hnot)).symm
      · have hne : (k, v) ≠ p := fun h => hk (congrArg Prod.fst h)
        rw [if_neg hk, ih hnodup.2]
        simp [hne]

/-- A value is there just when it is found under some key. -/
theorem mem_values_iff {d : Dict κ ν} {v : ν} : v ∈ d.values ↔ ∃ k, d.get? k = some v := by
  simp [values, get?_eq_some_iff]

/-! ## Removing -/

/-- `d.remove(k)`. -/
def erase (d : Dict κ ν) (k : κ) : Dict κ ν where
  items := d.items.filter (·.1 ≠ k)
  nodup := (List.filter_sublist.map Prod.fst).nodup d.nodup

/-- `d.retain(f)`, where `f` may change the value it keeps. -/
def retain (f : κ → ν → Option ν) (d : Dict κ ν) : Dict κ ν where
  items := d.items.filterMap fun p => (f p.1 p.2).map (p.1, ·)
  nodup := by
    have hsub (ps : List (κ × ν)) :
        ((ps.filterMap fun p => (f p.1 p.2).map (p.1, ·)).map Prod.fst).Sublist (ps.map Prod.fst) := by
      induction ps with
      | nil => simp
      | cons p ps ih =>
          rw [List.filterMap_cons]
          cases f p.1 p.2 with
          | none => exact ih.cons p.1
          | some v => exact ih.cons_cons p.1
    exact (hsub d.items).nodup d.nodup

/-- Leaving a key out leaves out that key only. -/
theorem lookup_filter_ne [BEq κ] [LawfulBEq κ] (ps : List (κ × ν)) (k j : κ) :
    (ps.filter (·.1 ≠ k)).lookup j = if j = k then none else ps.lookup j := by
  induction ps with
  | nil => simp
  | cons p ps ih =>
      by_cases hp : p.1 = k
      · rw [List.filter_cons_of_neg (by simpa using hp), ih, lookup_cons_eq_if]
        grind
      · rw [List.filter_cons_of_pos (by simpa using hp), lookup_cons_eq_if, lookup_cons_eq_if, ih]
        grind

/-- So does erasing it. -/
theorem get?_erase (d : Dict κ ν) (k j : κ) :
    (d.erase k).get? j = if j = k then none else d.get? j := lookup_filter_ne d.items k j

/-- What is retained is found as the function leaves it. -/
theorem get?_retain (f : κ → ν → Option ν) (d : Dict κ ν) (k : κ) :
    (d.retain f).get? k = (d.get? k).bind (f k) := by
  ext v
  rw [get?_eq_some_iff, Option.bind_eq_some_iff]
  simp only [retain, List.mem_filterMap, Option.map_eq_some_iff, Prod.mk.injEq, get?_eq_some_iff]
  constructor
  · rintro ⟨⟨j, w⟩, hmem, u, hu, rfl, rfl⟩
    exact ⟨w, hmem, hu⟩
  · rintro ⟨w, hmem, hw⟩
    exact ⟨(k, w), hmem, v, hw, rfl, rfl⟩

/-- In an empty dictionary nothing is found. -/
theorem isEmpty_items_iff {d : Dict κ ν} : d.items.isEmpty = true ↔ ∀ k, d.get? k = none := by
  simp only [get?_eq_none_iff, ← List.eq_nil_iff_forall_not_mem, keys, List.map_eq_nil_iff,
    List.isEmpty_iff]

/-- A key that is there is overwritten in its place. -/
theorem length_assign_of_mem {k : κ} (v : ν) {ps : List (κ × ν)} (h : k ∈ ps.map Prod.fst) :
    (assign k v ps).length = ps.length := by
  induction ps with
  | nil => cases h
  | cons p ps ih =>
      unfold assign
      split
      · rfl
      · next hk =>
          rw [List.map_cons, List.mem_cons] at h
          rw [List.length_cons, List.length_cons, ih (h.resolve_left fun heq => hk heq.symm)]

/-- A new key makes one item more. -/
theorem length_items_set_of_notMem {d : Dict κ ν} {k : κ} (h : k ∉ d.keys) (v : ν) :
    (d.set k v).items.length = d.items.length + 1 := by
  show (assign k v d.items).length = _
  rw [assign_of_notMem v h, List.length_append, List.length_singleton]

/-- Erasing makes no more of them. -/
theorem length_items_erase_le (d : Dict κ ν) (k : κ) : (d.erase k).items.length ≤ d.items.length :=
  List.length_filter_le _ _

/-! ## Sorted items -/

/-- `sorted(d.items())`: no key is there twice, so values are never compared. -/
def sortBy (le : κ → κ → Bool) (d : Dict κ ν) : Dict κ ν where
  items := d.items.mergeSort fun p q => le p.1 q.1
  nodup := ((List.mergeSort_perm d.items _).map Prod.fst).nodup_iff.mpr d.nodup

omit [DecidableEq κ] in

/-- Sorting keeps the items. -/
theorem mem_items_sortBy {le : κ → κ → Bool} {d : Dict κ ν} {p : κ × ν} :
    p ∈ (d.sortBy le).items ↔ p ∈ d.items := List.mem_mergeSort

@[simp] theorem get?_sortBy (le : κ → κ → Bool) (d : Dict κ ν) (k : κ) :
    (d.sortBy le).get? k = d.get? k := by
  ext v
  rw [get?_eq_some_iff, get?_eq_some_iff, mem_items_sortBy]

/-! ## Comprehensions -/

/-- The last pair of an update is set last. -/
theorem update_concat (d : Dict κ ν) (ps : List (κ × ν)) (p : κ × ν) :
    d.update (ps ++ [p]) = (d.update ps).set p.1 p.2 := by
  simp [update]

/-- The last pair with a key wins, then what was there. -/
theorem get?_update [BEq κ] [LawfulBEq κ] (d : Dict κ ν) (ps : List (κ × ν)) (k : κ) :
    (d.update ps).get? k = (ps.reverse.lookup k).or (d.get? k) := by
  induction ps using List.reverseRecOn with
  | nil => rfl
  | append_singleton ps p ih =>
      rw [update_concat, get?_set, List.reverse_append, List.reverse_singleton,
        List.singleton_append, lookup_cons_eq_if, ih]
      split <;> rfl

/-- **Last wins**: a comprehension keeps the last value of every key. -/
theorem get?_ofList [BEq κ] [LawfulBEq κ] (ps : List (κ × ν)) (k : κ) :
    (ofList ps).get? k = ps.reverse.lookup k := by
  rw [ofList, get?_update, get?_empty, Option.or_none]

/-- What is found in a dictionary built from pairs is one of them. -/
theorem mem_of_get?_ofList {ps : List (κ × ν)} {k : κ} {v : ν}
    (h : (ofList ps).get? k = some v) : (k, v) ∈ ps := by
  rw [get?_ofList, List.lookup_eq_some_iff] at h
  obtain ⟨pre, post, hps, -⟩ := h
  rw [← List.mem_reverse, hps]
  simp

/-- Its keys are those of the pairs. -/
theorem mem_keys_ofList {ps : List (κ × ν)} {k : κ} : k ∈ (ofList ps).keys ↔ k ∈ ps.map Prod.fst := by
  rw [← not_iff_not, ← get?_eq_none_iff, get?_ofList, List.lookup_eq_none_iff]
  simp only [List.mem_reverse, List.mem_map, not_exists, not_and]
  constructor
  · intro h p hp hk
    simpa [hk] using h p hp
  · intro h p hp
    simpa using fun hk => h p hp hk.symm

/-- With no key twice nothing is lost. -/
theorem get?_ofList_of_nodup {ps : List (κ × ν)} (h : (ps.map Prod.fst).Nodup) {k : κ} {v : ν} :
    (ofList ps).get? k = some v ↔ (k, v) ∈ ps := by
  refine ⟨mem_of_get?_ofList, fun hmem => ?_⟩
  obtain ⟨w, hw⟩ := mem_keys_iff.mp (mem_keys_ofList.mpr (List.mem_map_of_mem hmem))
  have heq := List.inj_on_of_nodup_map h hmem (mem_of_get?_ofList hw) rfl
  rw [hw]
  exact congrArg (some ∘ Prod.snd) heq.symm

/-- One pair more is one assignment more. -/
theorem items_ofList_concat (ps : List (κ × ν)) (p : κ × ν) :
    (ofList (ps ++ [p])).items = assign p.1 p.2 (ofList ps).items := by
  rw [ofList, update_concat]
  rfl

/-- Pairs with distinct keys are its items. -/
theorem items_ofList_of_nodup {ps : List (κ × ν)} (h : (ps.map Prod.fst).Nodup) :
    (ofList ps).items = ps := by
  induction ps using List.reverseRecOn with
  | nil => rfl
  | append_singleton ps p ih =>
      rw [List.map_append, List.nodup_append] at h
      have hnew : p.1 ∉ ps.map Prod.fst := fun hmem => h.2.2 _ hmem _ (List.mem_singleton_self _) rfl
      rw [items_ofList_concat, ih h.1, assign_of_notMem _ hnew]

/-- **Nothing is lost** from a comprehension just when no key comes twice. -/
theorem length_items_ofList_iff {ps : List (κ × ν)} :
    (ofList ps).items.length = ps.length ↔ (ps.map Prod.fst).Nodup := by
  constructor
  · intro hlen
    have hset : (ofList ps).keys.toFinset = (ps.map Prod.fst).toFinset := by
      ext k
      rw [List.mem_toFinset, List.mem_toFinset, mem_keys_ofList]
    have hcard := List.toFinset_card_of_nodup (ofList ps).nodup
    have hkeys : (ofList ps).keys.length = ps.length := by rw [keys, List.length_map, hlen]
    rw [← List.dedup_eq_self]
    refine (List.dedup_sublist _).eq_of_length ?_
    rw [← List.card_toFinset, ← hset, List.length_map]
    exact hcard.trans hkeys
  · intro h
    rw [items_ofList_of_nodup h]

end

/-! ## Sorted keys -/

section

variable {κ ν : Type*} [LinearOrder κ]

/-- `sorted(d)`. -/
def sortedKeys (d : Dict κ ν) : List κ := d.keys.mergeSort (· ≤ ·)

/-- Sorted keys are the keys. -/
theorem mem_sortedKeys {d : Dict κ ν} {k : κ} : k ∈ d.sortedKeys ↔ k ∈ d.keys := List.mem_mergeSort

/-- None of them comes twice. -/
theorem nodup_sortedKeys (d : Dict κ ν) : d.sortedKeys.Nodup :=
  (List.mergeSort_perm d.keys _).nodup_iff.mpr d.nodup

/-- And they are sorted. -/
theorem pairwise_sortedKeys (d : Dict κ ν) : d.sortedKeys.Pairwise (· ≤ ·) := by
  have h := @List.pairwise_mergeSort κ (fun a b => decide (a ≤ b))
    (fun a b c hab hbc => by simpa using le_trans (by simpa using hab) (by simpa using hbc))
    (fun a b => by simpa using le_total a b) d.keys
  simpa [sortedKeys] using h

/-- **Common keys** come in one order, whichever dictionary they are looked up in. -/
theorem filter_sortedKeys_comm (d e : Dict κ ν) {p q : κ → Bool}
    (hp : ∀ k, p k = true ↔ k ∈ e.keys) (hq : ∀ k, q k = true ↔ k ∈ d.keys) :
    d.sortedKeys.filter p = e.sortedKeys.filter q := by
  refine @List.Perm.eq_of_pairwise κ (· ≤ ·) _ _ (fun a b _ _ => le_antisymm)
    (d.pairwise_sortedKeys.filter _) (e.pairwise_sortedKeys.filter _) ?_
  refine (List.perm_ext_iff_of_nodup (d.nodup_sortedKeys.filter _) (e.nodup_sortedKeys.filter _)).mpr ?_
  intro k
  simp only [List.mem_filter, mem_sortedKeys, hp, hq]
  exact and_comm

end

end Dict

/-! ## The first of every key -/

section

variable {α κ : Type*} [DecidableEq κ]

/-- The elements whose key neither `seen` nor an element before them has. -/
def firstsBy (f : α → κ) : List κ → List α → List α
  | _, [] => []
  | seen, x :: xs =>
      if f x ∈ seen then firstsBy f seen xs else x :: firstsBy f (f x :: seen) xs

/-- **First wins**: the keys come in the order of their first occurrence. -/
theorem map_firstsBy [BEq κ] [LawfulBEq κ] (f : α → κ) (seen : List κ) (xs : List α) :
    (firstsBy f seen xs).map f = ((xs.map f).filter (· ∉ seen)).eraseDups := by
  induction xs generalizing seen with
  | nil => rfl
  | cons x xs ih =>
      unfold firstsBy
      split
      · next h => rw [ih, List.map_cons, List.filter_cons_of_neg (by simpa using h)]
      · next h =>
          rw [List.map_cons, ih, List.map_cons, List.filter_cons_of_pos (by simpa using h),
            List.eraseDups_cons, List.filter_filter]
          congr 3
          funext k
          rw [Bool.eq_iff_iff]
          simp [not_or]

/-- The firsts have every key that has not been seen. -/
theorem mem_keys_firstsBy {f : α → κ} {seen : List κ} {xs : List α} {k : κ} :
    k ∈ (firstsBy f seen xs).map f ↔ k ∈ xs.map f ∧ k ∉ seen := by
  rw [map_firstsBy, List.mem_eraseDups, List.mem_filter, decide_eq_true_iff]

/-- Every key comes first once. -/
theorem nodup_keys_firstsBy (f : α → κ) (seen : List κ) (xs : List α) :
    ((firstsBy f seen xs).map f).Nodup := by
  induction xs generalizing seen with
  | nil => exact List.nodup_nil
  | cons x xs ih =>
      unfold firstsBy
      split
      · exact ih seen
      · rw [List.map_cons, List.nodup_cons, mem_keys_firstsBy]
        exact ⟨fun h => h.2 List.mem_cons_self, ih (f x :: seen)⟩

end

end TestGear
