import TestGear.Runs

/-!
# TestGear.Grants

Locks that nest, as the bags of grants outstanding on every resource.  Two
grants are compatible or they exclude one another: shared grants go together
under one name, anything else only with a grant to the same holder.  A request
is granted just if its grant is compatible with every one outstanding.

* `coherent_final` — grants that exclude one another are never outstanding
  together;
* `held_eq_ledger` — how much a holder holds can be told from the answers given;
* `refused_of_not_woken`, `access_of_not_woken` — what can change while no one
  is woken.

This module names nothing of the server.
-/

namespace TestGear.Grants

open Runs

/-! ## Compatible grants -/

/-- A grant to a holder: shared under a name, or exclusive. -/
structure Grant (ι ν : Type*) where
  holder : ι
  name : Option ν
deriving DecidableEq

section

variable {ι ν : Type*}

/-- Shared grants go together under one name, others with the same holder's. -/
def Compatible (g g' : Grant ι ν) : Prop :=
  match g.name, g'.name with
  | some n, some n' => n = n'
  | _, _ => g.holder = g'.holder

/-- A grant goes together with itself. -/
theorem Compatible.refl (g : Grant ι ν) : Compatible g g := by
  unfold Compatible
  split <;> simp_all

/-- Two grants go together either way. -/
theorem Compatible.symm {g g' : Grant ι ν} (h : Compatible g g') : Compatible g' g := by
  unfold Compatible at *
  cases hn : g.name <;> cases hn' : g'.name <;> simp_all

/-- Every outstanding grant is compatible with `g`. -/
def Admits (s : Multiset (Grant ι ν)) (g : Grant ι ν) : Prop := ∀ g' ∈ s, Compatible g' g

/-- An exclusive grant is admitted where nobody else has one. -/
theorem admits_exclusive_iff {s : Multiset (Grant ι ν)} {i : ι} :
    Admits s ⟨i, none⟩ ↔ ∀ g ∈ s, g.holder = i := by
  simp [Admits, Compatible]

/-- A shared one where nobody else excludes, and all share its name. -/
theorem admits_shared_iff {s : Multiset (Grant ι ν)} {i : ι} {n : ν} :
    Admits s ⟨i, some n⟩ ↔
      (∀ j, ⟨j, none⟩ ∈ s → j = i) ∧ ∀ j m, ⟨j, some m⟩ ∈ s → m = n := by
  constructor
  · intro h
    exact ⟨fun j hj => by simpa [Compatible] using h _ hj,
      fun j m hm => by simpa [Compatible] using h _ hm⟩
  · rintro ⟨hx, hsh⟩ ⟨j, name⟩ hg
    cases name with
    | none => simpa [Compatible] using hx j hg
    | some m => simpa [Compatible] using hsh j m hg

instance [DecidableEq ι] [DecidableEq ν] (g g' : Grant ι ν) : Decidable (Compatible g g') := by
  unfold Compatible
  split <;> infer_instance

instance [DecidableEq ι] [DecidableEq ν] (s : Multiset (Grant ι ν)) (g : Grant ι ν) :
    Decidable (Admits s g) := by
  unfold Admits
  infer_instance

/-- No two grants of the bag exclude one another. -/
def Coherent (s : Multiset (Grant ι ν)) : Prop := ∀ g ∈ s, Admits s g

/-- Fewer grants admit no less. -/
theorem Admits.mono {s t : Multiset (Grant ι ν)} {g : Grant ι ν} (hle : s ≤ t) (h : Admits t g) :
    Admits s g := fun g' hg' => h g' (Multiset.mem_of_le hle hg')

/-- Fewer of them go together as well. -/
theorem Coherent.mono {s t : Multiset (Grant ι ν)} (hle : s ≤ t) (h : Coherent t) : Coherent s :=
  fun g hg => (h g (Multiset.mem_of_le hle hg)).mono hle

/-- So does one more that was admitted. -/
theorem Coherent.cons {s : Multiset (Grant ι ν)} {g : Grant ι ν} (h : Coherent s)
    (hg : Admits s g) : Coherent (g ::ₘ s) := by
  intro a ha b hb
  rw [Multiset.mem_cons] at ha hb
  cases ha with
  | inl ha =>
      subst ha
      cases hb with
      | inl hb => exact hb ▸ .refl _
      | inr hb => exact hg b hb
  | inr ha =>
      cases hb with
      | inl hb => exact hb ▸ (hg a ha).symm
      | inr hb => exact h a ha b hb

/-- Beside an exclusive grant there are only its holder's. -/
theorem Coherent.holder_eq {s : Multiset (Grant ι ν)} (h : Coherent s) {i : ι}
    (hi : ⟨i, none⟩ ∈ s) {g : Grant ι ν} (hg : g ∈ s) : g.holder = i := by
  simpa [Compatible] using h ⟨i, none⟩ hi g hg

/-- All that is shared is shared under one name. -/
theorem Coherent.name_eq {s : Multiset (Grant ι ν)} (h : Coherent s) {i j : ι} {n m : ν}
    (hn : ⟨i, some n⟩ ∈ s) (hm : ⟨j, some m⟩ ∈ s) : n = m := by
  simpa [Compatible] using h ⟨j, some m⟩ hm ⟨i, some n⟩ hn

end

/-! ## The machine -/

inductive Op (ρ ι ν : Type*) where
  | request (resource : ρ) (holder : ι) (name : Option ν)
  | release (resource : ρ) (holder : ι)
  | releaseAll (holder : ι)

inductive Answer where
  | refused
  | exclusive
  | shared
  | notHeld
  | done
deriving DecidableEq, Repr

/-- What a request is answered with if it is granted. -/
def Answer.granting {ν : Type*} (name : Option ν) : Answer := if name.isSome then shared else exclusive

section

variable {ρ ι ν : Type*} [DecidableEq ρ] [DecidableEq ι] [DecidableEq ν]

open Classical in
/-- One operation: its answer, and whether those who wait are woken. -/
noncomputable def next (s : ρ → Multiset (Grant ι ν)) :
    Op ρ ι ν → (ρ → Multiset (Grant ι ν)) × Answer × Bool
  | .request r i n =>
      if Admits (s r) ⟨i, n⟩ then
        (Function.update s r (⟨i, n⟩ ::ₘ s r), .granting n, false)
      else (s, .refused, false)
  | .release r i =>
      if ⟨i, none⟩ ∈ s r then (Function.update s r ((s r).erase ⟨i, none⟩), .exclusive, true)
      else if h : ∃ n, ⟨i, some n⟩ ∈ s r then
        (Function.update s r ((s r).erase ⟨i, some h.choose⟩), .shared, true)
      else (s, .notHeld, false)
  | .releaseAll i =>
      (fun r => (s r).filter (·.holder ≠ i), .done, decide (∃ r, ∃ g ∈ s r, g.holder = i))

/-- How many grants are outstanding to a holder. -/
def held (s : Multiset (Grant ι ν)) (i : ι) : ℕ := s.countP (·.holder = i)

/-- May a holder use the resource?  It holds a grant, or nobody does. -/
def Access (s : Multiset (Grant ι ν)) (i : ι) : Prop := s = 0 ∨ ∃ g ∈ s, g.holder = i

end

/-! ## What one operation does -/

section

variable {ρ ι ν : Type*} [DecidableEq ρ] [DecidableEq ι] [DecidableEq ν]
  {s : ρ → Multiset (Grant ι ν)}

/-- A request that is admitted is granted. -/
theorem next_request_of_admits {r : ρ} {i : ι} {n : Option ν} (h : Admits (s r) ⟨i, n⟩) :
    next s (.request r i n) =
      (Function.update s r (⟨i, n⟩ ::ₘ s r), .granting n, false) := by
  rw [next, if_pos h]

/-- Any other is refused, and changes nothing. -/
theorem next_request_of_not_admits {r : ρ} {i : ι} {n : Option ν} (h : ¬Admits (s r) ⟨i, n⟩) :
    next s (.request r i n) = (s, .refused, false) := by
  rw [next, if_neg h]

/-- An exclusive grant is the first to be released. -/
theorem next_release_exclusive {r : ρ} {i : ι} (h : ⟨i, none⟩ ∈ s r) :
    next s (.release r i) =
      (Function.update s r ((s r).erase ⟨i, none⟩), .exclusive, true) := by
  rw [next, if_pos h]

/-- Without one, a shared grant is. -/
theorem next_release_shared {r : ρ} {i : ι} {n : ν} (hs : Coherent (s r)) (hx : ⟨i, none⟩ ∉ s r)
    (h : ⟨i, some n⟩ ∈ s r) :
    next s (.release r i) =
      (Function.update s r ((s r).erase ⟨i, some n⟩), .shared, true) := by
  have hex : ∃ m, ⟨i, some m⟩ ∈ s r := ⟨n, h⟩
  rw [next, if_neg hx, dif_pos hex, hs.name_eq hex.choose_spec h]

/-- Who holds nothing is told so. -/
theorem next_release_notHeld {r : ρ} {i : ι} (h : ∀ n, ⟨i, n⟩ ∉ s r) :
    next s (.release r i) = (s, .notHeld, false) := by
  rw [next, if_neg (h none), dif_neg (not_exists.mpr fun n => h (some n))]

/-- What an operation can do to one resource: add an admitted grant, take away
some, or nothing — and only what takes away wakes. -/
theorem next_cases (s : ρ → Multiset (Grant ι ν)) (op : Op ρ ι ν) (r : ρ) :
    (∃ i n, op = .request r i n ∧ Admits (s r) ⟨i, n⟩ ∧ (next s op).1 r = ⟨i, n⟩ ::ₘ s r) ∨
      (next s op).1 r ≤ s r ∧ ((next s op).2.2 = false → (next s op).1 r = s r) := by
  classical
  cases op with
  | request r' i n =>
      by_cases h : Admits (s r') ⟨i, n⟩
      · rw [next_request_of_admits h]
        by_cases hr : r = r'
        · subst hr
          exact Or.inl ⟨i, n, rfl, h, by simp⟩
        · exact Or.inr (by simp [hr])
      · rw [next_request_of_not_admits h]
        exact Or.inr ⟨le_rfl, fun _ => rfl⟩
  | release r' i =>
      refine Or.inr ?_
      have herase (g : Grant ι ν) : Function.update s r' ((s r').erase g) r ≤ s r := by
        by_cases hr : r = r'
        · subst hr
          simpa using Multiset.erase_le g (s r)
        · simp [hr]
      simp only [next]
      split
      · exact ⟨herase _, by simp⟩
      · split
        · exact ⟨herase _, by simp⟩
        · exact ⟨le_rfl, fun _ => rfl⟩
  | releaseAll i =>
      refine Or.inr ⟨Multiset.filter_le _ _, fun hwoken => ?_⟩
      simp only [next, decide_eq_false_iff_not, not_exists, not_and] at hwoken ⊢
      exact Multiset.filter_eq_self.mpr fun g hg => hwoken r g hg

/-- **One operation** keeps the grants going together. -/
theorem coherent_next {op : Op ρ ι ν} (h : ∀ r, Coherent (s r)) (r : ρ) :
    Coherent ((next s op).1 r) := by
  obtain ⟨i, n, -, hadmits, heq⟩ | ⟨hle, -⟩ := next_cases s op r
  · exact heq ▸ (h r).cons hadmits
  · exact (h r).mono hle

/-- **Safety**: grants that exclude one another are never outstanding together. -/
theorem coherent_final (ops : List (Op ρ ι ν)) (h : ∀ r, Coherent (s r)) (r : ρ) :
    Coherent (final next s ops r) :=
  final_invariant (P := fun s : ρ → Multiset (Grant ι ν) => ∀ r, Coherent (s r)) (fun _ _ hs r => coherent_next hs r) h ops r

/-! ## Waking -/

/-- **No wake is missed** by a request: while nobody is woken, what was refused
stays refused. -/
theorem refused_of_not_woken {op : Op ρ ι ν} {r : ρ} {g : Grant ι ν}
    (hwoken : (next s op).2.2 = false) (h : ¬Admits (s r) g) :
    ¬Admits ((next s op).1 r) g := by
  obtain ⟨i, n, -, -, heq⟩ | ⟨-, heq⟩ := next_cases s op r
  · exact fun h' => h (h'.mono (heq ▸ Multiset.le_cons_self _ _))
  · exact heq hwoken ▸ h

/-- Access that comes while nobody is woken comes with a grant of one's own. -/
theorem access_of_not_woken {op : Op ρ ι ν} {r : ρ} {i : ι}
    (hwoken : (next s op).2.2 = false) (h : ¬Access (s r) i)
    (h' : Access ((next s op).1 r) i) :
    ∃ n, op = .request r i (some n) ∧ Admits (s r) ⟨i, some n⟩ := by
  obtain ⟨j, n, hop, hadmits, heq⟩ | ⟨-, heq⟩ := next_cases s op r
  · rw [heq] at h'
    obtain hzero | ⟨g, hg, hholder⟩ := h'
    · exact absurd hzero (Multiset.cons_ne_zero)
    · rw [Multiset.mem_cons] at hg
      cases hg with
      | inr hg => exact absurd (Or.inr ⟨g, hg, hholder⟩) h
      | inl hg =>
          subst hg
          obtain rfl : j = i := hholder
          cases n with
          | some n => exact ⟨n, hop, hadmits⟩
          | none =>
              -- an exclusive grant has nobody else beside it
              refine absurd ?_ h
              by_cases hzero : s r = 0
              · exact Or.inl hzero
              · obtain ⟨g, hg⟩ := Multiset.exists_mem_of_ne_zero hzero
                exact Or.inr ⟨g, hg, by simpa [Compatible] using hadmits g hg⟩
  · exact absurd (heq hwoken ▸ h') h

end

/-! ## The ledger -/

section

variable {ρ ι ν : Type*} [DecidableEq ρ] [DecidableEq ι] [DecidableEq ν]
  {s : ρ → Multiset (Grant ι ν)}

/-- What an operation and its answer do to the count a holder keeps for itself. -/
def entry (r : ρ) (i : ι) (n : ℕ) : Op ρ ι ν × Answer → ℕ
  | (.request r' i' _, a) => if r' = r ∧ i' = i ∧ a ≠ .refused then n + 1 else n
  | (.release r' i', a) => if r' = r ∧ i' = i ∧ a ≠ .notHeld then n - 1 else n
  | (.releaseAll i', _) => if i' = i then 0 else n

/-- The count a holder keeps for one resource, from the operations and their
answers. -/
def ledger (r : ρ) (i : ι) (n : ℕ) (events : List (Op ρ ι ν × Answer)) : ℕ :=
  events.foldl (entry r i) n

omit [DecidableEq ν] in

/-- One grant more counts for its holder. -/
theorem held_cons (g : Grant ι ν) (t : Multiset (Grant ι ν)) (i : ι) :
    held (g ::ₘ t) i = held t i + if g.holder = i then 1 else 0 := Multiset.countP_cons _ _ _

/-- One grant less counts for its holder. -/
theorem held_erase {g : Grant ι ν} {t : Multiset (Grant ι ν)} (h : g ∈ t) (i : ι) :
    held (t.erase g) i = held t i - if g.holder = i then 1 else 0 := by
  conv_rhs => rw [← Multiset.cons_erase h, held_cons]
  omega

omit [DecidableEq ν] in

/-- Without somebody's grants nothing of the others' is gone. -/
theorem held_filter (t : Multiset (Grant ι ν)) (i j : ι) :
    held (t.filter (·.holder ≠ j)) i = if j = i then 0 else held t i := by
  rw [held, Multiset.countP_filter]
  by_cases h : j = i
  · subst h
    rw [if_pos rfl, Multiset.countP_eq_zero]
    simp
  · rw [if_neg h, held]
    refine Multiset.countP_congr rfl fun g _ => ?_
    simp only [eq_iff_iff, and_iff_left_iff_imp]
    exact fun hg hj => h (hj.symm.trans hg)

omit [DecidableEq ν] in

/-- To hold something is to have a grant. -/
theorem held_pos_iff {t : Multiset (Grant ι ν)} {i : ι} :
    0 < held t i ↔ ∃ g ∈ t, g.holder = i := Multiset.countP_pos

/-- **One operation** enters in the account what it changes. -/
theorem held_next (s : ρ → Multiset (Grant ι ν)) (op : Op ρ ι ν) (r : ρ) (i : ι) :
    held ((next s op).1 r) i = entry r i (held (s r) i) (op, (next s op).2.1) := by
  cases op with
  | request r' i' n =>
      by_cases h : Admits (s r') ⟨i', n⟩
      · have hne : (Answer.granting n) ≠ .refused := by cases n <;> simp [Answer.granting]
        rw [next_request_of_admits h, entry]
        by_cases hr : r' = r
        · subst hr
          simp only [Function.update_self, held_cons, hne, true_and, ne_eq, not_false_eq_true,
            and_true]
          split <;> rfl
        · simp [hr, Ne.symm hr]
      · rw [next_request_of_not_admits h]
        simp [entry]
  | release r' i' =>
      have herase {g : Grant ι ν} (hg : g ∈ s r') (hholder : g.holder = i') {a : Answer}
          (ha : a ≠ .notHeld) : held (Function.update s r' ((s r').erase g) r) i =
            entry r i (held (s r) i) ((.release r' i' : Op ρ ι ν), a) := by
        rw [entry]
        by_cases hr : r' = r
        · subst hr
          simp only [Function.update_self, held_erase hg, hholder, ha, true_and, ne_eq,
            not_false_eq_true, and_true]
          split <;> rfl
        · simp [hr, Ne.symm hr]
      simp only [next]
      split
      · next h => exact herase h rfl (by simp)
      · split
        · next h => exact herase h.choose_spec rfl (by simp)
        · simp [entry]
  | releaseAll i' => exact held_filter (s r) i i'

/-- **The ledger**: how much a holder holds of a resource can be told from the
operations and how they were answered. -/
theorem held_eq_ledger (s : ρ → Multiset (Grant ι ν)) (ops : List (Op ρ ι ν)) (r : ρ) (i : ι) :
    held (final next s ops r) i =
      ledger r i (held (s r) i) (ops.zip ((outputs next s ops).map Prod.fst)) := by
  induction ops generalizing s with
  | nil => rfl
  | cons op ops ih =>
      rw [final_cons, ih, held_next]
      rfl

omit [DecidableEq ν] in

/-- Access is a grant of one's own, or nobody's. -/
theorem access_iff_held {t : Multiset (Grant ι ν)} {i : ι} :
    Access t i ↔ 0 < held t i ∨ ∀ j, held t j = 0 := by
  rw [Access, held_pos_iff, or_comm]
  refine or_congr_right ?_
  constructor
  · intro h j
    rw [h]
    rfl
  · intro h
    refine Multiset.eq_zero_of_forall_notMem fun g hg => ?_
    exact (held_pos_iff.mpr ⟨g, hg, rfl⟩).ne' (h g.holder)

/-- A release is refused just if nothing is held. -/
theorem answer_release_eq_notHeld_iff {r : ρ} {i : ι} :
    (next s (.release r i)).2.1 = .notHeld ↔ held (s r) i = 0 := by
  rw [← not_iff_not, ← ne_eq (held _ _), ← Nat.pos_iff_ne_zero, held_pos_iff]
  simp only [next]
  split
  · next h => exact iff_of_true (by simp) ⟨_, h, rfl⟩
  · next hx =>
      split
      · next h => exact iff_of_true (by simp) ⟨_, h.choose_spec, rfl⟩
      · next h =>
          refine iff_of_false (by simp) ?_
          rintro ⟨⟨j, n⟩, hg, rfl⟩
          cases n with
          | none => exact hx hg
          | some n => exact h ⟨n, hg⟩

end

end TestGear.Grants
