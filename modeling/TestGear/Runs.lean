import Mathlib

/-!
# TestGear.Runs

Machines that take one input at a time, give an output each, and may fail to
return.  `exec` is the state after a sequence of inputs, `trace` the outputs
on the way.

* `exec_invariant` — what every step keeps holds after every run;
* `always_iff_throughout` — a property that a step keeps just when it is
  guarded holds all along a run just when every step of it was;
* `trace_eq_of_simulation` — states that a simulation relates give the same
  outputs for ever;
* `exec_account` — a state in accord with what an observer notes of every step
  is in accord with the account of the whole run;
* `unwinding` — two runs over the same inputs, as far as these concern a party,
  end in states the party cannot tell apart.

For machines that always return, `final` and `outputs` say the same without
the option, and `outputs_eq_of_budget` is a simulation between two of them that
may use up a budget as it goes.
-/

namespace TestGear.Runs

section

variable {σ ι ο : Type*} (step : σ → ι → Option (σ × ο))

/-- The state after `is`, if every call returns. -/
def exec (s : σ) : List ι → Option σ
  | [] => some s
  | i :: is => (step s i).bind fun r => exec r.1 is

/-- The outputs up to the first call that does not return. -/
def trace (s : σ) : List ι → List ο
  | [] => []
  | i :: is => (step s i).elim [] fun r => r.2 :: trace r.1 is

/-- The outputs of the inputs that are `own`. -/
def answers (own : ι → Bool) (s : σ) : List ι → List ο
  | [] => []
  | i :: is =>
      (step s i).elim [] fun r => if own i then r.2 :: answers own r.1 is else answers own r.1 is

/-- `P` holds in every state a run over `is` passes through. -/
def Always (P : σ → Prop) (s : σ) (is : List ι) : Prop :=
  ∀ pre t, pre <+: is → exec step s pre = some t → P t

/-- `G` holds of every step a run over `is` takes. -/
def Throughout (G : σ → ι → Prop) (s : σ) (is : List ι) : Prop :=
  ∀ pre i t, pre ++ [i] <+: is → exec step s pre = some t → G t i

end

section

variable {σ ι ο : Type*} {step : σ → ι → Option (σ × ο)}

/-- A run over two stretches is a run over the second, from where the first ends. -/
theorem exec_append (s : σ) (is js : List ι) :
    exec step s (is ++ js) = (exec step s is).bind fun t => exec step t js := by
  induction is generalizing s with
  | nil => rfl
  | cons i is ih =>
      simp only [List.cons_append, exec]
      cases step s i with
      | none => rfl
      | some r => exact ih r.1

/-- The last step of a run, taken off. -/
theorem exec_concat_eq_some {s t : σ} {is : List ι} {i : ι} :
    exec step s (is ++ [i]) = some t ↔ ∃ u o, exec step s is = some u ∧ step u i = some (t, o) := by
  simp [exec_append, exec, Option.bind_eq_some_iff]

/-- **Invariants**: what every step keeps holds after every run. -/
theorem exec_invariant {P : σ → Prop}
    (hstep : ∀ s i t o, P s → step s i = some (t, o) → P t) {s t : σ} {is : List ι} (h0 : P s)
    (h : exec step s is = some t) : P t := by
  induction is generalizing s with
  | nil =>
      rw [exec, Option.some.injEq] at h
      exact h ▸ h0
  | cons i is ih =>
      rw [exec, Option.bind_eq_some_iff] at h
      obtain ⟨⟨u, o⟩, hone, hrest⟩ := h
      exact ih (hstep s i u o h0 hone) hrest

/-- What every guarded step keeps holds all along a guarded run. -/
theorem always_of_throughout {P : σ → Prop} {G : σ → ι → Prop}
    (hstep : ∀ s i t o, P s → G s i → step s i = some (t, o) → P t) {s : σ} {is : List ι} (h0 : P s)
    (h : Throughout step G s is) : Always step P s is := by
  intro pre
  induction pre using List.reverseRecOn with
  | nil =>
      intro t _ ht
      rw [exec, Option.some.injEq] at ht
      exact ht ▸ h0
  | append_singleton pre i ih =>
      intro t hpre ht
      obtain ⟨u, o, hu, hone⟩ := exec_concat_eq_some.mp ht
      exact hstep u i t o (ih u ((List.prefix_append pre [i]).trans hpre) hu) (h pre i u hpre hu) hone

/-- **Guarded invariants**: if a step from a state with `P` keeps `P` just when
`G` holds of it, then `P` holds all along a run just when `G` does. -/
theorem always_iff_throughout {P : σ → Prop} {G : σ → ι → Prop}
    (hstep : ∀ s i t o, P s → step s i = some (t, o) → (P t ↔ G s i))
    (hnone : ∀ s i, step s i = none → G s i) {s : σ} (h0 : P s) (is : List ι) :
    Always step P s is ↔ Throughout step G s is := by
  constructor
  · intro h pre i t hpre ht
    have hP : P t := h pre t ((List.prefix_append pre [i]).trans hpre) ht
    cases hone : step t i with
    | none => exact hnone t i hone
    | some r =>
        exact (hstep t i r.1 r.2 hP hone).mp
          (h (pre ++ [i]) r.1 hpre (exec_concat_eq_some.mpr ⟨t, r.2, ht, hone⟩))
  · exact always_of_throughout (fun s i t o hs hg hone => (hstep s i t o hs hone).mpr hg) h0

/-- What always holds, holds at the start. -/
theorem always_head {P : σ → Prop} {s : σ} {is : List ι} (h : Always step P s is) : P s :=
  h [] s (List.nil_prefix) rfl

/-- And all along the rest. -/
theorem always_tail {P : σ → Prop} {s t : σ} {i : ι} {is : List ι} {o : ο}
    (hone : step s i = some (t, o)) (h : Always step P s (i :: is)) : Always step P t is := by
  intro pre u hpre hu
  refine h (i :: pre) u (List.cons_prefix_cons.mpr ⟨rfl, hpre⟩) ?_
  rw [exec, hone]
  exact hu

/-- A run that takes no step passes through its start only. -/
theorem always_nil {P : σ → Prop} {s : σ} (h : P s) : Always step P s [] := by
  intro pre t hpre ht
  obtain rfl := List.prefix_nil.mp hpre
  rw [exec, Option.some.injEq] at ht
  exact ht ▸ h

/-- One step in front passes through one state more. -/
theorem always_cons {P : σ → Prop} {s t : σ} {i : ι} {is : List ι} {o : ο}
    (hone : step s i = some (t, o)) (hs : P s) (h : Always step P t is) :
    Always step P s (i :: is) := by
  intro pre u hpre hu
  cases pre with
  | nil =>
      rw [exec, Option.some.injEq] at hu
      exact hu ▸ hs
  | cons j pre =>
      rw [List.cons_prefix_cons] at hpre
      obtain ⟨rfl, hpre⟩ := hpre
      rw [exec, hone] at hu
      exact h pre u hpre hu

/-- A run that takes no step is guarded. -/
theorem throughout_nil {G : σ → ι → Prop} {s : σ} : Throughout step G s [] := by
  intro pre i t hpre
  simp at hpre

/-- The first step of a guarded run is guarded. -/
theorem throughout_head {G : σ → ι → Prop} {s : σ} {i : ι} {is : List ι}
    (h : Throughout step G s (i :: is)) : G s i :=
  h [] i s (by simp) rfl

/-- And so is the rest. -/
theorem throughout_tail {G : σ → ι → Prop} {s t : σ} {i : ι} {is : List ι} {o : ο}
    (hone : step s i = some (t, o)) (h : Throughout step G s (i :: is)) : Throughout step G t is := by
  intro pre j u hpre hu
  refine h (i :: pre) j u (List.cons_prefix_cons.mpr ⟨rfl, hpre⟩) ?_
  rw [exec, hone]
  exact hu

/-- So is every beginning of it. -/
theorem throughout_prefix {G : σ → ι → Prop} {s : σ} {pre is : List ι} (hpre : pre <+: is)
    (h : Throughout step G s is) : Throughout step G s pre :=
  fun pre' i t hpre' ht => h pre' i t (hpre'.trans hpre) ht

/-- A run that starts with a step is guarded if the step is, and the rest. -/
theorem throughout_cons {G : σ → ι → Prop} {s t : σ} {i : ι} {is : List ι} {o : ο}
    (hone : step s i = some (t, o)) (hi : G s i) (h : Throughout step G t is) :
    Throughout step G s (i :: is) := by
  intro pre j u hpre hu
  cases pre with
  | nil =>
      rw [exec, Option.some.injEq] at hu
      rw [List.nil_append, List.cons_prefix_cons] at hpre
      rw [← hu, hpre.1]
      exact hi
  | cons i' pre =>
      rw [List.cons_append, List.cons_prefix_cons] at hpre
      obtain ⟨rfl, hpre⟩ := hpre
      rw [exec, hone] at hu
      exact h pre j u hpre hu

/-- **Simulations**: related states give the same outputs to every sequence of
inputs. -/
theorem trace_eq_of_simulation {R : σ → σ → Prop}
    (hstep : ∀ s t i, R s t →
      Option.Rel (fun p q => R p.1 q.1 ∧ p.2 = q.2) (step s i) (step t i))
    {s t : σ} (h : R s t) (is : List ι) : trace step s is = trace step t is := by
  induction is generalizing s t with
  | nil => rfl
  | cons i is ih =>
      have hone := hstep s t i h
      simp only [trace]
      cases hs : step s i with
      | none =>
          rw [hs] at hone
          cases ht : step t i with
          | none => rfl
          | some q => rw [ht] at hone; cases hone
      | some p =>
          rw [hs] at hone
          cases ht : step t i with
          | none => rw [ht] at hone; cases hone
          | some q =>
              rw [ht] at hone
              cases hone with
              | some hr => exact congrArg₂ List.cons hr.2 (ih hr.1)

/-- What an observer has noted, of the inputs and the outputs, by the end. -/
def account {κ : Type*} (step : σ → ι → Option (σ × ο)) (note : κ → ι → ο → κ) (k : κ) (s : σ) :
    List ι → κ
  | [] => k
  | i :: is => (step s i).elim k fun r => account step note (note k i r.2) r.1 is

/-- **Accounts**: if every step keeps the state in accord with what is noted of
it, using up a budget, then it is in accord with the account of the whole run. -/
theorem exec_account {κ : Type*} {note : κ → ι → ο → κ} {R : ℕ → κ → σ → Prop}
    (hstep : ∀ n k s i t o, R (n + 1) k s → step s i = some (t, o) → R n (note k i o) t)
    {k : κ} {s t : σ} {is : List ι} (n : ℕ) (h0 : R (is.length + n) k s) (h : exec step s is = some t) :
    R n (account step note k s is) t := by
  induction is generalizing k s with
  | nil =>
      rw [exec, Option.some.injEq] at h
      simpa [account, h] using h0
  | cons i is ih =>
      rw [exec, Option.bind_eq_some_iff] at h
      obtain ⟨⟨u, o⟩, hone, hrest⟩ := h
      rw [List.length_cons, Nat.add_right_comm] at h0
      rw [account, hone]
      exact ih (hstep _ k s i u o h0 hone) hrest

/-! ## Two runs -/

/-- The first step of a run, taken off. -/
theorem exec_cons_eq_some {s u : σ} {i : ι} {is : List ι} :
    exec step s (i :: is) = some u ↔ ∃ t o, step s i = some (t, o) ∧ exec step t is = some u := by
  simp [exec, Option.bind_eq_some_iff]

section

variable {P : σ → Prop} {R : σ → σ → Prop} {concerns own : ι → Bool}

/-- Inputs that do not concern the party leave it where it was, and give it no
answer. -/
theorem unwinding_skip (hown : ∀ i, concerns i = false → own i = false)
    (hskip : ∀ r s i t o, R r s → P s → concerns i = false → step s i = some (t, o) → R r t)
    {r s t : σ} {is : List ι} (hR : R r s) (hP : Always step P s is) (h : exec step s is = some t)
    (hnone : is.filter concerns = []) : R r t ∧ answers step own s is = [] := by
  induction is generalizing s with
  | nil =>
      rw [exec, Option.some.injEq] at h
      exact ⟨h ▸ hR, rfl⟩
  | cons i is ih =>
      obtain ⟨u, o, hone, hrest⟩ := exec_cons_eq_some.mp h
      rw [List.filter_eq_nil_iff] at hnone
      have hi : concerns i = false := by simpa using hnone i List.mem_cons_self
      obtain ⟨hRt, hans⟩ := ih (hskip r s i u o hR (always_head hP) hi hone) (always_tail hone hP)
        hrest (List.filter_eq_nil_iff.mpr fun j hj => hnone j (List.mem_cons_of_mem i hj))
      refine ⟨hRt, ?_⟩
      rw [answers, hone, Option.elim_some, hown i hi]
      exact hans

/-- **Unwinding**: a party that cannot tell `s` from `s'` cannot tell the ends of
two runs from them, nor what it was answered on the way, if the runs are over
the same inputs as far as these concern it. -/
theorem unwinding (hsymm : ∀ s s', R s s' → R s' s) (hown : ∀ i, concerns i = false → own i = false)
    (hskip : ∀ r s i t o, R r s → P s → concerns i = false → step s i = some (t, o) → R r t)
    (hstep : ∀ s s' i t t' o o', R s s' → P s → P s' → concerns i = true →
      step s i = some (t, o) → step s' i = some (t', o') → R t t' ∧ (own i = true → o = o'))
    {s s' t t' : σ} {is js : List ι} (hR : R s s') (hP : Always step P s is)
    (hP' : Always step P s' js) (h : exec step s is = some t) (h' : exec step s' js = some t')
    (hsame : is.filter concerns = js.filter concerns) :
    R t t' ∧ answers step own s is = answers step own s' js := by
  induction is generalizing s s' js with
  | nil =>
      rw [exec, Option.some.injEq] at h
      obtain ⟨hRt, hans⟩ := unwinding_skip hown hskip hR hP' h' (by rw [← hsame]; rfl)
      exact ⟨h ▸ hRt, hans.symm⟩
  | cons i is ih =>
      obtain ⟨u, o, hone, hrest⟩ := exec_cons_eq_some.mp h
      cases hi : concerns i with
      | false =>
          have hRu : R u s' := hsymm _ _ (hskip s' s i u o (hsymm _ _ hR) (always_head hP) hi hone)
          rw [List.filter_cons_of_neg (by simpa using hi)] at hsame
          rw [answers, hone, Option.elim_some, hown i hi]
          exact ih hRu (always_tail hone hP) hP' hrest h' hsame
      | true =>
          -- the other run comes to this input once it has skipped its own
          rw [List.filter_cons_of_pos hi] at hsame
          induction js generalizing s' with
          | nil => cases hsame
          | cons j js jh =>
              obtain ⟨u', o', hone', hrest'⟩ := exec_cons_eq_some.mp h'
              cases hj : concerns j with
              | false =>
                  rw [List.filter_cons_of_neg (by simpa using hj)] at hsame
                  have hrec := jh (hskip s s' j u' o' hR (always_head hP') hj hone')
                    (always_tail hone' hP') hrest' hsame
                  rw [answers.eq_def step own s' (j :: js)]
                  simp only [hone', Option.elim_some, hown j hj, Bool.false_eq_true, if_false]
                  exact hrec
              | true =>
                  rw [List.filter_cons_of_pos hj, List.cons.injEq] at hsame
                  obtain ⟨rfl, hsame⟩ := hsame
                  obtain ⟨hRu, hout⟩ := hstep s s' i u u' o o' hR (always_head hP)
                    (always_head hP') hi hone hone'
                  obtain ⟨hRt, hans⟩ := ih hRu (always_tail hone hP) (always_tail hone' hP') hrest
                    hrest' hsame
                  refine ⟨hRt, ?_⟩
                  simp only [answers, hone, hone', Option.elim_some, hans]
                  split
                  · next hmine => rw [hout hmine]
                  · rfl

end

end

/-! ## Machines that always return -/

section

variable {σ τ ι ο : Type*}

/-- The state after `is`. -/
def final (f : σ → ι → σ × ο) (s : σ) (is : List ι) : σ := is.foldl (fun s i => (f s i).1) s

/-- The outputs on the way. -/
def outputs (f : σ → ι → σ × ο) (s : σ) : List ι → List ο
  | [] => []
  | i :: is => (f s i).2 :: outputs f (f s i).1 is

variable {f : σ → ι → σ × ο} {g : τ → ι → τ × ο}

@[simp] theorem final_nil (s : σ) : final f s [] = s := rfl

@[simp] theorem final_cons (s : σ) (i : ι) (is : List ι) :
    final f s (i :: is) = final f (f s i).1 is := rfl

/-- Two stretches, one after the other. -/
theorem final_append (s : σ) (is js : List ι) :
    final f s (is ++ js) = final f (final f s is) js := by simp [final]

@[simp] theorem length_outputs (s : σ) (is : List ι) : (outputs f s is).length = is.length := by
  induction is generalizing s with
  | nil => rfl
  | cons i is ih => simp [outputs, ih]

/-- What every call keeps holds at the end. -/
theorem final_invariant {P : σ → Prop} (hstep : ∀ s i, P s → P (f s i).1) {s : σ} (h : P s)
    (is : List ι) : P (final f s is) := by
  induction is generalizing s with
  | nil => exact h
  | cons i is ih => exact ih (hstep s i h)

/-- **Refinement with a budget**: `R n` relates two states that can take `n` more
steps together; then they do, and give the same outputs. -/
theorem outputs_eq_of_budget {R : ℕ → σ → τ → Prop}
    (hstep : ∀ n s t i, R (n + 1) s t → R n (f s i).1 (g t i).1 ∧ (f s i).2 = (g t i).2)
    {s : σ} {t : τ} (is : List ι) (n : ℕ) (h : R (is.length + n) s t) :
    R n (final f s is) (final g t is) ∧ outputs f s is = outputs g t is := by
  induction is generalizing s t with
  | nil => exact ⟨by simpa using h, rfl⟩
  | cons i is ih =>
      rw [List.length_cons, Nat.add_right_comm] at h
      obtain ⟨hnext, hout⟩ := hstep _ s t i h
      obtain ⟨hend, hrest⟩ := ih hnext
      exact ⟨hend, by rw [outputs, outputs, hout, hrest]⟩

/-- `G` holds of every step of the run. -/
def Guarded (f : σ → ι → σ × ο) (G : σ → ι → Prop) (s : σ) : List ι → Prop
  | [] => True
  | i :: is => G s i ∧ Guarded f G (f s i).1 is

instance decidableGuarded {G : σ → ι → Prop} [∀ s i, Decidable (G s i)] (s : σ) :
    (is : List ι) → Decidable (Guarded f G s is)
  | [] => inferInstanceAs (Decidable True)
  | i :: is => @instDecidableAnd _ _ _ (decidableGuarded (f s i).1 is)

/-- **Guarded invariants with a budget**: `P n` holds of a state that can take
`n` more steps. -/
theorem final_of_guarded_budget {P : ℕ → σ → Prop} {G : σ → ι → Prop}
    (hstep : ∀ n s i, P (n + 1) s → G s i → P n (f s i).1) {s : σ} (is : List ι) (n : ℕ)
    (h : P (is.length + n) s) (hG : Guarded f G s is) : P n (final f s is) := by
  induction is generalizing s with
  | nil => simpa using h
  | cons i is ih =>
      rw [List.length_cons, Nat.add_right_comm] at h
      exact ih (hstep _ s i h hG.1) hG.2

/-- Every run meets no condition. -/
theorem guarded_true (s : σ) (is : List ι) : Guarded f (fun _ _ => True) s is := by
  induction is generalizing s with
  | nil => trivial
  | cons i is ih => exact ⟨trivial, ih _⟩

/-- What every call keeps with one unit less of a budget holds with what is left
of it. -/
theorem final_of_budget {P : ℕ → σ → Prop} (hstep : ∀ n s i, P (n + 1) s → P n (f s i).1) {s : σ}
    (is : List ι) (n : ℕ) (h : P (is.length + n) s) : P n (final f s is) :=
  final_of_guarded_budget (fun n s i hs _ => hstep n s i hs) is n h (guarded_true s is)

end

end TestGear.Runs
