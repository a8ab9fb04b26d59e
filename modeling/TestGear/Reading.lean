import Mathlib

/-!
# TestGear.Reading

Readers that take values off the front of an input, one behind the other, over
any state that shows what is left of the input.  Two facts about a reader and
the bytes of a value are enough to know it on every input that starts with
them, and both are kept by sequencing:

* `Reads` — it reads the value, whatever follows, and stops behind it;
* `CutBy` — on an input that ends before the value does, it fails.

This module names nothing of the server.
-/

namespace TestGear

theorem ok_bind {ε α β : Type} (a : α) (f : α → Except ε β) : (Except.ok a >>= f) = f a := rfl

theorem mapError_ok {ε ε' α : Type} (k : ε → ε') (a : α) : (Except.ok a).mapError k = .ok a := rfl

theorem mapError_bind {ε ε' α β : Type} (k : ε → ε') (x : Except ε α) (f : α → Except ε β) :
    (x >>= f).mapError k = x.mapError k >>= fun a => (f a).mapError k := by
  cases x <;> rfl

theorem exceptMap_bind {ε α β γ : Type} (x : Except ε α) (f : α → Except ε β) (g : β → γ) :
    (x >>= f).map g = x >>= fun a => (f a).map g := by
  cases x <;> rfl

/-- A reader over `σ`. -/
abbrev Reader (σ ε α : Type) := σ → Except ε (α × σ)

namespace Reader

section

variable {σ β ε ε' α γ : Type}

/-- Read with `f`, then go on with what it read. -/
def andThen (f : Reader σ ε α) (g : α → Reader σ ε γ) : Reader σ ε γ := fun s => do
  let (a, s) ← f s
  g a s

/-- `f` reads `a` off `bs`, whatever follows, and stops behind it. -/
def Reads (rest : σ → List β) (f : Reader σ ε α) (bs : List β) (a : α) : Prop :=
  ∀ s tail, rest s = bs ++ tail → ∃ s', f s = .ok (a, s') ∧ rest s' = tail

/-- `f` fails with `e` on an input that ends inside `bs`. -/
def CutBy (rest : σ → List β) (f : Reader σ ε α) (bs : List β) (e : ε) : Prop :=
  ∀ s back, rest s ++ back = bs → back ≠ [] → f s = .error e

variable {rest : σ → List β}

theorem reads_pure (a : α) : Reads rest (fun s => (.ok (a, s) : Except ε (α × σ))) [] a :=
  fun s _ hs => ⟨s, rfl, hs⟩

theorem cutBy_nil (f : Reader σ ε α) (e : ε) : CutBy rest f [] e := by
  intro s back hs hback
  exact absurd (List.append_eq_nil_iff.mp hs).2 hback

theorem Reads.andThen {f : Reader σ ε α} {g : α → Reader σ ε γ} {xs ys : List β} {a : α} {c : γ}
    (hf : Reads rest f xs a) (hg : Reads rest (g a) ys c) :
    Reads rest (f.andThen g) (xs ++ ys) c := by
  intro s tail hs
  rw [List.append_assoc] at hs
  obtain ⟨s₁, h₁, hs₁⟩ := hf s _ hs
  obtain ⟨s₂, h₂, hs₂⟩ := hg s₁ tail hs₁
  refine ⟨s₂, ?_, hs₂⟩
  simp only [Reader.andThen, h₁]
  exact h₂

/-- The input ends inside the first part, or behind it. -/
theorem CutBy.andThen {f : Reader σ ε α} {g : α → Reader σ ε γ} {xs ys : List β} {a : α} {e : ε}
    (hf : Reads rest f xs a) (hcut : CutBy rest f xs e) (hg : CutBy rest (g a) ys e) :
    CutBy rest (f.andThen g) (xs ++ ys) e := by
  intro s back hs hback
  rcases List.append_eq_append_iff.mp hs with ⟨m, hxs, hm⟩ | ⟨m, hrest, hys⟩
  · by_cases hnil : m = []
    · -- it ends exactly between the two
      subst hnil
      rw [List.append_nil] at hxs
      obtain ⟨s₁, h₁, hs₁⟩ := hf s [] (by rw [List.append_nil, hxs])
      have h₂ := hg s₁ ys (by rw [hs₁, List.nil_append]) (by rwa [← List.nil_append ys, ← hm])
      simp only [Reader.andThen, h₁]
      exact h₂
    · simp only [Reader.andThen, hcut s m hxs.symm hnil]
      rfl
  · obtain ⟨s₁, h₁, hs₁⟩ := hf s m hrest
    have h₂ := hg s₁ back (by rw [hs₁, hys]) hback
    simp only [Reader.andThen, h₁]
    exact h₂

theorem Reads.mapError {f : Reader σ ε α} {bs : List β} {a : α} (h : Reads rest f bs a)
    (k : ε → ε') : Reads rest (fun s => (f s).mapError k) bs a := by
  intro s tail hs
  obtain ⟨s', h', hs'⟩ := h s tail hs
  exact ⟨s', by simp only [h']; rfl, hs'⟩

theorem CutBy.mapError {f : Reader σ ε α} {bs : List β} {e : ε} (h : CutBy rest f bs e)
    (k : ε → ε') : CutBy rest (fun s => (f s).mapError k) bs (k e) := by
  intro s back hs hback
  show (f s).mapError k = _
  rw [h s back hs hback]
  rfl

/-- What is made of the value read. -/
theorem Reads.map {f : Reader σ ε α} {bs : List β} {a : α} (h : Reads rest f bs a) (k : α → γ) :
    Reads rest (f.andThen fun a s => .ok (k a, s)) bs (k a) := by
  have h := h.andThen (g := fun a s => .ok (k a, s)) (reads_pure (k a))
  rwa [List.append_nil] at h

theorem CutBy.map {f : Reader σ ε α} {bs : List β} {a : α} {e : ε} (h : Reads rest f bs a)
    (hcut : CutBy rest f bs e) (k : α → γ) :
    CutBy rest (f.andThen fun a s => .ok (k a, s)) bs e := by
  have h := CutBy.andThen (g := fun a s => .ok (k a, s)) h hcut (cutBy_nil _ e)
  rwa [List.append_nil] at h

/-- Whatever `f` reads was written by `put`. -/
def Takes (rest : σ → List β) (f : Reader σ ε α) (put : α → List β) : Prop :=
  ∀ s a s', f s = .ok (a, s') → rest s = put a ++ rest s'

theorem Takes.mapError {f : Reader σ ε α} {put : α → List β} (h : Takes rest f put) (k : ε → ε') :
    Takes rest (fun s => (f s).mapError k) put := by
  intro s a s' hs
  cases hf : f s with
  | error e =>
      simp only [hf] at hs
      cases hs
  | ok r =>
      simp only [hf, mapError_ok, Except.ok.injEq] at hs
      subst hs
      exact h s a s' hf

/-- What two readers one after the other have read. -/
theorem andThen_eq_ok {f : Reader σ ε α} {g : α → Reader σ ε γ} {s s' : σ} {c : γ}
    (h : f.andThen g s = .ok (c, s')) : ∃ a s₁, f s = .ok (a, s₁) ∧ g a s₁ = .ok (c, s') := by
  cases hf : f s with
  | error e =>
      simp only [Reader.andThen, hf] at h
      cases h
  | ok r =>
      simp only [Reader.andThen, hf] at h
      exact ⟨r.1, r.2, rfl, h⟩

end

end Reader

end TestGear
