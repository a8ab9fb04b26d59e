import Mathlib

/-!
# TestGear.Regex

Regular expressions as a backtracking engine runs them.  A pattern turns a
`Thread`, a place in the input with the groups captured so far, into all threads
it can become, in the order in which the engine would try them; what a match
returns is the first (`Regex.match?`).  So greedy and lazy repetition differ in
the order only, and a look-ahead asks whether there is any thread at all.

* `mem_language_of_mem_run` — what a pattern consumes is a word of its language;
* `lookup_group` — a group that every word passes takes part in
  every match.

This module names nothing of the tools that use it.
-/

namespace TestGear

/-- A place in the input, and what the groups have captured, the latest first. -/
structure Thread (α : Type) where
  /-- What stands before this place, the nearest first. -/
  seen : List α
  rest : List α
  groups : List (Nat × List α)
deriving DecidableEq, Repr

/-- Patterns over an alphabet. -/
inductive Regex (α : Type) where
  | fail
  | empty
  /-- A character class. -/
  | one (p : α → Bool)
  | seq (r s : Regex α)
  | alt (r s : Regex α)
  /-- Repetition, any number of times. -/
  | star (greedy : Bool) (r : Regex α)
  /-- The group with number `n`. -/
  | group (n : Nat) (r : Regex α)
  /-- Negative look-ahead. -/
  | notAhead (r : Regex α)
  /-- A condition on what stands before a place and behind it. -/
  | assert (p : List α → List α → Bool)

namespace Thread

variable {α : Type}

/-- What group `n` captured last; nothing if it took no part. -/
def group (t : Thread α) (n : Nat) : List α := (t.groups.lookup n).getD []

/-- One character that satisfies `p`. -/
def advance (p : α → Bool) (t : Thread α) : List (Thread α) :=
  match t.rest with
  | [] => []
  | c :: cs => if p c then [⟨c :: t.seen, cs, t.groups⟩] else []

/-- `step` again and again, each time further on, for at most `rounds` rounds. -/
def iterate (greedy : Bool) (step : Thread α → List (Thread α)) :
    (rounds : Nat) → Thread α → List (Thread α)
  | 0, t => [t]
  | rounds + 1, t =>
      let more := ((step t).filter (·.rest.length < t.rest.length)).flatMap
        (iterate greedy step rounds)
      if greedy then more ++ [t] else t :: more

/-- What was read to come from `t` to `t'`. -/
def between (t t' : Thread α) : List α := t.rest.take (t.rest.length - t'.rest.length)

end Thread

namespace Regex

variable {α : Type}

/-- The threads a pattern leads to, the engine's first choice first.  A
repetition cannot go round more often than there are characters left. -/
def run : Regex α → Thread α → List (Thread α)
  | fail, _ => []
  | empty, t => [t]
  | one p, t => t.advance p
  | seq r s, t => (run r t).flatMap (run s)
  | alt r s, t => run r t ++ run s t
  | star greedy r, t => Thread.iterate greedy (run r) t.rest.length t
  | group n r, t => (run r t).map fun t' => { t' with groups := (n, t.between t') :: t'.groups }
  | notAhead r, t => if (run r t).isEmpty then [t] else []
  | assert p, t => if p t.seen t.rest then [t] else []

/-- `re.match`: a match that begins where the input begins. -/
def match? (r : Regex α) (xs : List α) : Option (Thread α) := (run r ⟨[], xs, []⟩).head?

/-- One pattern behind the other. -/
def seqs (rs : List (Regex α)) : Regex α := rs.foldr seq empty

/-- One of the patterns, an earlier one preferred. -/
def alts (rs : List (Regex α)) : Regex α := rs.foldr alt fail

/-- Once or not at all, preferably once. -/
def opt (r : Regex α) : Regex α := alt r empty

/-- At least once, preferably more often. -/
def plus (r : Regex α) : Regex α := seq r (star true r)

/-- The start of the input. -/
def start : Regex α := assert fun seen _ => seen.isEmpty

/-- The end of the input, or the line feed it ends in. -/
def stop : Regex Char := assert fun _ rest => rest.isEmpty || rest == ['\n']

/-- One given character after the other. -/
def word [DecidableEq α] (cs : List α) : Regex α := seqs (cs.map fun c => one (· == c))

/-! ## Languages -/

open scoped Computability in
/-- The words a pattern can consume, whatever stands around them. -/
def language : Regex α → Language α
  | fail => 0
  | empty => 1
  | one p => {w | ∃ c, p c = true ∧ w = [c]}
  | seq r s => language r * language s
  | alt r s => language r + language s
  | star _ r => (language r)∗
  | group _ r => language r
  | notAhead _ => 1
  | assert _ => 1

/-- `t'` is `w` further on than `t`. -/
def Consumes (t : Thread α) (w : List α) (t' : Thread α) : Prop := t.rest = w ++ t'.rest

theorem eq_of_mem_ite {b : Bool} {t t' : Thread α} (h : t' ∈ if b then [t] else []) :
    b = true ∧ t' = t := by
  cases b with
  | true => exact ⟨rfl, List.mem_singleton.mp h⟩
  | false => cases h

theorem mem_advance {p : α → Bool} {t t' : Thread α} (h : t' ∈ t.advance p) :
    ∃ c, p c = true ∧ Consumes t [c] t' ∧ t'.groups = t.groups := by
  rw [Thread.advance] at h
  split at h
  · cases h
  · next c cs hrest =>
      obtain ⟨hp, rfl⟩ := eq_of_mem_ite h
      exact ⟨c, hp, hrest, rfl⟩

/-- Repetition is a sequence of steps. -/
theorem reflTransGen_of_mem_iterate {greedy : Bool} {step : Thread α → List (Thread α)}
    {t t' : Thread α} (h : t' ∈ Thread.iterate greedy step rounds t) :
    Relation.ReflTransGen (fun t t' => t' ∈ step t) t t' := by
  induction rounds generalizing t with
  | zero =>
      obtain rfl := List.mem_singleton.mp h
      exact .refl
  | succ rounds ih =>
      have hmore (h : t' ∈ ((step t).filter (·.rest.length < t.rest.length)).flatMap
          (Thread.iterate greedy step rounds)) :
          Relation.ReflTransGen (fun t t' => t' ∈ step t) t t' := by
        obtain ⟨t₁, h₁, h⟩ := List.mem_flatMap.mp h
        exact .head (List.mem_of_mem_filter h₁) (ih h)
      rw [Thread.iterate] at h
      cases greedy with
      | true =>
          rcases List.mem_append.mp h with h | h
          · exact hmore h
          · obtain rfl := List.mem_singleton.mp h
            exact .refl
      | false =>
          rcases List.mem_cons.mp h with rfl | h
          · exact .refl
          · exact hmore h

/-- **What a pattern consumes** is a word of its language. -/
theorem mem_language_of_mem_run {r : Regex α} {t t' : Thread α} (h : t' ∈ run r t) :
    ∃ w ∈ language r, Consumes t w t' := by
  induction r generalizing t t' with
  | fail => cases h
  | empty =>
      obtain rfl := List.mem_singleton.mp h
      exact ⟨[], Language.nil_mem_one, rfl⟩
  | one p =>
      obtain ⟨c, hc, ht, -⟩ := mem_advance h
      exact ⟨[c], ⟨c, hc, rfl⟩, ht⟩
  | seq r s ihr ihs =>
      obtain ⟨t₁, h₁, h⟩ := List.mem_flatMap.mp h
      obtain ⟨u, hu, htu⟩ := ihr h₁
      obtain ⟨v, hv, htv⟩ := ihs h
      refine ⟨u ++ v, Language.append_mem_mul hu hv, ?_⟩
      rw [Consumes, htu, htv, List.append_assoc]
  | alt r s ihr ihs =>
      rcases List.mem_append.mp h with h | h
      · obtain ⟨w, hw, ht⟩ := ihr h
        exact ⟨w, (Language.mem_add _ _ _).mpr (.inl hw), ht⟩
      · obtain ⟨w, hw, ht⟩ := ihs h
        exact ⟨w, (Language.mem_add _ _ _).mpr (.inr hw), ht⟩
  | star greedy r ih =>
      have hsteps := reflTransGen_of_mem_iterate h
      clear h
      induction hsteps using Relation.ReflTransGen.head_induction_on with
      | refl => exact ⟨[], Language.nil_mem_kstar _, rfl⟩
      | head h₁ _ ih' =>
          obtain ⟨u, hu, htu⟩ := ih h₁
          obtain ⟨v, hv, htv⟩ := ih'
          obtain ⟨ws, rfl, hws⟩ := Language.mem_kstar.mp hv
          refine ⟨u ++ ws.flatten, Language.mem_kstar.mpr ⟨u :: ws, rfl, ?_⟩, ?_⟩
          · exact List.forall_mem_cons.mpr ⟨hu, hws⟩
          · rw [Consumes, htu, htv, List.append_assoc]
  | group n r ih =>
      obtain ⟨t₁, h₁, rfl⟩ := List.mem_map.mp h
      obtain ⟨w, hw, ht⟩ := ih h₁
      exact ⟨w, hw, ht⟩
  | notAhead r ih =>
      obtain ⟨-, rfl⟩ := eq_of_mem_ite h
      exact ⟨[], Language.nil_mem_one, rfl⟩
  | assert p =>
      obtain ⟨-, rfl⟩ := eq_of_mem_ite h
      exact ⟨[], Language.nil_mem_one, rfl⟩

theorem mem_language_seqs_cons {r : Regex α} {rs : List (Regex α)} {w : List α} :
    w ∈ language (seqs (r :: rs)) ↔ ∃ u ∈ language r, ∃ v ∈ language (seqs rs), u ++ v = w :=
  Language.mem_mul

theorem mem_language_opt {r : Regex α} {w : List α} :
    w ∈ language (opt r) ↔ w ∈ language r ∨ w = [] := Iff.rfl

theorem mem_language_alts {rs : List (Regex α)} {w : List α} :
    w ∈ language (alts rs) ↔ ∃ r ∈ rs, w ∈ language r := by
  induction rs with
  | nil =>
      refine ⟨fun h => h.elim, ?_⟩
      rintro ⟨r, hr, -⟩
      cases hr
  | cons r rs ih =>
      rw [List.exists_mem_cons_iff, ← ih]
      rfl

theorem mem_language_word [DecidableEq α] {cs w : List α} : w ∈ language (word cs) ↔ w = cs := by
  induction cs generalizing w with
  | nil => exact Iff.rfl
  | cons c cs ih =>
      rw [word, List.map_cons, mem_language_seqs_cons]
      constructor
      · rintro ⟨u, ⟨d, hd, rfl⟩, v, hv, rfl⟩
        rw [ih.mp hv, beq_iff_eq.mp hd]
        rfl
      · rintro rfl
        exact ⟨[c], ⟨c, beq_self_eq_true c, rfl⟩, cs, ih.mpr rfl, rfl⟩

/-- A character class, repeated. -/
theorem forall_of_mem_language_star {greedy : Bool} {p : α → Bool} {w : List α}
    (h : w ∈ language (star greedy (one p))) : ∀ c ∈ w, p c = true := by
  obtain ⟨ws, rfl, hws⟩ := Language.mem_kstar.mp h
  intro c hc
  obtain ⟨u, hu, hcu⟩ := List.mem_flatten.mp hc
  obtain ⟨d, hd, rfl⟩ := hws u hu
  rw [List.mem_singleton.mp hcu]
  exact hd

theorem mem_language_plus {r : Regex α} {w : List α} (h : w ∈ language (plus r)) :
    ∃ u ∈ language r, ∃ v, u ++ v = w := by
  obtain ⟨u, hu, v, -, huv⟩ := Language.mem_mul.mp h
  exact ⟨u, hu, v, huv⟩

/-- What a match stands on. -/
theorem exists_of_match? {r : Regex α} {xs : List α} {t : Thread α} (h : match? r xs = some t) :
    ∃ w ∈ language r, xs = w ++ t.rest :=
  mem_language_of_mem_run (List.mem_of_head? h)

/-! ## Groups -/

/-- Does every word pass group `n`? -/
def passes (n : Nat) : Regex α → Bool
  | seq r s => passes n r || passes n s
  | alt r s => passes n r && passes n s
  | group m r => m == n || passes n r
  | _ => false

/-- No pattern forgets what a group has captured. -/
theorem suffix_of_mem_run {r : Regex α} {t t' : Thread α} (h : t' ∈ run r t) :
    t.groups <:+ t'.groups := by
  induction r generalizing t t' with
  | fail => cases h
  | empty =>
      obtain rfl := List.mem_singleton.mp h
      exact List.suffix_refl _
  | one p =>
      obtain ⟨c, -, -, hgroups⟩ := mem_advance h
      exact hgroups ▸ List.suffix_refl _
  | seq r s ihr ihs =>
      obtain ⟨t₁, h₁, h⟩ := List.mem_flatMap.mp h
      exact (ihr h₁).trans (ihs h)
  | alt r s ihr ihs =>
      rcases List.mem_append.mp h with h | h
      · exact ihr h
      · exact ihs h
  | star greedy r ih =>
      have hsteps := reflTransGen_of_mem_iterate h
      clear h
      induction hsteps with
      | refl => exact List.suffix_refl _
      | tail _ h₁ ih' => exact ih'.trans (ih h₁)
  | group n r ih =>
      obtain ⟨t₁, h₁, rfl⟩ := List.mem_map.mp h
      exact (ih h₁).trans (List.suffix_cons _ _)
  | notAhead r ih =>
      obtain ⟨-, rfl⟩ := eq_of_mem_ite h
      exact List.suffix_refl _
  | assert p =>
      obtain ⟨-, rfl⟩ := eq_of_mem_ite h
      exact List.suffix_refl _

theorem mem_groups_of_passes {r : Regex α} {t t' : Thread α} (hr : passes n r = true)
    (h : t' ∈ run r t) : n ∈ t'.groups.map Prod.fst := by
  induction r generalizing t t' with
  | seq r s ihr ihs =>
      obtain ⟨t₁, h₁, h⟩ := List.mem_flatMap.mp h
      rcases Bool.or_eq_true_iff.mp hr with hr | hs
      · exact ((suffix_of_mem_run h).map Prod.fst).subset (ihr hr h₁)
      · exact ihs hs h
  | alt r s ihr ihs =>
      obtain ⟨hr, hs⟩ := Bool.and_eq_true_iff.mp hr
      rcases List.mem_append.mp h with h | h
      · exact ihr hr h
      · exact ihs hs h
  | group m r ih =>
      obtain ⟨t₁, h₁, rfl⟩ := List.mem_map.mp h
      rcases Bool.or_eq_true_iff.mp hr with hm | hr
      · rw [← beq_iff_eq.mp hm]
        exact List.mem_cons_self
      · exact List.mem_cons_of_mem _ (ih hr h₁)
  | _ => cases hr

/-- **A group that every word passes** takes part in every match. -/
theorem lookup_group {r : Regex α} {xs : List α} {t : Thread α} (hr : passes n r = true)
    (h : match? r xs = some t) : t.groups.lookup n = some (t.group n) := by
  have hmem := mem_groups_of_passes hr (List.mem_of_head? h)
  rw [Thread.group]
  cases hlookup : t.groups.lookup n with
  | some w => rfl
  | none =>
      obtain ⟨⟨m, w⟩, hmw, rfl⟩ := List.mem_map.mp hmem
      have hne := List.lookup_eq_none_iff.mp hlookup _ hmw
      simp at hne

end Regex

end TestGear
