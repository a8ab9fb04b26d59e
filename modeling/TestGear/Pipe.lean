import Mathlib.Data.List.Basic

/-!
# TestGear.Pipe

One direction of a stream connection: what has been sent on it, how much of
that the reader has taken, and whether the sender has ended it.  A reader that
finds nothing waits, and a read that would wait is `none`.

* `queue_send`, `append_queue_read` — what is sent goes to the end of the
  queue, and a read takes a non-empty beginning of it.
-/

namespace TestGear

structure Pipe (α : Type*) where
  sent : List α := []
  taken : Nat := 0
  ended : Bool := false
  le : taken ≤ sent.length := by simp

namespace Pipe

variable {α : Type*} {p q : Pipe α} {xs : List α} {n : Nat}

/-- What has been sent and not yet read. -/
def queue (p : Pipe α) : List α := p.sent.drop p.taken

/-- Nothing is sent behind the end. -/
def send (p : Pipe α) (xs : List α) : Option (Pipe α) :=
  if p.ended then none
  else
    some { p with
      sent := p.sent ++ xs
      le := by have := p.le; rw [List.length_append]; omega }

def finish (p : Pipe α) : Pipe α := { p with ended := true }

/-- A read of at most `n`. -/
def read (p : Pipe α) (n : Nat) : Option (List α × Pipe α) :=
  match p.queue.take n with
  | [] => none
  | x :: xs =>
      some (x :: xs, { p with
        taken := p.taken + min n p.queue.length
        le := by have := p.le; rw [queue, List.length_drop]; omega })

/-- All has been read, and no more will come. -/
def atEnd (p : Pipe α) : Bool := p.ended && p.queue.isEmpty

@[simp] theorem sent_finish (p : Pipe α) : p.finish.sent = p.sent := rfl

@[simp] theorem queue_finish (p : Pipe α) : p.finish.queue = p.queue := rfl

theorem sent_send (h : p.send xs = some q) : q.sent = p.sent ++ xs := by
  unfold send at h
  split at h
  · cases h
  · cases h
    rfl

theorem queue_send (h : p.send xs = some q) : q.queue = p.queue ++ xs := by
  unfold send at h
  split at h
  · cases h
  · cases h
    exact List.drop_append_of_le_length p.le

theorem sent_read (h : p.read n = some (xs, q)) : q.sent = p.sent := by
  unfold read at h
  split at h
  · cases h
  · cases h
    rfl

theorem ne_nil_of_read (h : p.read n = some (xs, q)) : xs ≠ [] := by
  unfold read at h
  split at h
  · cases h
  · cases h
    exact List.cons_ne_nil _ _

/-- A read takes from the front. -/
theorem append_queue_read (h : p.read n = some (xs, q)) : xs ++ q.queue = p.queue := by
  unfold read at h
  split at h
  · cases h
  · next y ys htake =>
      cases h
      have hrest : p.sent.drop (p.taken + min n p.queue.length) = p.queue.drop n := by
        rw [← List.drop_drop, ← queue]
        rcases Nat.le_total n p.queue.length with hle | hle
        · rw [Nat.min_eq_left hle]
        · rw [Nat.min_eq_right hle, List.drop_length, List.drop_of_length_le hle]
      rw [queue, ← htake, hrest, List.take_append_drop]

theorem queue_of_atEnd (h : p.atEnd = true) : p.queue = [] := by
  rw [atEnd, Bool.and_eq_true, List.isEmpty_iff] at h
  exact h.2

end Pipe

end TestGear
