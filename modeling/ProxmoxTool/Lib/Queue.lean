import Mathlib.Data.List.Basic

/-!
# Bounded queues

A first-in first-out queue with a bound on the number of items that wait in it.  The queue keeps everything that was ever
placed in it and how many of these the consumer has taken, so that what a consumer will have seen can be stated at any
time.  A put that meets a full queue is dropped.
-/

namespace ProxmoxTool

structure Queue (α : Type) where
  placed : List α := []
  taken : Nat := 0
  deriving DecidableEq, Repr

namespace Queue

variable {α : Type}

def full (maxsize : Nat) (q : Queue α) : Bool := decide (maxsize ≤ q.placed.length - q.taken)

/-- `put_nowait`, with `queue.Full` swallowed. -/
def putNowait (maxsize : Nat) (q : Queue α) (x : α) : Queue α :=
  if q.full maxsize then q else { q with placed := q.placed ++ [x] }

/-- The consumer takes the item that has waited longest. -/
def get (q : Queue α) : Option (Queue α) :=
  if q.taken < q.placed.length then some { q with taken := q.taken + 1 } else none

theorem placed_putNowait {maxsize : Nat} {q : Queue α} (h : q.full maxsize = false) (x : α) :
    (q.putNowait maxsize x).placed = q.placed ++ [x] := by
  rw [putNowait, h]
  rfl

theorem placed_get {q q' : Queue α} (h : q.get = some q') : q'.placed = q.placed := by
  unfold get at h
  split at h
  · cases h
    rfl
  · cases h

/-- What a put places, in an empty queue or a full one, is the item or nothing. -/
theorem mem_placed_putNowait {maxsize : Nat} {q : Queue α} {x y : α} (h : y ∈ (q.putNowait maxsize x).placed) :
    y ∈ q.placed ∨ y = x := by
  unfold putNowait at h
  split at h
  · exact Or.inl h
  · simpa using h

end Queue

end ProxmoxTool
