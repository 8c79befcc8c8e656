import Mathlib.Logic.Function.Basic

/-!
# Reservations of slots by numbered tokens

Threads reserve slots (one for every key), and each reservation is given a fresh number.  `hold x` is the slot a thread
in place `x` counts on, with the number of its reservation, and `own x` also covers a slot it no longer counts on but
may still write to.  `live k j` says that slot `k` is in the state the holder of reservation `j` expects.  `Inv` is the
invariant behind mutual exclusion; each rule says what one kind of step does to it.
-/

namespace ProxmoxTool.Slots

variable {π κ : Type} {hold own : π → Option (κ × Nat)} {live live' : κ → Nat → Prop} {next : Nat} {procs : Nat → π}

structure Inv (hold own : π → Option (κ × Nat)) (live : κ → Nat → Prop) (next : Nat) (procs : Nat → π) : Prop where
  record : ∀ p k j, hold (procs p) = some (k, j) → live k j
  fresh : ∀ p k j, own (procs p) = some (k, j) → j < next
  sole : ∀ p q k l j, own (procs p) = some (k, j) → own (procs q) = some (l, j) → p = q

/-- Two holders of one slot are one thread: they count on the same reservation. -/
theorem Inv.holder_unique (hI : Inv hold own live next procs) (hsub : ∀ x y, hold x = some y → own x = some y)
    (hlive : ∀ k i j, live k i → live k j → i = j) {p q : Nat} {k : κ} {i j : Nat}
    (hp : hold (procs p) = some (k, i)) (hq : hold (procs q) = some (k, j)) : p = q := by
  obtain rfl : i = j := hlive k i j (hI.record p k i hp) (hI.record q k j hq)
  exact hI.sole p q k k i (hsub _ _ hp) (hsub _ _ hq)

/-- A thread moves and counts at most on a slot that is as it expects; the reservation was its own before. -/
theorem Inv.retake (hI : Inv hold own live next procs) {p : Nat} {x : π} (hh : ∀ k j, hold x = some (k, j) → live k j)
    (ho : own x = none ∨ own x = own (procs p)) : Inv hold own live next (Function.update procs p x) := by
  have ownBack : ∀ q y, own (Function.update procs p x q) = some y → own (procs q) = some y := by
    intro q y hy
    by_cases hq : q = p
    · subst hq
      rcases ho with ho | ho <;> simp_all
    · simpa [hq] using hy
  refine ⟨fun q k j hq => ?_, fun q k j hq => hI.fresh q k j (ownBack q _ hq),
    fun q r k l j hq hr => hI.sole q r k l j (ownBack q _ hq) (ownBack r _ hr)⟩
  by_cases hqp : q = p
  · exact hh k j (by simpa [hqp] using hq)
  · exact hI.record q k j (by simpa [hqp] using hq)

/-- A thread moves and counts on nothing it did not count on before. -/
theorem Inv.move (hI : Inv hold own live next procs) {p : Nat} {x : π} (hh : hold x = none ∨ hold x = hold (procs p))
    (ho : own x = none ∨ own x = own (procs p)) : Inv hold own live next (Function.update procs p x) := by
  refine hI.retake (fun k j hx => ?_) ho
  rcases hh with hh | hh
  · simp [hh] at hx
  · exact hI.record p k j (hh ▸ hx)

/-- Slots change, but not for their holders. -/
theorem Inv.change (hI : Inv hold own live next procs)
    (h : ∀ p k j, hold (procs p) = some (k, j) → live k j → live' k j) : Inv hold own live' next procs :=
  ⟨fun p k j hp => h p k j hp (hI.record p k j hp), hI.fresh, hI.sole⟩

/-- A thread reserves a slot that nobody holds. -/
theorem Inv.reserve (hI : Inv hold own live next procs) {p : Nat} {k : κ} {x : π}
    (hsub : ∀ x y, hold x = some y → own x = some y) (hno : ∀ q j, hold (procs q) ≠ some (k, j)) (hh : hold x = some (k, next))
    (hlive : live' k next) (hrest : ∀ k' j, j < next → k' ≠ k → live k' j → live' k' j) :
    Inv hold own live' (next + 1) (Function.update procs p x) := by
  have ho : own x = some (k, next) := hsub _ _ hh
  constructor
  · intro q k' j hq
    by_cases hqp : q = p
    · obtain ⟨rfl, rfl⟩ : k = k' ∧ next = j := by simpa [hqp, hh] using hq
      exact hlive
    · have hq : hold (procs q) = some (k', j) := by simpa [hqp] using hq
      have hne : k' ≠ k := fun e => hno q j (e ▸ hq)
      exact hrest k' j (hI.fresh q k' j (hsub _ _ hq)) hne (hI.record q k' j hq)
  · intro q k' j hq
    by_cases hqp : q = p
    · obtain ⟨rfl, rfl⟩ : k = k' ∧ next = j := by simpa [hqp, ho] using hq
      exact Nat.lt_succ_self next
    · exact Nat.lt_succ_of_lt (hI.fresh q k' j (by simpa [hqp] using hq))
  · intro q r k' l j hq hr
    by_cases hqp : q = p <;> by_cases hrp : r = p
    · rw [hqp, hrp]
    · obtain ⟨rfl, rfl⟩ : k = k' ∧ next = j := by simpa [hqp, ho] using hq
      exact absurd (hI.fresh r l next (by simpa [hrp] using hr)) (Nat.lt_irrefl next)
    · obtain ⟨rfl, rfl⟩ : k = l ∧ next = j := by simpa [hrp, ho] using hr
      exact absurd (hI.fresh q k' next (by simpa [hqp] using hq)) (Nat.lt_irrefl next)
    · exact hI.sole q r k' l j (by simpa [hqp] using hq) (by simpa [hrp] using hr)

end ProxmoxTool.Slots
