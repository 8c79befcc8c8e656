import Mathlib.Data.List.Count
import Mathlib.Data.List.Nodup

/-!
# Raising things once

A table of marks keeps things from being raised twice: a thing that has a mark is not raised, any other is raised and
marked.  `Marks` is the table with the history of what was raised.  Marks may be deleted, so being marked is not the same
as having been raised; `Once x` says what keeps `x` from being raised again: it has its mark, or it is behind, where nothing
raises it any more.
-/

namespace ProxmoxTool

/-- The marks that stand, and everything raised so far. -/
structure Marks (α : Type) where
  standing : List α
  raised : List α

namespace Marks

variable {α : Type} [DecidableEq α]

def raise (m : Marks α) (x : α) : Marks α :=
  if x ∈ m.standing then m else ⟨m.standing ++ [x], m.raised ++ [x]⟩

def raiseAll (m : Marks α) (xs : List α) : Marks α := xs.foldl raise m

@[simp] theorem raiseAll_nil (m : Marks α) : m.raiseAll [] = m := rfl

@[simp] theorem raiseAll_cons (m : Marks α) (x : α) (xs : List α) : m.raiseAll (x :: xs) = (m.raise x).raiseAll xs := rfl

theorem mem_standing_raise {m : Marks α} {x y : α} : y ∈ (m.raise x).standing ↔ y ∈ m.standing ∨ y = x := by
  unfold raise
  split
  · rename_i h
    exact ⟨Or.inl, fun hy => hy.elim id fun heq => heq ▸ h⟩
  · simp

theorem mem_standing_raiseAll {m : Marks α} {xs : List α} {y : α} :
    y ∈ (m.raiseAll xs).standing ↔ y ∈ m.standing ∨ y ∈ xs := by
  induction xs generalizing m with
  | nil => simp
  | cons x xs ih => rw [raiseAll_cons, ih, mem_standing_raise, List.mem_cons, or_assoc]

theorem count_raise (m : Marks α) (x y : α) :
    (m.raise x).raised.count y = m.raised.count y + if y = x ∧ y ∉ m.standing then 1 else 0 := by
  unfold raise
  split
  · rename_i h
    rw [if_neg fun hy => hy.2 (hy.1 ▸ h), Nat.add_zero]
  · rename_i h
    rw [List.count_append, List.count_singleton]
    by_cases hy : y = x
    · simp [hy, h]
    · simp [hy, Ne.symm hy]

/-- A thing is raised if it is among those to be raised and has no mark. -/
theorem count_raiseAll (m : Marks α) (xs : List α) (y : α) :
    (m.raiseAll xs).raised.count y = m.raised.count y + if y ∈ xs ∧ y ∉ m.standing then 1 else 0 := by
  induction xs generalizing m with
  | nil => simp
  | cons x xs ih =>
    rw [raiseAll_cons, ih, count_raise, Nat.add_assoc]
    refine congrArg (m.raised.count y + ·) ?_
    by_cases hy : y = x
    · by_cases hm : y ∈ m.standing
      · have : y ∈ (m.raise x).standing := mem_standing_raise.2 (Or.inl hm)
        simp [hm, this]
      · have : y ∈ (m.raise x).standing := mem_standing_raise.2 (Or.inr hy)
        rw [if_pos ⟨hy, hm⟩, if_neg fun h => h.2 this, if_pos ⟨hy ▸ List.mem_cons_self, hm⟩]
    · simp [hy, mem_standing_raise]

theorem mem_raised_raiseAll {m : Marks α} {xs : List α} {y : α} :
    y ∈ (m.raiseAll xs).raised ↔ y ∈ m.raised ∨ (y ∈ xs ∧ y ∉ m.standing) := by
  rw [← List.count_pos_iff, ← List.count_pos_iff, count_raiseAll]
  split
  · rename_i h
    simp [h]
  · rename_i h
    simp [h]

/-- Nothing has been raised twice, exactly if nothing was before and what is raised once more has its mark. -/
theorem nodup_raiseAll (m : Marks α) (xs : List α) :
    (m.raiseAll xs).raised.Nodup ↔ m.raised.Nodup ∧ ∀ x ∈ xs, x ∈ m.raised → x ∈ m.standing := by
  simp only [List.nodup_iff_count_le_one, count_raiseAll]
  constructor
  · intro h
    refine ⟨fun y => Nat.le_trans (Nat.le_add_right _ _) (h y), fun x hx hraised => ?_⟩
    by_contra hstanding
    have hle := h x
    rw [if_pos ⟨hx, hstanding⟩] at hle
    have hpos := List.count_pos_iff.2 hraised
    omega
  · rintro ⟨hnodup, hmarked⟩ y
    split
    · rename_i hnew
      have hnot : y ∉ m.raised := fun hy => hnew.2 (hmarked y hnew.1 hy)
      have hzero := List.count_eq_zero_of_not_mem hnot
      omega
    · exact hnodup y

/-! ### Never again -/

/-- `x` has been raised at most once, and if it has been, then it has its mark or is behind. -/
structure Once (behind : Prop) (m : Marks α) (x : α) : Prop where
  count_le : m.raised.count x ≤ 1
  kept : x ∈ m.raised → x ∈ m.standing ∨ behind

/-- Raising keeps `x` raised once, as long as nothing behind is raised. -/
theorem Once.raiseAll {behind : Prop} {m : Marks α} {x : α} (h : Once behind m x) {xs : List α}
    (hxs : x ∈ xs → ¬ behind) : Once behind (m.raiseAll xs) x := by
  refine ⟨?_, fun hx => ?_⟩
  · rw [count_raiseAll]
    split
    · rename_i hnew
      have hnot : x ∉ m.raised := fun hx => (h.kept hx).elim hnew.2 (hxs hnew.1)
      have hzero := List.count_eq_zero_of_not_mem hnot
      omega
    · exact h.count_le
  · rcases mem_raised_raiseAll.1 hx with hx | hx
    · exact (h.kept hx).imp_left fun hs => mem_standing_raiseAll.2 (Or.inl hs)
    · exact Or.inl (mem_standing_raiseAll.2 (Or.inr hx.1))

/-- Marks of things that are behind may go. -/
theorem Once.forget {behind : Prop} {m : Marks α} {x : α} (h : Once behind m x) {standing : List α}
    (hgo : x ∈ m.standing → x ∈ standing ∨ behind) : Once behind ⟨standing, m.raised⟩ x :=
  ⟨h.count_le, fun hx => (h.kept hx).elim hgo Or.inr⟩

theorem Once.mono {behind behind' : Prop} {m : Marks α} {x : α} (h : Once behind m x) (himp : behind → behind') :
    Once behind' m x :=
  ⟨h.count_le, fun hx => (h.kept hx).imp_right himp⟩

/-- What is raised from in front stands as raised exactly once. -/
theorem Once.count_eq_one {behind : Prop} {m : Marks α} {x : α} (h : Once behind m x) {xs : List α} (hx : x ∈ xs)
    (hstanding : x ∈ m.standing → x ∈ m.raised) (hxs : ¬ behind) : (m.raiseAll xs).raised.count x = 1 := by
  refine Nat.le_antisymm (h.raiseAll fun _ => hxs).count_le ?_
  rw [Nat.one_le_iff_ne_zero, ← Nat.pos_iff_ne_zero, List.count_pos_iff, mem_raised_raiseAll]
  by_cases hs : x ∈ m.standing
  · exact Or.inl (hstanding hs)
  · exact Or.inr ⟨hx, hs⟩

end Marks

end ProxmoxTool
