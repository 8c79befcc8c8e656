import Mathlib.Data.Char
import Mathlib.Data.List.Lex
import Mathlib.Data.Sum.Order
import Mathlib.Data.Prod.Lex
import Mathlib.Order.WithBot
import Mathlib.Tactic.Common

/-!
# The order of versions

Two orders of words that a separator joins: the order of the joined texts, and the order of the lists of what the words are read as.  They
agree exactly if they agree at the first words that differ (`behind_lt_iff_map_lt_iff`), where the separator itself counts too: a word that
ends before the separator stands above one that goes on with a letter below the separator.  The precedence of versions compares the numbers,
and then what is in front of the release, by identifiers.
-/

namespace ProxmoxTool

namespace Joined

variable {α ι : Type} [LinearOrder α] [LinearOrder ι] (d : α) (f : List α → ι)

/-- The words, each one behind a separator. -/
def behind : List (List α) → List α
  | [] => []
  | x :: xs => d :: (x ++ behind xs)

/-- `y` goes on behind `x` with a letter below the separator, and words follow `x`. -/
def Cuts (x y : List α) (xs : List (List α)) : Prop := xs ≠ [] ∧ ∃ c t, y = x ++ c :: t ∧ c < d

/-- `x` with the words `xs` behind it comes before a different word `y` with the words `ys` behind it. -/
def Earlier (x : List α) (xs : List (List α)) (y : List α) (ys : List (List α)) : Prop := Cuts d y x ys ∨ x < y ∧ ¬ Cuts d x y xs

/-- At the first words that differ, the order of the text is the order of what is read. -/
def SameOrder : List (List α) → List (List α) → Prop
  | x :: xs, y :: ys => if x = y then SameOrder xs ys else (Earlier d y ys x xs ↔ f y < f x ∨ f y = f x ∧ ys.map f < xs.map f)
  | _, _ => True

omit [LinearOrder α] in
theorem intercalate_cons (x : List α) (xs : List (List α)) : [d].intercalate (x :: xs) = x ++ behind d xs := by
  induction xs generalizing x with
  | nil => simp [behind]
  | cons y xs ih => rw [List.intercalate_cons_cons, ih, behind, List.append_assoc, List.singleton_append]

@[simp] theorem cuts_cons_cons {c e : α} {x y : List α} {xs : List (List α)} :
    Cuts d (c :: x) (e :: y) xs ↔ c = e ∧ Cuts d x y xs := by
  simp only [Cuts, List.cons_append, List.cons.injEq]
  constructor
  · rintro ⟨hxs, b, t, ⟨rfl, rfl⟩, hb⟩
    exact ⟨rfl, hxs, b, t, rfl, hb⟩
  · rintro ⟨rfl, hxs, b, t, rfl, hb⟩
    exact ⟨hxs, b, t, ⟨rfl, rfl⟩, hb⟩

@[simp] theorem cuts_nil_cons {c : α} {y : List α} {xs : List (List α)} : Cuts d [] (c :: y) xs ↔ xs ≠ [] ∧ c < d := by
  simp [Cuts]

@[simp] theorem not_cuts_nil {x : List α} {xs : List (List α)} : ¬ Cuts d x [] xs := by
  simp [Cuts]

theorem append_lt_append_left (x s t : List α) : x ++ s < x ++ t ↔ s < t := by
  induction x with
  | nil => rfl
  | cons c x ih => rw [List.cons_append, List.cons_append, List.cons_lt_cons_self, ih]

/-- The texts at the first words that differ. -/
theorem append_behind_lt_iff {x y : List α} (hxy : x ≠ y) (hx : d ∉ x) (hy : d ∉ y) (xs ys : List (List α)) :
    x ++ behind d xs < y ++ behind d ys ↔ Earlier d x xs y ys := by
  induction x generalizing y with
  | nil =>
    obtain ⟨c, t, rfl⟩ := List.exists_cons_of_ne_nil hxy.symm
    have hc : d ≠ c := fun h => hy (h ▸ List.mem_cons_self)
    cases xs with
    | nil => simp [Earlier, behind]
    | cons x' xs => simp [Earlier, behind, List.cons_lt_cons_iff, hc, hc.le_iff_lt]
  | cons c x ih =>
    have hc : c ≠ d := fun h => hx (h ▸ List.mem_cons_self)
    cases y with
    | nil =>
      cases ys with
      | nil => simp [Earlier, behind]
      | cons y' ys => simp [Earlier, behind, List.cons_lt_cons_iff, hc]
    | cons e y =>
      rw [List.cons_append, List.cons_append, List.cons_lt_cons_iff]
      by_cases hce : c = e
      · subst hce
        have hrest := ih (fun h => hxy (congrArg _ h)) (fun h => hx (List.mem_cons_of_mem _ h)) (fun h => hy (List.mem_cons_of_mem _ h))
        simp [Earlier, hrest]
      · simp [Earlier, hce, Ne.symm hce, List.cons_lt_cons_iff]

theorem behind_lt_iff_map_lt_iff (xs ys : List (List α)) (hxs : ∀ x ∈ xs, d ∉ x) (hys : ∀ y ∈ ys, d ∉ y) :
    (behind d ys < behind d xs ↔ ys.map f < xs.map f) ↔ SameOrder d f xs ys := by
  induction xs generalizing ys with
  | nil => simp [SameOrder, behind]
  | cons x xs ih =>
    cases ys with
    | nil => simp [SameOrder, behind]
    | cons y ys =>
      have hx := hxs x List.mem_cons_self
      have hy := hys y List.mem_cons_self
      rw [behind, behind, List.cons_lt_cons_self, List.map_cons, List.map_cons, List.cons_lt_cons_iff, SameOrder]
      split_ifs with h
      · subst h
        rw [append_lt_append_left, ← ih ys (fun w hw => hxs w (List.mem_cons_of_mem _ hw)) (fun w hw => hys w (List.mem_cons_of_mem _ hw))]
        simp
      · rw [append_behind_lt_iff d (Ne.symm h) hy hx]

/-- The same for texts with a separator only between the words. -/
theorem intercalate_lt_iff_map_lt_iff {xs ys : List (List α)} (hxs : ∀ x ∈ xs, d ∉ x) (hys : ∀ y ∈ ys, d ∉ y)
    (hxs0 : xs ≠ []) (hys0 : ys ≠ []) :
    ([d].intercalate ys < [d].intercalate xs ↔ ys.map f < xs.map f) ↔ SameOrder d f xs ys := by
  rw [← behind_lt_iff_map_lt_iff d f xs ys hxs hys]
  obtain ⟨x, xs, rfl⟩ := List.exists_cons_of_ne_nil hxs0
  obtain ⟨y, ys, rfl⟩ := List.exists_cons_of_ne_nil hys0
  rw [intercalate_cons, intercalate_cons, behind, behind, List.cons_lt_cons_self]

theorem not_mem_of_mem_splitOn {t : List α} {x : List α} (hx : x ∈ t.splitOn d) : d ∉ x := by
  induction t generalizing x with
  | nil =>
    rw [List.splitOn_nil, List.mem_singleton] at hx
    simp [hx]
  | cons c t ih =>
    rw [List.splitOn_cons_eq_if_modifyHead] at hx
    split_ifs at hx with hc
    · rcases List.mem_cons.1 hx with rfl | hx
      · exact List.not_mem_nil
      · exact ih hx
    · obtain ⟨y, ys, hys⟩ := List.exists_cons_of_ne_nil (List.splitOn_ne_nil d t)
      rw [hys, List.modifyHead_cons, List.mem_cons] at hx
      rcases hx with rfl | hx
      · have hy := ih (hys ▸ List.mem_cons_self)
        simpa [hy] using fun h => hc (beq_iff_eq.2 h.symm)
      · exact ih (hys ▸ List.mem_cons_of_mem _ hx)

/-- Two texts, read at their separators. -/
theorem lt_iff_map_splitOn_lt_iff (s t : List α) :
    (t < s ↔ (t.splitOn d).map f < (s.splitOn d).map f) ↔ SameOrder d f (s.splitOn d) (t.splitOn d) := by
  have h := intercalate_lt_iff_map_lt_iff d f (fun _ => not_mem_of_mem_splitOn d) (fun _ => not_mem_of_mem_splitOn d)
    (List.splitOn_ne_nil d s) (List.splitOn_ne_nil d t)
  rwa [List.intercalate_splitOn, List.intercalate_splitOn] at h

end Joined

namespace SemVer

/-- An identifier: a number is below every other one. -/
abbrev Ident := ℕ ⊕ₗ List Char

/-- The numbers, and what is in front of the release; the release itself is above that. -/
abbrev Precedence (ι : Type) := List ℕ ×ₗ WithTop ι

def precedence {ι : Type} (numbers : List ℕ) (pre : Option ι) : Precedence ι := toLex (numbers, pre)

variable {ι : Type} [LinearOrder ι]

theorem precedence_lt_iff {m n : List ℕ} {p q : Option ι} :
    precedence m p < precedence n q ↔ m < n ∨ m = n ∧ ((∃ x, p = some x ∧ q = none) ∨ ∃ x y, p = some x ∧ q = some y ∧ x < y) := by
  rw [precedence, precedence, Prod.Lex.toLex_lt_toLex]
  refine or_congr_right (and_congr_right fun _ => ?_)
  cases p with
  | none => exact iff_of_false (not_top_lt : ¬ (⊤ : WithTop ι) < q) (by simp)
  | some x =>
    cases q with
    | none => exact iff_of_true (WithTop.coe_lt_top x) (Or.inl ⟨x, rfl, rfl⟩)
    | some y =>
      have h : (x : WithTop ι) < y ↔ x < y := WithTop.coe_lt_coe
      constructor
      · exact fun hlt => Or.inr ⟨x, y, rfl, rfl, h.1 hlt⟩
      · rintro (⟨_, _, h0⟩ | ⟨_, _, h1, h2, hlt⟩)
        · cases h0
        · cases h1
          cases h2
          exact h.2 hlt

/-- Two ways to compare what is in front of the release give the same order of two versions exactly if they agree on these two, should
their numbers be the same. -/
theorem precedence_map_lt_iff {κ : Type} [LinearOrder κ] (f : ι → κ) (m n : List ℕ) (p q : Option ι) :
    (precedence n q < precedence m p ↔ precedence n (q.map f) < precedence m (p.map f)) ↔
      (m = n → ∀ x ∈ p, ∀ y ∈ q, (y < x ↔ f y < f x)) := by
  rw [precedence_lt_iff, precedence_lt_iff]
  by_cases hmn : m = n
  · subst hmn
    cases p <;> cases q <;> simp
  · simp [hmn, Ne.symm hmn]

/-- The same numbers behind both count for nothing. -/
theorem precedence_append_lt_iff (z : List ℕ) {m n : List ℕ} (h : m.length = n.length) (p q : Option ι) :
    precedence (m ++ z) p < precedence (n ++ z) q ↔ precedence m p < precedence n q := by
  have hlt : m ++ z < n ++ z ↔ m < n := by
    induction m generalizing n with
    | nil =>
      obtain rfl := List.length_eq_zero_iff.1 h.symm
      simp
    | cons x m ih =>
      obtain ⟨y, n, rfl⟩ := List.exists_of_length_succ n h.symm
      rw [List.cons_append, List.cons_append, List.cons_lt_cons_iff, List.cons_lt_cons_iff, ih (Nat.succ.inj h)]
  rw [precedence_lt_iff, precedence_lt_iff, hlt, List.append_left_inj]

end SemVer

end ProxmoxTool
