import Mathlib

/-!
# The longest suffix within a bound

A buffer of items, each with a weight, that keeps the longest suffix of its input whose total weight is at most a bound.  It can be kept up
item by item: the longest suffix of the input with a new item at the end is the one of what was kept, with the item at the end
(`IsLongest.concat`).
-/

namespace ProxmoxTool.LongestSuffix

variable {α : Type} (weight : α → Nat) (bound : Nat)

def total (xs : List α) : Nat := (xs.map weight).sum

/-- `ys` is the longest suffix of `xs` within the bound. -/
structure IsLongest (xs ys : List α) : Prop where
  suffix : ys <:+ xs
  fits : total weight ys ≤ bound
  longest : ∀ zs, zs <:+ xs → total weight zs ≤ bound → zs <:+ ys

variable {weight bound}

@[simp] theorem total_nil : total weight [] = 0 := rfl

@[simp] theorem total_cons (x : α) (xs : List α) : total weight (x :: xs) = weight x + total weight xs := by
  simp [total]

@[simp] theorem total_append (xs ys : List α) : total weight (xs ++ ys) = total weight xs + total weight ys := by
  simp [total]

theorem isLongest_self {xs : List α} (h : total weight xs ≤ bound) : IsLongest weight bound xs xs where
  suffix := List.suffix_rfl
  fits := h
  longest _ hzs _ := hzs

/-- What does not fit has the longest suffix of its tail. -/
theorem IsLongest.cons {x : α} {xs ys : List α} (h : IsLongest weight bound xs ys) (hover : bound < total weight (x :: xs)) :
    IsLongest weight bound (x :: xs) ys where
  suffix := h.suffix.trans (List.suffix_cons x xs)
  fits := h.fits
  longest := by
    intro zs hzs hfits
    rcases List.suffix_cons_iff.1 hzs with rfl | hzs
    · omega
    · exact h.longest zs hzs hfits

/-- A new item at the end. -/
theorem IsLongest.concat {xs ys zs : List α} {a : α} (h : IsLongest weight bound xs ys) (hzs : IsLongest weight bound (ys ++ [a]) zs) :
    IsLongest weight bound (xs ++ [a]) zs where
  suffix := by
    obtain ⟨older, rfl⟩ := h.suffix
    rw [List.append_assoc]
    exact hzs.suffix.trans (List.suffix_append older _)
  fits := hzs.fits
  longest := by
    intro ws hws hfits
    rcases List.suffix_concat_iff.1 hws with rfl | ⟨vs, rfl, hvs⟩
    · exact List.nil_suffix
    · rw [total_append] at hfits
      have hkept : vs <:+ ys := h.longest vs hvs (by omega)
      obtain ⟨older, rfl⟩ := hkept
      refine hzs.longest _ ?_ (by simpa using hfits)
      rw [List.append_assoc]
      exact List.suffix_append older _

end ProxmoxTool.LongestSuffix
