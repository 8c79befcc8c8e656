import ProxmoxTool.Collaboration.Terminal
import ProxmoxTool.Lib.LongestSuffix

/-!
# The catch-up buffer

What `_append` keeps of the output for those who join late: the longest run of whole chunks at the end that has at most `MAX_BUFFER`
characters.
-/

namespace ProxmoxTool.Terminal

open LongestSuffix

/-- The loop leaves the longest suffix, and its size. -/
theorem evict_spec (chunks : List Text) :
    IsLongest List.length maxBuffer chunks (evict chunks (total List.length chunks)).chunks ∧
      (evict chunks (total List.length chunks)).size = total List.length (evict chunks (total List.length chunks)).chunks := by
  induction chunks with
  | nil => exact ⟨isLongest_self (Nat.zero_le _), rfl⟩
  | cons removed chunks ih =>
    have hrest : total List.length (removed :: chunks) - removed.length = total List.length chunks := by
      rw [total_cons, Nat.add_sub_cancel_left]
    rw [evict, hrest]
    by_cases hover : maxBuffer < total List.length (removed :: chunks)
    · rw [if_pos hover]
      exact ⟨ih.1.cons hover, ih.2⟩
    · rw [if_neg hover]
      exact ⟨isLongest_self (Nat.le_of_not_lt hover), rfl⟩

/-- The buffer after any chunks, and its size. -/
theorem ringAfter_spec (history : List Text) :
    IsLongest List.length maxBuffer history (ringAfter history).chunks ∧
      (ringAfter history).size = total List.length (ringAfter history).chunks := by
  induction history using List.reverseRecOn with
  | nil => exact ⟨isLongest_self (Nat.zero_le _), rfl⟩
  | append_singleton history data ih =>
    obtain ⟨hlongest, hsize⟩ := ih
    have htotal : (ringAfter history).size + data.length = total List.length ((ringAfter history).chunks ++ [data]) := by
      rw [hsize, total_append, total_cons, total_nil, Nat.add_zero]
    rw [ringAfter_append, Ring.append, htotal]
    obtain ⟨hevicted, hsize'⟩ := evict_spec ((ringAfter history).chunks ++ [data])
    exact ⟨hlongest.concat hevicted, hsize'⟩

theorem flatten_suffix {xs ys : List Text} (h : ys <:+ xs) : ys.flatten <:+ xs.flatten := by
  obtain ⟨older, rfl⟩ := h
  rw [List.flatten_append]
  exact List.suffix_append _ _

/-- The buffer has the longest suffix of the chunks that has at most `MAX_BUFFER` characters, with its size; the snapshot is a suffix of the
output, and is not empty after a chunk that fits and is not empty. -/
theorem catch_up_longest_suffix (history : List Text) :
    (ringAfter history).size = total List.length (ringAfter history).chunks ∧ (ringAfter history).size ≤ maxBuffer ∧
      IsLongest List.length maxBuffer history (ringAfter history).chunks ∧
      (ringAfter history).snapshot <:+ history.flatten ∧
      ∀ data ∈ history.getLast?, 1 ≤ data.length → data.length ≤ maxBuffer → (ringAfter history).snapshot ≠ [] := by
  obtain ⟨hlongest, hsize⟩ := ringAfter_spec history
  refine ⟨hsize, hsize ▸ hlongest.fits, hlongest, flatten_suffix hlongest.suffix, fun data hlast hpos hfits => ?_⟩
  obtain ⟨older, rfl⟩ := List.getLast?_eq_some_iff.1 hlast
  have hkept : [data] <:+ (ringAfter (older ++ [data])).chunks :=
    hlongest.longest [data] (List.suffix_append older [data]) (by simpa using hfits)
  intro hempty
  have hsnapshot := flatten_suffix hkept
  have hflat : (ringAfter (older ++ [data])).chunks.flatten = [] := hempty
  rw [hflat, List.suffix_nil] at hsnapshot
  have hnil : data = [] := by simpa using hsnapshot
  rw [hnil] at hpos
  exact absurd hpos (by decide)

end ProxmoxTool.Terminal
