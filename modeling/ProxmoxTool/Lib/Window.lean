import ProxmoxTool.Lib.Dict
import Mathlib.Data.List.Dedup
import Mathlib.Data.List.Perm.Subperm
import Mathlib.Order.Defs.LinearOrder
import Mathlib.Order.Basic
import Mathlib.Algebra.Order.Group.Basic
import Mathlib.Data.List.Induction

/-!
# Sliding windows

Time stamps after a cutoff.  A cutoff that moves forward may be applied early and more than once (`recent_recent`), and a
list in order has no stamp after a cutoff that its last one does not pass (`recent_eq_nil`).  Stamps each of which finds fewer
than `limit` earlier ones in the window before it are at most `limit` in any window (`Spaced.length_le`).  The last part
counts keys: a dictionary whose keys all stand in a log has no more entries than the log has keys.
-/

namespace ProxmoxTool

section

variable {T : Type} [LinearOrder T]

/-- The stamps after the cutoff. -/
def recent (cutoff : T) (stamps : List T) : List T := stamps.filter fun t => decide (cutoff < t)

@[simp] theorem recent_nil (cutoff : T) : recent cutoff [] = [] := rfl

theorem recent_append (cutoff : T) (xs ys : List T) : recent cutoff (xs ++ ys) = recent cutoff xs ++ recent cutoff ys :=
  List.filter_append xs ys

theorem mem_recent {cutoff t : T} {stamps : List T} : t ∈ recent cutoff stamps ↔ t ∈ stamps ∧ cutoff < t := by
  simp [recent]

/-- An earlier cutoff makes no difference. -/
theorem recent_recent {cutoff cutoff' : T} (h : cutoff ≤ cutoff') (stamps : List T) :
    recent cutoff' (recent cutoff stamps) = recent cutoff' stamps := by
  unfold recent
  rw [List.filter_filter]
  refine List.filter_congr fun t _ => ?_
  have hlt : cutoff' < t → cutoff < t := lt_of_le_of_lt h
  by_cases ht : cutoff' < t
  · simp [ht, hlt ht]
  · simp [ht]

/-- There is no stamp, or the last one does not pass the cutoff. -/
def stale (cutoff : T) (stamps : List T) : Bool :=
  match stamps.getLast? with
  | none => true
  | some t => decide (t ≤ cutoff)

theorem le_getLast {stamps : List T} (h : stamps.Pairwise (· ≤ ·)) {last : T} (hlast : stamps.getLast? = some last) {t : T}
    (ht : t ∈ stamps) : t ≤ last := by
  obtain ⟨init, rfl⟩ := List.getLast?_eq_some_iff.1 hlast
  rcases List.mem_append.1 ht with ht | ht
  · exact (List.pairwise_append.1 h).2.2 t ht last List.mem_cons_self
  · exact le_of_eq (List.mem_singleton.1 ht)

theorem recent_eq_nil {cutoff : T} {stamps : List T} (h : stamps.Pairwise (· ≤ ·)) (hs : stale cutoff stamps = true) :
    recent cutoff stamps = [] := by
  unfold stale at hs
  cases hlast : stamps.getLast? with
  | none =>
    rw [List.getLast?_eq_none_iff.1 hlast]
    rfl
  | some last =>
    rw [hlast] at hs
    have hle : last ≤ cutoff := by simpa using hs
    refine List.filter_eq_nil_iff.2 fun t ht => ?_
    simpa using (le_getLast h hlast ht).trans hle

/-- A list that is not stale has a stamp after the cutoff. -/
theorem exists_recent {cutoff : T} {stamps : List T} (hs : stale cutoff stamps = false) : ∃ t, t ∈ recent cutoff stamps := by
  unfold stale at hs
  cases hlast : stamps.getLast? with
  | none =>
    rw [hlast] at hs
    cases hs
  | some last =>
    rw [hlast] at hs
    exact ⟨last, mem_recent.2 ⟨List.mem_of_getLast? hlast, by simpa using hs⟩⟩

end

section

variable {T : Type} [AddCommGroup T] [LinearOrder T]

/-- Every stamp has fewer than `limit` earlier ones in the window that ends with it. -/
def Spaced (window : T) (limit : Nat) (stamps : List T) : Prop :=
  ∀ before t after, stamps = before ++ t :: after → (recent (t - window) before).length < limit

theorem spaced_nil (window : T) (limit : Nat) : Spaced window limit [] := by
  intro before t after h
  simp at h

theorem Spaced.append_singleton {window : T} {limit : Nat} {stamps : List T} (h : Spaced window limit stamps) {t : T}
    (ht : (recent (t - window) stamps).length < limit) : Spaced window limit (stamps ++ [t]) := by
  intro before u after heq
  induction after using List.reverseRecOn with
  | nil =>
    obtain ⟨rfl, hu⟩ := List.append_inj' heq rfl
    obtain rfl := (List.cons.inj hu).1
    exact ht
  | append_singleton after v _ =>
    rw [← List.cons_append, ← List.append_assoc] at heq
    exact h before u after (List.append_inj' heq rfl).1

/-- The stamps in the half-open window that begins at `x`. -/
def within (window x : T) (stamps : List T) : List T := stamps.filter fun t => decide (x ≤ t ∧ t < x + window)

/-- No window holds more than `limit` stamps. -/
theorem Spaced.length_le [IsOrderedAddMonoid T] {window : T} {limit : Nat} {stamps : List T}
    (h : Spaced window limit stamps) (x : T) : (within window x stamps).length ≤ limit := by
  induction stamps using List.reverseRecOn with
  | nil => exact Nat.zero_le limit
  | append_singleton stamps t ih =>
    have hbefore : Spaced window limit stamps := by
      intro before u after heq
      refine h before u (after ++ [t]) ?_
      rw [heq]
      simp
    unfold within
    rw [List.filter_append]
    by_cases ht : x ≤ t ∧ t < x + window
    · have hlt := h stamps t [] rfl
      have hsub : (within window x stamps).length ≤ (recent (t - window) stamps).length := by
        refine (List.monotone_filter_right stamps fun u hu => ?_).length_le
        have hu' := of_decide_eq_true hu
        have hx : t - window < x := sub_lt_iff_lt_add.2 ht.2
        exact decide_eq_true (hx.trans_le hu'.1)
      have hone : List.filter (fun u => decide (x ≤ u ∧ u < x + window)) [t] = [t] := by simp [ht]
      unfold within at hsub
      rw [hone, List.length_append, List.length_singleton]
      omega
    · have hnone : List.filter (fun u => decide (x ≤ u ∧ u < x + window)) [t] = [] := by simpa using ht
      rw [hnone, List.append_nil]
      exact ih hbefore

end

namespace Dict

variable {κ ν : Type} [DecidableEq κ]

/-- `for key in keys: del d[key]`. -/
def popAll (d : Dict κ ν) (keys : List κ) : Dict κ ν := keys.foldl pop d

theorem popAll_eq_filter (d : Dict κ ν) (keys : List κ) : d.popAll keys = d.filter fun e => decide (e.1 ∉ keys) := by
  induction keys generalizing d with
  | nil => simp [popAll]
  | cons k keys ih =>
    have hstep : d.popAll (k :: keys) = (d.pop k).popAll keys := rfl
    rw [hstep, ih, pop, List.filter_filter]
    refine List.filter_congr fun e _ => ?_
    by_cases hk : e.1 = k
    · simp [hk]
    · simp [hk]

omit [DecidableEq κ] in
theorem nodup_keys_filter {d : Dict κ ν} (h : (d.map Prod.fst).Nodup) (p : κ × ν → Bool) :
    ((d.filter p).map Prod.fst).Nodup :=
  h.sublist (List.filter_sublist.map _)

theorem length_set_of_mem {d : Dict κ ν} {k : κ} (h : k ∈ d.map Prod.fst) (v : ν) : (d.set k v).length = d.length := by
  have hkeys := keys_set d k v
  rw [if_pos h] at hkeys
  simpa using congrArg List.length hkeys

theorem get?_filter {d : Dict κ ν} (h : (d.map Prod.fst).Nodup) (p : κ × ν → Bool) (k : κ) :
    Dict.get? (d.filter p) k = (d.get? k).filter fun v => p (k, v) := by
  induction d with
  | nil => rfl
  | cons e d ih =>
    have hnodup := List.nodup_cons.1 h
    rw [get?, List.filter_cons]
    by_cases hk : e.1 = k
    · obtain rfl := hk
      have hnone : get? (d.filter p) e.1 = none := by
        cases hget : get? (d.filter p) e.1 with
        | none => rfl
        | some v =>
          have hmem := List.mem_map_of_mem (f := Prod.fst) (List.mem_filter.1 (mem_of_get? hget)).1
          exact absurd hmem hnodup.1
      rw [if_pos rfl]
      cases hp : p e with
      | true => simp [get?, hp, Option.filter]
      | false => simp [hnone, hp, Option.filter]
    · rw [if_neg hk, ← ih hnodup.2]
      split
      · rw [get?, if_neg hk]
      · rfl

/-- Evicting the first `n` entries of a rearrangement leaves the others. -/
theorem length_popAll_take {d order : Dict κ ν} (h : (d.map Prod.fst).Nodup) (hp : order.Perm d) (n : Nat) :
    (d.popAll ((order.take n).map Prod.fst)).length = d.length - n := by
  have hnodup : (order.map Prod.fst).Nodup := (hp.map Prod.fst).nodup_iff.2 h
  have hsplit : order.filter (fun e => decide (e.1 ∉ (order.take n).map Prod.fst)) = order.drop n := by
    rw [← List.take_append_drop n order, List.map_append, List.nodup_append] at hnodup
    conv_lhs => rw [← List.take_append_drop n order]
    rw [List.filter_append]
    have htake : (order.take n).filter (fun e => decide (e.1 ∉ ((order.take n ++ order.drop n).take n).map Prod.fst)) = [] := by
      refine List.filter_eq_nil_iff.2 fun e he => ?_
      rw [List.take_append_drop, decide_eq_true_iff]
      exact fun hnot => hnot (List.mem_map_of_mem he)
    have hdrop : (order.drop n).filter (fun e => decide (e.1 ∉ ((order.take n ++ order.drop n).take n).map Prod.fst)) =
        order.drop n := by
      refine List.filter_eq_self.2 fun e he => ?_
      rw [List.take_append_drop]
      have hne : e.1 ∉ (order.take n).map Prod.fst := fun hmem =>
        hnodup.2.2 e.1 hmem e.1 (List.mem_map_of_mem he) rfl
      exact decide_eq_true hne
    rw [htake, hdrop, List.nil_append]
  rw [popAll_eq_filter, ← (hp.filter _).length_eq, hsplit, List.length_drop, hp.length_eq]

/-- A dictionary has no more entries than its keys can be found in. -/
theorem length_le_of_keys {d : Dict κ ν} (h : (d.map Prod.fst).Nodup) {keys : List κ} (hsub : ∀ e ∈ d, e.1 ∈ keys) :
    d.length ≤ keys.dedup.length := by
  have hlen : (d.map Prod.fst).length ≤ keys.dedup.length := by
    refine (List.subperm_of_subset h fun k hk => ?_).length_le
    obtain ⟨e, he, rfl⟩ := List.mem_map.1 hk
    exact List.mem_dedup.2 (hsub e he)
  simpa using hlen

end Dict

end ProxmoxTool
