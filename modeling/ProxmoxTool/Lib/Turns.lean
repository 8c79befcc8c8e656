import Mathlib.Data.Set.Basic

/-!
# Taking turns

Things take turns at being served: an order says who comes first, and a round serves some of those in front and sends them
to the back.  `Fair` is the invariant that keeps the numbers of servings within one of each other: whoever has been served
less often comes first.  A round keeps it (`Fair.round`) if those it serves, with unequal numbers so far, are put back in the
order of these numbers.
-/

namespace ProxmoxTool

/-- Who is there, who comes first, and how often each has been served. -/
structure Turns (ι : Type) where
  present : Set ι
  ahead : ι → ι → Prop
  served : ι → Nat

namespace Turns

variable {ι : Type} {t t' : Turns ι} {P : Set ι}

def Balanced (t : Turns ι) : Prop := ∀ u ∈ t.present, ∀ v ∈ t.present, t.served u ≤ t.served v + 1

/-- Balanced, and whoever has been served less often comes first. -/
structure Fair (t : Turns ι) : Prop where
  balanced : t.Balanced
  ordered : ∀ u ∈ t.present, ∀ v ∈ t.present, t.served u < t.served v → t.ahead u v

/-- A round serves `P`, from the front on, and puts it behind all others; some may leave. -/
structure Round (t : Turns ι) (P : Set ι) (t' : Turns ι) : Prop where
  stay : t'.present ⊆ t.present
  front : ∀ u ∈ t'.present, ∀ v ∈ P, t.ahead u v → u ∈ P
  counted : ∀ u ∈ P, t'.served u = t.served u + 1
  uncounted : ∀ u, u ∉ P → t'.served u = t.served u
  back : ∀ u ∈ t'.present, ∀ v ∈ t'.present, u ∉ P → v ∈ P → t'.ahead u v
  rest : ∀ u ∈ t'.present, ∀ v ∈ t'.present, u ∉ P → v ∉ P → t.ahead u v → t'.ahead u v

theorem fair_of_served_eq (h : ∀ u v, t.served u = t.served v) : t.Fair := by
  refine ⟨fun u _ v _ => ?_, fun u _ v _ hlt => ?_⟩
  · rw [h u v]
    exact Nat.le_succ _
  · rw [h u v] at hlt
    exact absurd hlt (Nat.lt_irrefl _)

/-- A round keeps the numbers balanced. -/
theorem Fair.balanced_round (h : t.Fair) (hr : Round t P t') : t'.Balanced := by
  intro u hu v hv
  have hle := h.balanced u (hr.stay hu) v (hr.stay hv)
  by_cases hup : u ∈ P
  · by_cases hvp : v ∈ P
    · rw [hr.counted u hup, hr.counted v hvp]
      omega
    · -- `v` was passed over, so it is not ahead of `u` and has been served as often
      have hnot : ¬ t.served v < t.served u := fun hlt =>
        hvp (hr.front v hv u hup (h.ordered v (hr.stay hv) u (hr.stay hu) hlt))
      rw [hr.counted u hup, hr.uncounted v hvp]
      omega
  · by_cases hvp : v ∈ P
    · rw [hr.uncounted u hup, hr.counted v hvp]
      omega
    · rw [hr.uncounted u hup, hr.uncounted v hvp]
      exact hle

/-- A round keeps the invariant if those it serves are put back by the numbers they had. -/
theorem Fair.round (h : t.Fair) (hr : Round t P t')
    (hturn : ∀ u ∈ t'.present, ∀ v ∈ t'.present, u ∈ P → v ∈ P → t.served u < t.served v → t'.ahead u v) : t'.Fair := by
  refine ⟨h.balanced_round hr, fun u hu v hv hlt => ?_⟩
  have hle := h.balanced v (hr.stay hv) u (hr.stay hu)
  by_cases hup : u ∈ P
  · by_cases hvp : v ∈ P
    · rw [hr.counted u hup, hr.counted v hvp] at hlt
      exact hturn u hu v hv hup hvp (by omega)
    · rw [hr.counted u hup, hr.uncounted v hvp] at hlt
      omega
  · by_cases hvp : v ∈ P
    · exact hr.back u hu v hv hup hvp
    · rw [hr.uncounted u hup, hr.uncounted v hvp] at hlt
      exact hr.rest u hu v hv hup hvp (h.ordered u (hr.stay hu) v (hr.stay hv) hlt)

end Turns

end ProxmoxTool
