import Mathlib.Order.Lattice
import Mathlib.Order.Basic
import Mathlib.Tactic.Common

/-!
# Days and times of day

An instant is a day and a time of the day, for any linear order of times.  `Covers` says that an instant lies in a window that opens
at one time of a chosen day and closes at another; a window that closes at an earlier time than it opens at closes on the next
day.  It is a condition on the day of the instant alone (`covers_iff_of_le`), or on that day and the one before
(`covers_iff_of_lt`).
-/

namespace ProxmoxTool

structure Instant (T : Type) where
  day : ℤ
  time : T

namespace Instant

variable {T : Type} [LinearOrder T]

/-- The earlier day comes first, and on one day the earlier time. -/
instance : LE (Instant T) where
  le s t := s.day < t.day ∨ s.day = t.day ∧ s.time ≤ t.time

theorem le_iff {s t : Instant T} : s ≤ t ↔ s.day < t.day ∨ s.day = t.day ∧ s.time ≤ t.time := Iff.rfl

/-- The window that opens at `start` on day `d` closes here. -/
def closing (start stop : T) (d : ℤ) : Instant T := ⟨if stop < start then d + 1 else d, stop⟩

/-- There is a day on which the window opens before `t`, and it has not closed before `t`. -/
def Covers (OnDay : ℤ → Prop) (start stop : T) (t : Instant T) : Prop :=
  ∃ d, OnDay d ∧ (⟨d, start⟩ : Instant T) ≤ t ∧ t ≤ closing start stop d

variable {OnDay : ℤ → Prop} {start stop : T} {t : Instant T}

theorem covers_iff_of_le (h : start ≤ stop) :
    Covers OnDay start stop t ↔ OnDay t.day ∧ start ≤ t.time ∧ t.time ≤ stop := by
  simp only [Covers, closing, if_neg (not_lt.2 h), le_iff]
  constructor
  · rintro ⟨d, hd, hopen, hclose⟩
    -- the window opens and closes on one day, so that is the day of `t`
    obtain rfl : d = t.day := by omega
    exact ⟨hd, by simpa using hopen, by simpa using hclose⟩
  · rintro ⟨hd, hopen, hclose⟩
    exact ⟨t.day, hd, .inr ⟨rfl, hopen⟩, .inr ⟨rfl, hclose⟩⟩

theorem covers_iff_of_lt (h : stop < start) :
    Covers OnDay start stop t ↔ OnDay t.day ∧ start ≤ t.time ∨ OnDay (t.day - 1) ∧ t.time ≤ stop := by
  simp only [Covers, closing, if_pos h, le_iff]
  constructor
  · rintro ⟨d, hd, hopen, hclose⟩
    rcases hopen with hlt | ⟨rfl, hopen⟩
    · -- the window has opened on a day before, and closes on the day of `t`
      obtain rfl : d = t.day - 1 := by omega
      exact .inr ⟨hd, by simpa using hclose⟩
    · exact .inl ⟨hd, hopen⟩
  · rintro (⟨hd, hopen⟩ | ⟨hd, hclose⟩)
    · exact ⟨t.day, hd, .inr ⟨rfl, hopen⟩, .inl (Int.lt_succ t.day)⟩
    · exact ⟨t.day - 1, hd, .inl (Int.sub_one_lt_of_le (le_refl t.day)), .inr ⟨by omega, hclose⟩⟩

/-- For a window past midnight it makes a difference to ask for the day of `t` itself only before the closing time, and then only
where that day and the one before are not both days of the window, or both not. -/
theorem covers_iff_same_day_of_lt (h : stop < start) :
    (OnDay t.day ∧ (start ≤ t.time ∨ t.time ≤ stop) ↔ Covers OnDay start stop t) ↔
      stop < t.time ∨ (OnDay t.day ↔ OnDay (t.day - 1)) := by
  rw [covers_iff_of_lt h]
  by_cases hstop : t.time ≤ stop
  · have hstart : ¬start ≤ t.time := not_le.2 (lt_of_le_of_lt hstop h)
    simp only [hstart, hstop, not_lt.2 hstop, and_false, false_or, or_true, and_true]
  · simp only [hstop, not_le.1 hstop, and_false, or_false, true_or]

end Instant

end ProxmoxTool
