import Mathlib.Data.Prod.Lex
import Mathlib.Order.Bounds.Basic
import Mathlib.Tactic.Common

/-!
# Ranges of versions

The comparators `^X.Y.Z`, `>=X.Y.Z` and `X.Y.Z` of a range, none of which names a pre-release, so that only releases satisfy them.  For a
major that a range names there is always a release in the range (`exists_admits_iff`); whether there is one above a given version is said
by the numbers alone (`exists_newer_iff`).
-/

namespace ProxmoxTool.SemVer

/-- Major, minor and patch. -/
abbrev Release := ℕ × ℕ × ℕ

/-- A release, or what stands in front of it. -/
structure Version where
  numbers : Release
  pre : Option (List Char) := none

namespace Release

/-- The first number counts before the second, and that before the third. -/
def order (v : Release) : ℕ ×ₗ ℕ ×ₗ ℕ := toLex (v.1, toLex v.2)

theorem order_le_iff {v w : Release} :
    v.order ≤ w.order ↔ v.1 < w.1 ∨ v.1 = w.1 ∧ (v.2.1 < w.2.1 ∨ v.2.1 = w.2.1 ∧ v.2.2 ≤ w.2.2) := by
  simp [order, Prod.Lex.toLex_le_toLex]

theorem order_lt_iff {v w : Release} :
    v.order < w.order ↔ v.1 < w.1 ∨ v.1 = w.1 ∧ (v.2.1 < w.2.1 ∨ v.2.1 = w.2.1 ∧ v.2.2 < w.2.2) := by
  simp [order, Prod.Lex.toLex_lt_toLex]

/-- The first release that `^base` leaves out: the left-most number other than zero may not change. -/
def caretEnd (base : Release) : Release :=
  if base.1 ≠ 0 then (base.1 + 1, 0, 0) else if base.2.1 ≠ 0 then (0, base.2.1 + 1, 0) else (0, 0, base.2.2 + 1)

end Release

/-- The release `w` is newer. -/
def Version.Below (v : Version) (w : Release) : Prop := v.numbers.order < w.order ∨ v.numbers = w ∧ v.pre ≠ none

inductive Comparator
  | caret (base : Release)
  | exact (base : Release)
  | atLeast (base : Release)

namespace Comparator

def base : Comparator → Release
  | caret base => base
  | exact base => base
  | atLeast base => base

def Admits (v : Release) : Comparator → Prop
  | caret base => base.order ≤ v.order ∧ v.order < base.caretEnd.order
  | exact base => v = base
  | atLeast base => base.order ≤ v.order

/-- A release of major `m` is among those admitted. -/
def Names (m : ℕ) : Comparator → Prop
  | caret base => m = base.1
  | exact base => m = base.1
  | atLeast base => base.1 ≤ m

/-- There is a release of the version's own major above it. -/
def HasNewer (v : Version) : Comparator → Prop
  | caret base => base.1 = v.numbers.1 ∧
      (base.1 ≠ 0 ∨ base.2.1 ≠ 0 ∧ v.numbers.2.1 ≤ base.2.1 ∨ base.2.1 = 0 ∧ v.Below base)
  | exact base => base.1 = v.numbers.1 ∧ v.Below base
  | atLeast base => base.1 ≤ v.numbers.1

theorem admits_base (c : Comparator) : c.Admits c.base := by
  cases c with
  | caret base =>
    have hend : base.order < base.caretEnd.order := by
      rw [Release.order_lt_iff, Release.caretEnd]
      split_ifs <;> dsimp only <;> omega
    exact ⟨le_refl base.order, hend⟩
  | exact base => rfl
  | atLeast base => exact le_refl base.order

theorem admits_caret_iff {base v : Release} : (caret base).Admits v ↔ base.1 = v.1 ∧ (base.2.1 < v.2.1 ∨ base.2.1 = v.2.1 ∧ base.2.2 ≤ v.2.2) ∧
    (base.1 = 0 → base.2.1 = v.2.1 ∧ (base.2.1 = 0 → base.2.2 = v.2.2)) := by
  rw [Admits, Release.order_le_iff, Release.order_lt_iff, Release.caretEnd]
  split_ifs <;> dsimp only <;> omega

theorem exists_admits_iff (c : Comparator) (m : ℕ) : (∃ w : Release, w.1 = m ∧ c.Admits w) ↔ c.Names m := by
  constructor
  · rintro ⟨w, rfl, h⟩
    cases c with
    | caret base => exact (admits_caret_iff.1 h).1.symm
    | exact base => exact congrArg Prod.fst h
    | atLeast base =>
      have h := Release.order_le_iff.1 h
      show base.1 ≤ w.1
      omega
  · intro h
    cases c with
    | caret base => exact ⟨base, h.symm, admits_base (caret base)⟩
    | exact base => exact ⟨base, h.symm, rfl⟩
    | atLeast base =>
      refine ⟨(m, base.2), rfl, Release.order_le_iff.2 ?_⟩
      have h : base.1 ≤ m := h
      dsimp only
      omega

/-- A release of the version's own major with a larger minor is newer. -/
private theorem below_of_minor_lt {v : Version} {minor : ℕ} (h : v.numbers.2.1 < minor) : v.Below (v.numbers.1, minor, 0) :=
  Or.inl (Release.order_lt_iff.2 (Or.inr ⟨rfl, Or.inl h⟩))

theorem exists_newer_iff (c : Comparator) (v : Version) : (∃ w : Release, w.1 = v.numbers.1 ∧ v.Below w ∧ c.Admits w) ↔ c.HasNewer v := by
  cases c with
  | caret base =>
    constructor
    · rintro ⟨w, hw, hbelow, hadmits⟩
      obtain ⟨hmajor, hmin, hzero⟩ := admits_caret_iff.1 hadmits
      refine ⟨hmajor.trans hw, ?_⟩
      by_cases h0 : base.1 = 0
      · obtain ⟨hminor, hpatch⟩ := hzero h0
        by_cases h1 : base.2.1 = 0
        · have hwb : w = base := Prod.ext hmajor.symm (Prod.ext hminor.symm (hpatch h1).symm)
          exact Or.inr (Or.inr ⟨h1, hwb ▸ hbelow⟩)
        · refine Or.inr (Or.inl ⟨h1, ?_⟩)
          rcases hbelow with hlt | ⟨rfl, -⟩
          · rw [Release.order_lt_iff] at hlt
            omega
          · exact hminor.ge
      · exact Or.inl h0
    · rintro ⟨hmajor, h⟩
      by_cases h0 : base.1 = 0
      · rcases h with h | ⟨h1, hle⟩ | ⟨-, hbelow⟩
        · exact absurd h0 h
        · refine ⟨(v.numbers.1, base.2.1, max v.numbers.2.2 base.2.2 + 1), rfl, Or.inl (Release.order_lt_iff.2 ?_), admits_caret_iff.2 ?_⟩
          · dsimp only
            omega
          · dsimp only
            omega
        · exact ⟨base, hmajor, hbelow, admits_base (caret base)⟩
      · refine ⟨(v.numbers.1, max v.numbers.2.1 base.2.1 + 1, 0), rfl, below_of_minor_lt (by omega), admits_caret_iff.2 ?_⟩
        dsimp only
        omega
  | exact base =>
    constructor
    · rintro ⟨w, hw, hbelow, rfl⟩
      exact ⟨hw, hbelow⟩
    · rintro ⟨hmajor, hbelow⟩
      exact ⟨base, hmajor, hbelow, rfl⟩
  | atLeast base =>
    constructor
    · rintro ⟨w, hw, -, hadmits⟩
      have hle := Release.order_le_iff.1 hadmits
      show base.1 ≤ v.numbers.1
      omega
    · intro h
      have hle : base.1 ≤ v.numbers.1 := h
      refine ⟨(v.numbers.1, max v.numbers.2.1 base.2.1 + 1, 0), rfl, below_of_minor_lt (by omega), Release.order_le_iff.2 ?_⟩
      dsimp only
      omega

end Comparator

/-! ### A range, whose comparators are alternatives -/

/-- The range is satisfied. -/
def Version.Satisfies (v : Version) (cs : List Comparator) : Prop := v.pre = none ∧ ∃ c ∈ cs, c.Admits v.numbers

/-- The majors of the releases in the range. -/
def majors (cs : List Comparator) : Set ℕ := {m | ∃ w : Release, w.1 = m ∧ ∃ c ∈ cs, c.Admits w}

theorem mem_majors_of_mem {cs : List Comparator} {c : Comparator} (h : c ∈ cs) : c.base.1 ∈ majors cs :=
  ⟨c.base, rfl, c, h, c.admits_base⟩

/-- The smallest major of a range is one that it writes. -/
theorem isLeast_majors_iff (cs : List Comparator) (m : ℕ) : IsLeast (majors cs) m ↔ (cs.map fun c => c.base.1).min? = some m := by
  have hlower : ∀ n ∈ majors cs, ∃ c ∈ cs, c.base.1 ≤ n := by
    rintro n ⟨w, rfl, c, hc, hadmits⟩
    refine ⟨c, hc, ?_⟩
    have hnames := (c.exists_admits_iff w.1).1 ⟨w, rfl, hadmits⟩
    cases c with
    | caret base => exact Eq.ge hnames
    | exact base => exact Eq.ge hnames
    | atLeast base => exact hnames
  rw [List.min?_eq_some_iff]
  constructor
  · rintro ⟨hm, hle⟩
    obtain ⟨c, hc, hcm⟩ := hlower m hm
    refine ⟨List.mem_map.2 ⟨c, hc, le_antisymm hcm (hle (mem_majors_of_mem hc))⟩, fun n hn => ?_⟩
    obtain ⟨d, hd, rfl⟩ := List.mem_map.1 hn
    exact hle (mem_majors_of_mem hd)
  · rintro ⟨hm, hle⟩
    obtain ⟨c, hc, rfl⟩ := List.mem_map.1 hm
    refine ⟨mem_majors_of_mem hc, fun n hn => ?_⟩
    obtain ⟨d, hd, hdn⟩ := hlower n hn
    exact le_trans (hle _ (List.mem_map.2 ⟨d, hd, rfl⟩)) hdn

/-- A release in the range has the version's own major and is newer. -/
def NewerOf (v : Version) (cs : List Comparator) : Prop := ∃ w : Release, w.1 = v.numbers.1 ∧ v.Below w ∧ ∃ c ∈ cs, c.Admits w

theorem newerOf_iff (v : Version) (cs : List Comparator) : NewerOf v cs ↔ ∃ c ∈ cs, c.HasNewer v := by
  constructor
  · rintro ⟨w, hw, hbelow, c, hc, hadmits⟩
    exact ⟨c, hc, (c.exists_newer_iff v).1 ⟨w, hw, hbelow, hadmits⟩⟩
  · rintro ⟨c, hc, h⟩
    obtain ⟨w, hw, hbelow, hadmits⟩ := (c.exists_newer_iff v).2 h
    exact ⟨w, hw, hbelow, c, hc, hadmits⟩

end ProxmoxTool.SemVer
