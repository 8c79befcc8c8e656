import Mathlib
import ProxmoxTool.Lib.DayTime
import ProxmoxTool.Lib.Text

/-!
# Maintenance windows

`parse_window_time` and `_in_maintenance_window` of `core/scheduler.py`, which decide at every tick whether a guest may be
updated unattended, and `add` of `routes/schedules.py`, which stores the windows.  A window has a day and two times; it runs past
midnight when it ends before it starts.  The code compares the day of the window with the day of the clock, also in the part
after midnight: `in_maintenance_window_iff` says exactly when that is the window that was meant.
-/

namespace ProxmoxTool.Schedules

/-- Python's `str.lower`, `str.isdigit` and `int` on digits, which follow the Unicode tables outside ASCII. -/
structure TextTable where
  lower : Text → Text
  isdigit : Text → Bool
  /-- `none` for a `ValueError`, which some characters that `isdigit` accepts cause. -/
  int : Text → Option ℕ
  lower_ascii : ∀ t : Text, (∀ c ∈ t, c.toNat < 128) → lower t = t.map Char.toLower

/-- `datetime.time`, with hour, minute, second and microsecond, compared in this order. -/
abbrev Time : Type := Fin 24 ×ₗ Fin 60 ×ₗ Fin 60 ×ₗ Fin 1000000

/-- `dtime(hour, minute)`. -/
def dtime (hour : Fin 24) (minute : Fin 60) : Time := toLex (hour, toLex (minute, toLex (0, 0)))

/-- The columns of `maintenance_windows` that decide when it is open. -/
structure MaintenanceWindow where
  name : Text
  dayOfWeek : Option Text
  startTime : Option Text
  endTime : Option Text

/-- `calendar.day_name`. -/
def dayName : Fin 7 → Text
  | 0 => "Monday".toList
  | 1 => "Tuesday".toList
  | 2 => "Wednesday".toList
  | 3 => "Thursday".toList
  | 4 => "Friday".toList
  | 5 => "Saturday".toList
  | 6 => "Sunday".toList

/-- `date.weekday` of the date with this ordinal: day 1 is a Monday. -/
def weekday (ordinal : ℤ) : Fin 7 := ⟨((ordinal + 6) % 7).toNat, by omega⟩

section

variable (py : TextTable)

/-- `parse_window_time`; the outer `none` is a `ValueError` of `int`. -/
def parseWindowTime (value : Option Text) : Option (Option Time) :=
  let text := strip (value.getD [])
  if text.length ≠ 5 ∨ text[2]? ≠ some ':' ∨ !(py.isdigit (text.take 2) && py.isdigit (text.drop 3)) then some none
  else do
    let hour ← py.int (text.take 2)
    let minute ← py.int (text.drop 3)
    if h : 23 < hour ∨ 59 < minute then some none
    else some (some (dtime ⟨hour, by omega⟩ ⟨minute, by omega⟩))

def windowDay (window : MaintenanceWindow) : Text := py.lower (strip (window.dayOfWeek.getD []))

/-- `_in_maintenance_window`; `none` is a `ValueError`. -/
def inMaintenanceWindow (window : MaintenanceWindow) (now : Instant Time) : Option Bool :=
  let day := windowDay py window
  if day ≠ "daily".toList ∧ day ≠ py.lower (dayName (weekday now.day)) then some false
  else do
    let start ← parseWindowTime py window.startTime
    let stop ← parseWindowTime py window.endTime
    match start, stop with
    | some start, some stop =>
      let current := now.time
      if start ≤ stop then some (decide (start ≤ current ∧ current ≤ stop))
      else some (decide (current ≥ start ∨ current ≤ stop))
    | _, _ => some false

/-- The day is one of the window: the window is daily or bears the day's name. -/
def OnDay (window : MaintenanceWindow) (d : ℤ) : Prop :=
  windowDay py window = "daily".toList ∨ windowDay py window = py.lower (dayName (weekday d))

instance (window : MaintenanceWindow) (d : ℤ) : Decidable (OnDay py window d) :=
  inferInstanceAs (Decidable (_ ∨ _))

/-! ### The names of the days -/

theorem lower_dayName (d : Fin 7) : py.lower (dayName d) = (dayName d).map Char.toLower := by
  have hascii : ∀ d, ((dayName d).all fun c => decide (c.toNat < 128)) = true := by decide
  exact py.lower_ascii _ fun c hc => of_decide_eq_true (List.all_eq_true.1 (hascii d) c hc)

theorem lower_dayName_injective {d e : Fin 7} (h : py.lower (dayName d) = py.lower (dayName e)) : d = e := by
  rw [lower_dayName, lower_dayName] at h
  revert d e
  decide

theorem weekday_pred_ne (d : ℤ) : weekday (d - 1) ≠ weekday d := by
  intro h
  have : ((d - 1 + 6) % 7).toNat = ((d + 6) % 7).toNat := congrArg Fin.val h
  omega

variable {py}

/-- A window with the name of a weekday is not on two days in a row. -/
theorem onDay_pred_iff {window : MaintenanceWindow} {d : ℤ} (hday : windowDay py window ≠ "daily".toList) :
    (OnDay py window d ↔ OnDay py window (d - 1)) ↔ ¬OnDay py window d ∧ ¬OnDay py window (d - 1) := by
  have hboth : OnDay py window d → ¬OnDay py window (d - 1) := by
    rintro (hd | hd) (hpred | hpred)
    · exact hday hd
    · exact hday hd
    · exact hday hpred
    · exact weekday_pred_ne d (lower_dayName_injective py (hpred.symm.trans hd))
  tauto

/-! ### When a window is open -/

section

variable {window : MaintenanceWindow} {start stop : Time} {now : Instant Time}

/-- What the code asks for, where both times can be read. -/
theorem inMaintenanceWindow_eq_true_iff (hstart : parseWindowTime py window.startTime = some (some start))
    (hstop : parseWindowTime py window.endTime = some (some stop)) :
    inMaintenanceWindow py window now = some true ↔ OnDay py window now.day ∧
      if start ≤ stop then start ≤ now.time ∧ now.time ≤ stop else start ≤ now.time ∨ now.time ≤ stop := by
  unfold inMaintenanceWindow
  dsimp only
  by_cases hday : OnDay py window now.day
  · have hnot : ¬(windowDay py window ≠ "daily".toList ∧ windowDay py window ≠ py.lower (dayName (weekday now.day))) :=
      fun h => hday.elim h.1 h.2
    rw [if_neg hnot, hstart, hstop]
    simp only [Option.bind_eq_bind, Option.bind_some, hday, true_and]
    split <;> simp
  · have hno : windowDay py window ≠ "daily".toList ∧ windowDay py window ≠ py.lower (dayName (weekday now.day)) :=
      not_or.1 hday
    rw [if_pos hno]
    simp [hday]

/-- The code finds `now` in the window exactly when it is, unless the window runs past midnight on one weekday, the time is not
after its end, and it is that weekday or the next. -/
theorem in_maintenance_window_iff (hstart : parseWindowTime py window.startTime = some (some start))
    (hstop : parseWindowTime py window.endTime = some (some stop)) :
    (inMaintenanceWindow py window now = some true ↔ Instant.Covers (OnDay py window) start stop now) ↔
      start ≤ stop ∨ windowDay py window = "daily".toList ∨ stop < now.time ∨
        ¬OnDay py window now.day ∧ ¬OnDay py window (now.day - 1) := by
  rw [inMaintenanceWindow_eq_true_iff hstart hstop]
  rcases le_or_gt start stop with hle | hlt
  · rw [if_pos hle, Instant.covers_iff_of_le hle]
    exact iff_of_true Iff.rfl (.inl hle)
  · rw [if_neg (not_le.2 hlt), Instant.covers_iff_same_day_of_lt hlt]
    by_cases hday : windowDay py window = "daily".toList
    · exact iff_of_true (.inr (iff_of_true (.inl hday) (.inl hday))) (.inr (.inl hday))
    · rw [onDay_pred_iff hday]
      simp only [not_le.2 hlt, hday, false_or]

end

end

/-! ### A window past midnight on a Monday -/

theorem map_toLower_ascii (t : Text) (_ : ∀ c ∈ t, c.toNat < 128) : t.map Char.toLower = t.map Char.toLower := rfl

def asciiTable : TextTable where
  lower := List.map Char.toLower
  isdigit t := !t.isEmpty && t.all Char.isDigit
  int t := if t.all Char.isDigit then some (Nat.ofDigitChars 10 t 0) else none
  lower_ascii := map_toLower_ascii

def mondayNight : MaintenanceWindow where
  name := "nightly".toList
  dayOfWeek := some "monday".toList
  startTime := some "23:00".toList
  endTime := some "02:00".toList

/-- 6 January 2026, a Tuesday, at one o'clock. -/
def tuesdayAtOne : Instant Time := ⟨739622, dtime 1 0⟩

theorem in_maintenance_window_iff_tuesdayAtOne :
    ¬(inMaintenanceWindow asciiTable mondayNight tuesdayAtOne = some true ↔
      Instant.Covers (OnDay asciiTable mondayNight) (dtime 23 0) (dtime 2 0) tuesdayAtOne) := by
  rw [in_maintenance_window_iff (by decide) (by decide)]
  decide

/-- On Tuesday at one o'clock the window that has opened on Monday is open, and the code finds the instant outside it. -/
theorem mondayNight_missed :
    inMaintenanceWindow asciiTable mondayNight tuesdayAtOne = some false ∧
      Instant.Covers (OnDay asciiTable mondayNight) (dtime 23 0) (dtime 2 0) tuesdayAtOne := by
  refine ⟨by decide, ?_⟩
  rw [Instant.covers_iff_of_lt (by decide)]
  decide

end ProxmoxTool.Schedules
