import Mathlib.Algebra.Order.Ring.Int
import Mathlib.Tactic.IntervalCases
import ProxmoxTool.ConfigBackup.Settings
import ProxmoxTool.Lib.Fields
import ProxmoxTool.Moderation.Requests

/-!
# The interval of the watch poll

Short polls stretch the interval at which the watch poll is scheduled, a clean poll restores it, and saving the watch settings schedules
the poll anew at the plain minutes, whatever the stretch.

`poll_interval_kept`: the interval is the configured minutes times the stretch at every moment of a run exactly if no save comes behind two
short polls in a row.
-/

namespace ProxmoxTool.Moderation.Interval

open ConfigBackup (parseInterval)

/-- `interval_setting`, for a key with the bounds `low` and `high`; a setting without a text is as good as none. -/
def intervalSetting (low high default : Int) (stored : Option Text) : Int :=
  match parseInt (stored.getD (intText default)) with
  | none => default
  | some value => if value < low ∨ high < value then max low (min high value) else value

/-- `interval_setting("moderation_watch_poll_minutes")`. -/
def configuredMinutes (stored : Option Text) : Int := intervalSetting 1 1440 5 stored

/-- `_watch_stretch`, the setting `moderation_watch_poll_minutes` and the minutes of the job's trigger. -/
structure Watch where
  consecutiveShort : Nat := 0
  factor : Nat := 1
  pollMinutes : Option Text
  scheduled : Int

def Watch.configured (w : Watch) : Int := configuredMinutes w.pollMinutes

/-- The scheduler as it starts. -/
def boot (stored : Option Text) : Watch := { pollMinutes := stored, scheduled := configuredMinutes stored }

/-- `_WATCH_STRETCH_MAX_FACTOR`. -/
def maxFactor : Nat := 6

/-- `_WATCH_STRETCH_THRESHOLD`. -/
def threshold : Nat := 2

/-- `short_run`. -/
def shortRun (result : Requests.Result) : Bool := result.deferred || result.backoffUntil.isSome

/-- `reschedule_moderation_watch`. -/
def Watch.reschedule (w : Watch) (minutes : Int) : Watch := { w with scheduled := minutes }

/-- What `_run_moderation_watch_poll` does with the outcome of the poll. -/
def Watch.afterPoll (w : Watch) (result : Requests.Result) : Watch :=
  if shortRun result then
    let w := { w with consecutiveShort := w.consecutiveShort + 1 }
    if threshold ≤ w.consecutiveShort then
      let newFactor := min maxFactor (w.factor * 2)
      if newFactor ≠ w.factor then { w with factor := newFactor }.reschedule (w.configured * newFactor) else w
    else w
  else
    let w := { w with consecutiveShort := 0 }
    if w.factor ≠ 1 then { w with factor := 1 }.reschedule w.configured else w

/-- The fields of the settings form that can make `mastodon_watch_save` refuse it. -/
structure WatchForm where
  pollMinutes : Option Text
  logRetentionDays : Option Text

/-- The minutes of a form that is not refused. -/
def WatchForm.accepted (form : WatchForm) : Option Int := do
  let minutes ← parseInterval 1 1440 (some (form.pollMinutes.getD "5".toList))
  let _ ← parseInterval 30 3650 (some (form.logRetentionDays.getD "365".toList))
  return minutes

/-- `mastodon_watch_save`. -/
def Watch.save (w : Watch) (form : WatchForm) : Watch :=
  match form.accepted with
  | none => w
  | some minutes => { w with pollMinutes := some (intText minutes) }.reschedule minutes

inductive Event where
  /-- A poll that has run, with its result. -/
  | poll (result : Requests.Result)
  | save (form : WatchForm)

def Watch.step (w : Watch) : Event → Watch
  | .poll result => w.afterPoll result
  | .save form => w.save form

def Watch.run (w : Watch) (events : List Event) : Watch := events.foldl Watch.step w

theorem Watch.run_concat (w : Watch) (past : List Event) (e : Event) : w.run (past ++ [e]) = (w.run past).step e := by
  rw [Watch.run, List.foldl_append]
  rfl

/-! ### What the settings give -/

theorem accepted_bounds {form : WatchForm} {minutes : Int} (h : form.accepted = some minutes) : 1 ≤ minutes ∧ minutes ≤ 1440 := by
  simp only [WatchForm.accepted, parseInterval, Option.pure_def, Option.bind_eq_bind, Option.bind_some, Option.bind_eq_some_iff] at h
  obtain ⟨value, ⟨i, -, hi⟩, -, -, hvalue⟩ := h
  split at hi
  · rename_i hbounds
    cases hi
    cases hvalue
    exact hbounds
  · cases hi

theorem scheduled_save {w : Watch} {form : WatchForm} {minutes : Int} (h : form.accepted = some minutes) :
    (w.save form).scheduled = minutes := by
  rw [Watch.save, h]
  rfl

/-- Accepted minutes are read back as they were stored. -/
theorem configured_save {w : Watch} {form : WatchForm} {minutes : Int} (h : form.accepted = some minutes) :
    (w.save form).configured = minutes := by
  obtain ⟨hlow, hhigh⟩ := accepted_bounds h
  have hread : parseInt (intText minutes) = some minutes := parseInt_intText minutes
  simp only [Watch.save, h, Watch.reschedule, Watch.configured, configuredMinutes, intervalSetting, Option.getD_some, hread]
  rw [if_neg (by omega)]

/-! ### The stretch -/

/-- The short polls in a row at the end of `past`. -/
def shorts (past : List Event) : Nat :=
  past.foldl (fun n e => match e with | .poll result => if shortRun result then n + 1 else 0 | .save _ => n) 0

theorem shorts_concat (past : List Event) (e : Event) : shorts (past ++ [e]) =
    match e with | .poll result => if shortRun result then shorts past + 1 else 0 | .save _ => shorts past := by
  rw [shorts, List.foldl_append]
  rfl

/-- The factor behind `n` short polls in a row. -/
def stretch : Nat → Nat
  | 0 | 1 => 1
  | n + 2 => min maxFactor (stretch (n + 1) * 2)

theorem stretch_bounds (n : Nat) : 1 ≤ stretch n ∧ stretch n ≤ maxFactor := by
  induction n using stretch.induct with
  | case1 => decide
  | case2 => decide
  | case3 n ih =>
    rw [stretch]
    simp only [maxFactor] at ih ⊢
    omega

theorem one_lt_stretch {n : Nat} (h : 2 ≤ n) : 1 < stretch n := by
  obtain ⟨m, rfl⟩ := Nat.exists_eq_add_of_le' h
  have hm := (stretch_bounds (m + 1)).1
  rw [stretch, maxFactor]
  omega

/-- The counter and the factor behind `n` short polls in a row. -/
structure Tracks (w : Watch) (n : Nat) : Prop where
  consecutiveShort : w.consecutiveShort = n
  factor : w.factor = stretch n

theorem Tracks.save {w : Watch} {n : Nat} (h : Tracks w n) (form : WatchForm) : Tracks (w.save form) n := by
  rw [Watch.save]
  split
  · exact h
  · exact ⟨h.consecutiveShort, h.factor⟩

/-- What a short poll does: one more short poll in a row, and a new interval only with a new factor. -/
theorem afterPoll_short {w : Watch} {n : Nat} {result : Requests.Result} (h : Tracks w n) (hshort : shortRun result = true) :
    Tracks (w.afterPoll result) (n + 1) ∧ (w.afterPoll result).pollMinutes = w.pollMinutes ∧
      (w.afterPoll result).scheduled =
        if stretch (n + 1) = stretch n then w.scheduled else w.configured * stretch (n + 1) := by
  obtain ⟨hcount, hfactor⟩ := h
  simp only [Watch.afterPoll, hshort, if_true, hcount, hfactor, threshold]
  cases n with
  | zero => exact ⟨⟨rfl, rfl⟩, rfl, rfl⟩
  | succ n =>
    have hnew : min maxFactor (stretch (n + 1) * 2) = stretch (n + 1 + 1) := rfl
    rw [hnew, if_pos (by omega)]
    by_cases hsame : stretch (n + 1 + 1) = stretch (n + 1)
    · rw [if_neg (not_not.2 hsame), if_pos hsame]
      exact ⟨⟨rfl, hsame.symm⟩, rfl, rfl⟩
    · rw [if_pos hsame, if_neg hsame]
      exact ⟨⟨rfl, rfl⟩, rfl, rfl⟩

/-- What a clean poll does. -/
theorem afterPoll_clean {w : Watch} {result : Requests.Result} (hclean : shortRun result = false) :
    Tracks (w.afterPoll result) 0 ∧ (w.afterPoll result).pollMinutes = w.pollMinutes ∧
      (w.afterPoll result).scheduled = if w.factor = 1 then w.scheduled else w.configured := by
  simp only [Watch.afterPoll, hclean, Bool.false_eq_true, if_false]
  by_cases hone : w.factor = 1
  · rw [if_neg (not_not.2 hone), if_pos hone]
    exact ⟨⟨rfl, hone⟩, rfl, rfl⟩
  · rw [if_pos hone, if_neg hone]
    exact ⟨⟨rfl, rfl⟩, rfl, rfl⟩

theorem tracks_run (stored : Option Text) (past : List Event) : Tracks ((boot stored).run past) (shorts past) := by
  induction past using List.reverseRecOn with
  | nil => exact ⟨rfl, rfl⟩
  | append_singleton past e ih =>
    rw [Watch.run_concat, shorts_concat]
    cases e with
    | save form => exact ih.save form
    | poll result =>
      cases hshort : shortRun result with
      | true =>
        have hafter := (afterPoll_short ih hshort).1
        simpa only [Watch.step, hshort, if_true] using hafter
      | false =>
        have hafter := (afterPoll_clean (w := (boot stored).run past) hshort).1
        simpa only [Watch.step, hshort, Bool.false_eq_true, if_false] using hafter

/-! ### The interval -/

/-- What is kept of the interval behind the events `past`. -/
structure Kept (past : List Event) (w : Watch) : Prop where
  scheduled : w.scheduled = w.configured * w.factor
  clean : shorts past = 0 → w.factor = 1
  stretched : 2 ≤ shorts past → 1 < w.factor ∧ w.factor ≤ 6

def Polled (past : List Event) : Prop := ∃ result, Event.poll result ∈ past

/-- Every save that is not refused comes behind fewer than two short polls in a row. -/
def SavesUnstretched (events : List Event) : Prop :=
  ∀ past form rest, events = past ++ .save form :: rest → form.accepted.isSome → shorts past < 2

theorem SavesUnstretched.of_append {past rest : List Event} (h : SavesUnstretched (past ++ rest)) : SavesUnstretched past := by
  intro before form after hpast
  exact h before form (after ++ rest) (by rw [hpast, List.append_assoc, List.cons_append])

private theorem stretch_eq_one {n : Nat} (h : n < 2) : stretch n = 1 := by
  interval_cases n <;> rfl

/-- One event keeps the interval in step with the factor, a save only where there is no stretch. -/
theorem scheduled_step {w : Watch} {n : Nat} {e : Event} (htracks : Tracks w n) (h : w.scheduled = w.configured * w.factor)
    (hsave : ∀ form, e = .save form → form.accepted.isSome → n < 2) :
    (w.step e).scheduled = (w.step e).configured * (w.step e).factor := by
  cases e with
  | poll result =>
    cases hshort : shortRun result with
    | true =>
      obtain ⟨hafter, hminutes, hscheduled⟩ := afterPoll_short htracks hshort
      have hconfigured : (w.afterPoll result).configured = w.configured := congrArg configuredMinutes hminutes
      rw [Watch.step, hscheduled, hconfigured, hafter.factor]
      split
      · rename_i hsame
        rw [h, htracks.factor, hsame]
      · rfl
    | false =>
      obtain ⟨hafter, hminutes, hscheduled⟩ := afterPoll_clean (w := w) hshort
      have hconfigured : (w.afterPoll result).configured = w.configured := congrArg configuredMinutes hminutes
      rw [Watch.step, hscheduled, hconfigured, hafter.factor, stretch]
      split
      · rename_i hone
        rw [h, hone]
      · simp
  | save form =>
    cases hform : form.accepted with
    | none =>
      have hsame : w.save form = w := by rw [Watch.save, hform]
      rw [Watch.step, hsame]
      exact h
    | some minutes =>
      have hone : stretch n = 1 := stretch_eq_one (hsave form rfl (by rw [hform]; rfl))
      rw [Watch.step, scheduled_save hform, configured_save hform, (htracks.save form).factor, hone, Nat.cast_one, mul_one]

theorem scheduled_run {stored : Option Text} {past : List Event} (h : SavesUnstretched past) :
    ((boot stored).run past).scheduled = ((boot stored).run past).configured * ((boot stored).run past).factor := by
  induction past using List.reverseRecOn with
  | nil => exact (mul_one _).symm
  | append_singleton past e ih =>
    rw [Watch.run_concat]
    refine scheduled_step (tracks_run stored past) (ih h.of_append) ?_
    rintro form rfl
    exact h past form [] rfl

/-- Behind two short polls in a row a save leaves the interval at the plain minutes while the factor stays. -/
theorem not_kept_save {w : Watch} {n : Nat} {form : WatchForm} (htracks : Tracks w n) (hform : form.accepted.isSome) (hn : 2 ≤ n) :
    (w.save form).scheduled ≠ (w.save form).configured * (w.save form).factor := by
  obtain ⟨minutes, hminutes⟩ := Option.isSome_iff_exists.1 hform
  rw [scheduled_save hminutes, configured_save hminutes, (htracks.save form).factor]
  have hpositive := (accepted_bounds hminutes).1
  have hstretch := one_lt_stretch hn
  intro heq
  have hlt : minutes * 1 < minutes * (stretch n : Int) := mul_lt_mul_of_pos_left (by exact_mod_cast hstretch) (by omega)
  omega

/-- Two short polls in a row have polled. -/
theorem polled_of_shorts {past : List Event} (h : 0 < shorts past) : Polled past := by
  induction past using List.reverseRecOn with
  | nil => cases h
  | append_singleton past e ih =>
    cases e with
    | poll result => exact ⟨result, by simp⟩
    | save form =>
      rw [shorts_concat] at h
      obtain ⟨result, hmem⟩ := ih h
      exact ⟨result, List.mem_append_left _ hmem⟩

theorem poll_interval_kept (stored : Option Text) (events : List Event) :
    (∀ past rest, events = past ++ rest → Polled past → Kept past ((boot stored).run past)) ↔ SavesUnstretched events := by
  constructor
  · intro hkept past form rest heq hform
    by_contra hstretched
    have hpolled : Polled past := polled_of_shorts (by omega)
    obtain ⟨result, hmem⟩ := hpolled
    have hafter := hkept (past ++ [.save form]) rest (by simpa using heq) ⟨result, List.mem_append_left _ hmem⟩
    have hscheduled := hafter.scheduled
    rw [Watch.run_concat] at hscheduled
    exact not_kept_save (tracks_run stored past) hform (by omega) hscheduled
  · rintro hsaves past rest rfl -
    have htracks := tracks_run stored past
    refine ⟨scheduled_run hsaves.of_append, ?_, ?_⟩
    · intro hclean
      rw [htracks.factor, hclean, stretch]
    · intro hshort
      rw [htracks.factor]
      exact ⟨one_lt_stretch hshort, (stretch_bounds _).2⟩

private def tooMany : Requests.Result := { deferred := true, backoffUntil := none }

/-- Two short polls, then a save of ten minutes: the factor is 2, and the poll is scheduled every ten minutes. -/
theorem stretch_forgotten :
    ¬ Kept [.poll tooMany, .poll tooMany, .save ⟨some "10".toList, none⟩]
      ((boot none).run [.poll tooMany, .poll tooMany, .save ⟨some "10".toList, none⟩]) := by
  intro h
  exact absurd h.scheduled (by decide +kernel)

end ProxmoxTool.Moderation.Interval
